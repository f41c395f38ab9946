/-
TokenAlignment/CommandLine/Workspace.lean

A host that is a value: a tree of files with the directory that paths start
from, an environment, recorded trees, and what was written so far.

Paths are followed name by name.  Every name but the last has to lead to a
directory, and `..` leads to the directory above.  Names and paths have a
greatest length.
-/
import TokenAlignment.CommandLine.Host
import TokenAlignment.Syntax.Recorded

namespace TokenAlignment

/-! ### Trees of files -/

/-- What takes content and keeps none; there is nothing to read from it. -/
inductive Device where
  /-- Takes everything. -/
  | sink
  /-- Has no space for anything. -/
  | full
  /-- The stream for results. -/
  | results
  /-- The stream for messages. -/
  | messages
  deriving DecidableEq, Repr

/-- A file, a device, or a directory. -/
inductive FileTree where
  | file (content : List UInt8)
  | device (device : Device)
  | directory (entries : List (String × FileTree))

namespace FileTree

/-- The directory with no entries. -/
def nothing : FileTree :=
  directory []

/-- The entries of a directory; none of anything else. -/
def entries : FileTree → List (String × FileTree)
  | directory es => es
  | _ => []

/-- What some names lead to. -/
def get? (t : FileTree) : List String → Option FileTree
  | [] => some t
  | name :: names => (List.lookup name t.entries).bind fun t' => t'.get? names

/-- Replaces an entry, or adds one behind the others. -/
def setEntry (name : String) (t : FileTree) : List (String × FileTree) →
    List (String × FileTree)
  | [] => [(name, t)]
  | e :: es => if e.1 = name then (name, t) :: es else e :: setEntry name t es

/-- Puts a tree at the place that some names lead to; directories on the way come
about as needed. -/
def put (new : FileTree) (t : FileTree) : List String → FileTree
  | [] => new
  | name :: names =>
    let below := put new ((List.lookup name t.entries).getD nothing) names
    directory (setEntry name below t.entries)

/-- The most bytes that a name can have. -/
def maxNameBytes : Nat := 255

/-- Follows names from the directory that `above` leads to (newest first), as far
as to the place where the last one stands, which may hold nothing. -/
def follow (root : FileTree) (above : List String) : List String → Except IoError (List String)
  | [] => .ok above.reverse
  | name :: names =>
    match root.get? above.reverse with
    | some (directory _) =>
      if name = ".." then follow root above.tail names
      else if maxNameBytes < name.utf8ByteSize then .error .nameTooLong
      else follow root (name :: above) names
    | some _ => .error .notDirectory
    | none => .error .notFound

mutual

/-- The names of files and directories, without contents. -/
def outline : FileTree → DirTree
  | directory es => .directory (outlines es)
  | _ => .file

/-- The outlines of entries. -/
def outlines : List (String × FileTree) → List (String × DirTree)
  | [] => []
  | (name, t) :: es => (name, t.outline) :: outlines es

end

end FileTree

/-! ### The workspace -/

/-- A machine as a value. -/
structure Workspace where
  root : FileTree
  /-- The names that lead to the directory that paths start from. -/
  directory : List String
  environment : List (String × String)
  trees : List RecordedTree
  /-- The texts printed, newest first. -/
  printed : List String
  /-- The messages reported, newest first. -/
  reported : List String

namespace Workspace

/-- The names of the directory that paths start from.  The last one is a slash,
which is no name in any path, so only a path that starts there leads there. -/
def home : List String :=
  ["tmp", "/"]

/-- The devices of a machine.  Nobody types anything into the stream for input. -/
def devices : FileTree :=
  .directory [("full", .device .full), ("null", .device .sink), ("stderr", .device .messages),
    ("stdin", .device .sink), ("stdout", .device .results)]

/-- The directories of a machine beside that of its devices. -/
def systemDirectories : List String :=
  ["bin", "etc", "home", "lib", "opt", "proc", "root", "run", "sys", "tmp", "usr", "var"]

/-- The files of a machine before any of a user. -/
def bare : FileTree :=
  .directory (("dev", devices) :: systemDirectories.map fun name => (name, .nothing))

/-- The most bytes that a path can have. -/
def maxPathBytes : Nat := 4095

/-- The workspace before any command, with nothing in its directory. -/
def new (environment : List (String × String)) (trees : List RecordedTree) : Workspace where
  root := FileTree.put .nothing bare home
  directory := home
  environment := environment
  trees := trees
  printed := []
  reported := []

/-- Adds a file, or an empty directory if the path ends in a slash. -/
def add (w : Workspace) (path : FilePath) (content : List UInt8) : Workspace :=
  let place := w.directory ++ path.names
  if path.endsInDirectory then
    { w with root := FileTree.put ((w.root.get? place).getD .nothing) w.root place }
  else { w with root := FileTree.put (.file content) w.root place }

/-- The place that a path leads to. -/
def place (w : Workspace) (path : FilePath) : Except IoError (List String) :=
  if path.isEmpty then .error .notFound
  else if maxPathBytes < path.utf8ByteSize then .error .nameTooLong
  else w.root.follow (if path.isAbsolute then [] else w.directory.reverse) path.names

/-- What is found at a path. -/
def find (w : Workspace) (path : FilePath) : Except IoError FileTree := do
  let place ← w.place path
  match w.root.get? place with
  | some (.directory es) => return .directory es
  | some t => if path.endsInDirectory then .error .notDirectory else return t
  | none => .error .notFound

/-- The content of a file. -/
def read (w : Workspace) (path : FilePath) : Except IoError (List UInt8) := do
  match ← w.find path with
  | .file content => return content
  | .device _ => return []
  | .directory _ => .error .isDirectory

/-- The workspace with a text behind those printed. -/
def print (w : Workspace) (text : String) : Workspace :=
  { w with printed := text :: w.printed }

/-- The workspace with a message behind those reported. -/
def report (w : Workspace) (text : String) : Workspace :=
  { w with reported := text :: w.reported }

/-- The workspace after some content went to a device. -/
def writeDevice (w : Workspace) (content : List UInt8) : Device → Except IoError Workspace
  | .sink => .ok w
  | .full => if content.isEmpty then .ok w else .error .noSpace
  | .results => .ok (w.print (String.ofList (Utf8.decodeLossy content)))
  | .messages => .ok (w.report (String.ofList (Utf8.decodeLossy content)))

/-- The workspace with a new content of a file.  A path that ends in a dot is
followed to its end; behind a last slash nothing is looked for. -/
def write (w : Workspace) (path : FilePath) (content : List UInt8) :
    Except IoError Workspace := do
  if path.endsInDot then
    let _ ← w.find path
  let place ← w.place path
  if path.endsInDirectory then .error .isDirectory
  else
    match w.root.get? place with
    | some (.directory _) => .error .isDirectory
    | some (.device d) => w.writeDevice content d
    | _ => return { w with root := FileTree.put (.file content) w.root place }

/-- The texts printed, in order. -/
def output (w : Workspace) : String :=
  String.join w.printed.reverse

/-- The messages reported, in order. -/
def messages (w : Workspace) : String :=
  String.join w.reported.reverse

/-- Writes a file of the workspace that a command is run on. -/
def writeStep (path : FilePath) (content : List UInt8) :
    StateM Workspace (Except IoError Unit) := do
  match (← get).write path content with
  | .ok w =>
    set w
    return .ok ()
  | .error e => return .error e

/-- No clock runs in a workspace, and a place holder stands for the time. -/
instance : Host (StateM Workspace) where
  environment names := return (← get).environment.filter fun v => names.contains v.1
  find path := return ((← get).find path).toOption.map FileTree.outline
  openFile path := return ((← get).find path).map fun _ => ()
  readFile path := return (← get).read path
  createFile path := writeStep path []
  writeFile := writeStep
  grammar := return RecordedTree.grammar (← get).trees
  print text := modify (·.print text)
  report text := modify (·.report text)
  elapsed := return "<t>"

end Workspace

end TokenAlignment
