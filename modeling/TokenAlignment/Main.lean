/-
TokenAlignment/Main.lean

The program on a real machine.

Trees come from a file that an environment variable names, with a recorded tree
on each line.
-/
import TokenAlignment.CommandLine.Program
import TokenAlignment.Syntax.Recorded

namespace TokenAlignment

/-- What a call of the program on a real machine keeps. -/
structure Session where
  /-- The time of its start, in milliseconds. -/
  started : Nat
  trees : List RecordedTree

namespace Session

/-- The steps of a call. -/
abbrev Step : Type → Type :=
  ReaderT Session IO

/-- The variable that names the file with recorded trees. -/
def treesVariable : String := "TOKENSCORE_TREES"

/-- The number of an error of the machine.  Some operations give it with a minus
sign. -/
def errorNumber : IO.Error → Nat
  | .noFileOrDirectory _ code _ | .inappropriateType _ code _ | .resourceExhausted _ code _
  | .invalidArgument _ code _ => code.toInt32.toInt.natAbs
  | _ => 0

/-- An error of the machine as an error of a host. -/
def ioError (e : IO.Error) : IoError :=
  match errorNumber e with
  | 2 => .notFound
  | 20 => .notDirectory
  | 21 => .isDirectory
  | 28 => .noSpace
  | 36 => .nameTooLong
  | _ => .other (toString e)

/-- A step with a file, and its error if it fails. -/
def attempt {β : Type} (step : IO β) : Step (Except IoError β) := do
  let result ← EIO.toIO' step
  return result.mapError ioError

/-- Replaces the content of a file. -/
def writeContent (path : FilePath) (content : List UInt8) : IO Unit :=
  IO.FS.withFile path .write fun handle => do
    handle.write (ByteArray.mk content.toArray)
    handle.flush

/-- The files below a path; a directory that cannot be listed is taken as
empty. -/
partial def outline (path : FilePath) : IO DirTree := do
  let place := (← IO.currentDir) / path
  if ← place.isDir then
    try
      let entries ← (← place.readDir).toList.mapM fun e => do
        return (e.fileName, ← outline (FilePath.child path e.fileName))
      return .directory entries
    catch _ => return .directory []
  else return .file

/-- What is found at a path. -/
def find (path : FilePath) : IO (Option DirTree) := do
  if ← ((← IO.currentDir) / path).pathExists then
    return some (← outline path)
  else return none

/-- Milliseconds as seconds with two decimal places. -/
def seconds (milliseconds : Nat) : String :=
  let hundredths := (milliseconds + 5) / 10
  let places := Natural.digits (hundredths % 100)
  let padded := String.ofList (List.replicate (2 - places.length) '0' ++ places)
  s!"{hundredths / 100}.{padded}"

instance : Host Step where
  environment names := do
    let found ← names.mapM fun name => do return (name, ← IO.getEnv name)
    return found.filterMap fun v => v.2.map (v.1, ·)
  find path := find path
  openFile path := attempt (IO.FS.withFile path .read fun _ => pure ())
  readFile path := attempt (do return (← IO.FS.readBinFile path).toList)
  createFile path := attempt (writeContent path [])
  writeFile path content := attempt (writeContent path content)
  grammar := return RecordedTree.grammar (← read).trees
  print text := do IO.print text
  report text := do IO.eprint text
  elapsed := do return seconds ((← IO.monoMsNow) - (← read).started)

/-- The recorded trees that the environment names; none if it names no file that
can be read. -/
def loadTrees : IO (List RecordedTree) := do
  match ← IO.getEnv treesVariable with
  | none => return []
  | some path =>
    match ← EIO.toIO' (IO.FS.readBinFile path) with
    | .ok bytes => return RecordedTree.ofLines bytes.toList
    | .error _ => return []

end Session

end TokenAlignment

open TokenAlignment in
/-- Runs the program, and ends with its exit code. -/
def main (arguments : List String) : IO UInt32 := do
  let session : Session := ⟨← IO.monoMsNow, ← Session.loadTrees⟩
  (CommandLine.program arguments : Session.Step UInt32).run session
