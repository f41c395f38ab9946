/-
TokenAlignment/Corpus/Discovery.lean

The source files of a directory tree.

A file counts if its extension tells a language.  Hidden entries are left out
with all below them, and so are directories with build output or dependencies.
The files come in the order of their paths, name by name, whatever the order in
which a directory lists its entries.
-/
import TokenAlignment.Corpus.Path
import TokenAlignment.Language

namespace TokenAlignment

/-- What is found at a path: a file, or a directory with its entries. -/
inductive DirTree where
  | file
  | directory (entries : List (String × DirTree))

/-- A source file: its path, and the language that its extension tells. -/
structure SourceFile where
  path : FilePath
  language : Language
  deriving DecidableEq, Repr

namespace Discovery

/-- The language that the extension of a name tells. -/
def languageOf? (name : String) : Option Language :=
  (FilePath.extensionOf? name).bind Language.ofExtension?

/-- Whether an entry is hidden. -/
def isHidden (name : String) : Bool :=
  name.toList.head? = some '.'

/-- The directories whose content is not source text of the project. -/
def skippedDirectories : List String :=
  ["target", "node_modules", "__pycache__", "vendor", "build", "dist"]

mutual

/-- The source files at an entry, by the names that lead to them. -/
def filesAt (name : String) : DirTree → List (List String × Language)
  | .file =>
    match languageOf? name with
    | some lang => [([name], lang)]
    | none => []
  | .directory entries =>
    if skippedDirectories.contains name then []
    else (filesBelow entries).map fun f => (name :: f.1, f.2)

/-- The source files at some entries, by the names that lead to them. -/
def filesBelow : List (String × DirTree) → List (List String × Language)
  | [] => []
  | (name, t) :: entries =>
    (if isHidden name then [] else filesAt name t) ++ filesBelow entries

end

/-- The order of lists of names: by the first names that differ, and a beginning
before the whole. -/
def compareNames : List String → List String → Ordering
  | [], [] => .eq
  | [], _ :: _ => .lt
  | _ :: _, [] => .gt
  | a :: as, b :: bs => (compare a b).then (compareNames as bs)

/-- The path of a file below a directory. -/
def pathBelow (root : FilePath) (names : List String) : FilePath :=
  names.foldl FilePath.child root

/-- The source files that a path leads to: those below a directory in the order
of their paths, or the file itself. -/
def sources (root : FilePath) : DirTree → List SourceFile
  | .file =>
    match root.extension?.bind Language.ofExtension? with
    | some lang => [⟨root, lang⟩]
    | none => []
  | .directory entries =>
    ((filesBelow entries).mergeSort fun a b => (compareNames a.1 b.1).isLE).map fun f =>
      ⟨pathBelow root f.1, f.2⟩

end Discovery

end TokenAlignment
