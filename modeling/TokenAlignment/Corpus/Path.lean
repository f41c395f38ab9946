/-
TokenAlignment/Corpus/Path.lean

Paths of files, as users write them.

A path is a text with slashes between names.  Its parts are the names without
empty ones, and without the dots that stand for the place they are in.
-/
import TokenAlignment.Text.Split

namespace TokenAlignment

/-- A path as it was written. -/
abbrev FilePath : Type :=
  String

namespace FilePath

/-- Whether the path starts at the root. -/
def isAbsolute (p : FilePath) : Bool :=
  p.toList.head? = some '/'

/-- The parts of the path between its slashes, from the left. -/
def parts (p : FilePath) : List (List Char) :=
  (Text.fields '/' p.toList).filter fun part => !part.isEmpty

/-- The names of the path, from the left. -/
def names (p : FilePath) : List String :=
  (p.parts.filter (· ≠ ['.'])).map String.ofList

/-- Whether the last part of the path is a dot that stands for a place. -/
def endsInDot (p : FilePath) : Bool :=
  p.parts.getLast? = some ['.']

/-- Whether the path can only mean a directory: it ends in a slash or in a dot
that stands for a place. -/
def endsInDirectory (p : FilePath) : Bool :=
  p.endsInDot || p.toList.getLast? = some '/'

/-- The path of an entry of a directory. -/
def child (p : FilePath) (name : String) : FilePath :=
  if p.isEmpty || p.toList.getLast? = some '/' then p ++ name else p ++ "/" ++ name

/-- The last name of the path, unless the path ends by going up. -/
def fileName? (p : FilePath) : Option String :=
  p.names.getLast?.bind fun n => if n = ".." then none else some n

/-- What follows the last dot of a name; nothing if there is none but at its
start. -/
def extensionOf? (name : String) : Option String :=
  match (Text.fields '.' name.toList).reverse with
  | last :: first :: rest =>
    if first.isEmpty && rest.isEmpty then none else some (String.ofList last)
  | _ => none

/-- The extension of the last name of the path. -/
def extension? (p : FilePath) : Option String :=
  p.fileName?.bind extensionOf?

end FilePath

end TokenAlignment
