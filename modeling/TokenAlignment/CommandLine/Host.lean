/-
TokenAlignment/CommandLine/Host.lean

What a command needs from the machine it runs on: files, two streams, an
environment, a clock, and a parser for each language.

A command is written over any `Host`, so that it can be run on a real machine
and on a workspace that is nothing but a value.
-/
import TokenAlignment.Corpus.Discovery
import TokenAlignment.Syntax.Tree

namespace TokenAlignment

/-- Why a file cannot be used. -/
inductive IoError where
  | notFound
  | notDirectory
  | isDirectory
  | noSpace
  | nameTooLong
  /-- The content is not UTF-8. -/
  | notText
  | other (reason : String)
  deriving DecidableEq, Repr

namespace IoError

/-- The wording of the error. -/
def message : IoError → String
  | notFound => "No such file or directory (os error 2)"
  | notDirectory => "Not a directory (os error 20)"
  | isDirectory => "Is a directory (os error 21)"
  | noSpace => "No space left on device (os error 28)"
  | nameTooLong => "File name too long (os error 36)"
  | notText => "stream did not contain valid UTF-8"
  | other reason => reason

end IoError

/-- A machine whose operations are steps of `m`. -/
class Host (m : Type → Type) where
  /-- The variables among some names that are set, with their values. -/
  environment : List String → m (List (String × String))
  /-- What is found at a path. -/
  find : FilePath → m (Option DirTree)
  /-- Whether a file can be opened for reading. -/
  openFile : FilePath → m (Except IoError Unit)
  readFile : FilePath → m (Except IoError (List UInt8))
  /-- Makes a file empty, and brings it about if need be. -/
  createFile : FilePath → m (Except IoError Unit)
  /-- Replaces the content of a file, and brings it about if need be. -/
  writeFile : FilePath → List UInt8 → m (Except IoError Unit)
  /-- The tree that the grammar of a language gives for a content. -/
  grammar : m (Language → Array UInt8 → Option SyntaxTree)
  /-- Writes to the stream for results. -/
  print : String → m Unit
  /-- Writes to the stream for messages. -/
  report : String → m Unit
  /-- The seconds since the command started, with two decimal places. -/
  elapsed : m String

/-! ### Failures -/

/-- Why a command ends early: what could not be done, and what stands behind it,
outermost first. -/
structure Failure where
  message : String
  causes : List String
  deriving DecidableEq, Repr

namespace Failure

/-- A text whose lines after the first stand behind `indent`. -/
def indentLines (indent : String) (text : String) : List Char :=
  ('\n' :: indent.toList).intercalate (Text.fields '\n' text.toList)

/-- The line of the only cause. -/
def causeLine (cause : String) : List Char :=
  "\n    ".toList ++ indentLines "    " cause

/-- The line of one of several causes. -/
def numberedLine (cause : String × Nat) : List Char :=
  let number := Natural.digits cause.2
  '\n' :: (List.replicate (5 - number.length) ' ' ++ number ++ ": ".toList ++
    indentLines "       " cause.1)

/-- The causes, numbered if there are several. -/
def causeLines : List String → List Char
  | [cause] => causeLine cause
  | causes => (causes.zipIdx).flatMap numberedLine

/-- The failure for readers. -/
def render (f : Failure) : String :=
  if f.causes.isEmpty then s!"Error: {f.message}\n"
  else s!"Error: {f.message}\n\nCaused by:{String.ofList (causeLines f.causes)}\n"

end Failure

end TokenAlignment
