/-
TokenAlignment/Corpus/Jsonl.lean

Corpora with one JSON record for each document:

    {"lang": "go", "content": "package main\n"}

Each line stands for itself.  A blank line is passed over; every other line gives
exactly one item, labelled by its number.  A line that is no record fails, and
one in an unsupported language is skipped, without effect on any other line.
-/
import TokenAlignment.Corpus.Item
import TokenAlignment.Json.Reader
import TokenAlignment.Text.Split

namespace TokenAlignment

namespace Jsonl

/-- The language name and the content that a JSON value describes. -/
def record? (v : Json) : Option (List Char × List Char) :=
  match v.fields? ["lang", "content"] with
  | some [.string (some lang), .string (some content)] => some (lang, content)
  | _ => none

/-- The reason of an item whose line is no record. -/
def malformed : String := "malformed record"

/-- The reason of an item whose line is no text. -/
def unreadable : String := "read failed: stream did not contain valid UTF-8"

/-- The item of a line of text. -/
def itemOfText (label : String) (text : List Char) : CorpusItem :=
  match (Json.ofText? text).bind record? with
  | none => ⟨label, .error (.failed malformed)⟩
  | some (name, content) =>
    match Language.parse (String.ofList name) with
    | .error e => ⟨label, .error (.skipped e.message)⟩
    | .ok lang => .ofContent label lang (Utf8.encode content)

/-- The label of a line. -/
def label (source : String) (line : Nat) : String :=
  s!"{source}:{line}"

/-- The item of a line, unless the line is blank. -/
def itemOfLine (source : String) (line : List UInt8) (number : Nat) : Option CorpusItem :=
  match Utf8.decode? line with
  | none => some ⟨label source number, .error (.failed unreadable)⟩
  | some text =>
    if Text.isBlankLine text then none else some (itemOfText (label source number) text)

/-- The items of a corpus. -/
def items (source : String) (bytes : List UInt8) : List CorpusItem :=
  ((Lines.ofBytes bytes).zipIdx 1).filterMap fun (line, number) => itemOfLine source line number

end Jsonl

end TokenAlignment
