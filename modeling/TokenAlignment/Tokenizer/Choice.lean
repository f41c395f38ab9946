/-
TokenAlignment/Tokenizer/Choice.lean

The tokenizers that a user can name: `bytes`, `pretoken`, and `hf:` with the
path of a tokenizer description, which this program cannot load.
-/
import TokenAlignment.Tokenizer.PieceTable

namespace TokenAlignment

/-- Which tokenizer to evaluate. -/
inductive TokenizerChoice where
  | bytes
  | pretoken
  /-- The tokenizer described by a file. -/
  | described (path : String)
  deriving DecidableEq, Repr

/-- Why there is no tokenizer to evaluate. -/
inductive TokenizerChoiceError where
  | unknown (name : String)
  | unavailable (choice : String)
  deriving DecidableEq, Repr

namespace TokenizerChoiceError

/-- The wording of the error. -/
def message : TokenizerChoiceError → String
  | unknown name =>
    s!"unknown tokenizer `{name}` (expected `bytes`, `pretoken` or `hf:<tokenizer.json>`)"
  | unavailable choice => s!"tokenizer `{choice}` needs the `huggingface` feature"

end TokenizerChoiceError

namespace TokenizerChoice

/-- The tokenizer with this name. -/
def parse (name : String) : Except TokenizerChoiceError TokenizerChoice :=
  if name = "bytes" then .ok bytes
  else if name = "pretoken" then .ok pretoken
  else
    match name.toList with
    | 'h' :: 'f' :: ':' :: c :: cs => .ok (described (String.ofList (c :: cs)))
    | _ => .error (.unknown name)

/-- The name that gives this choice. -/
def render : TokenizerChoice → String
  | bytes => "bytes"
  | pretoken => "pretoken"
  | described path => s!"hf:{path}"

/-- The chosen tokenizer. -/
def load : TokenizerChoice → Except TokenizerChoiceError (Tokenizer PieceTable)
  | bytes => .ok (byteEncoder PieceTable).tokenizer
  | pretoken => .ok pretokenEncoder.tokenizer
  | described path => .error (.unavailable (described path).render)

end TokenizerChoice

end TokenAlignment
