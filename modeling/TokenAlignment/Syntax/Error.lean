/-
TokenAlignment/Syntax/Error.lean

What can go wrong between a document and the tokens of its syntax tree.
-/
import TokenAlignment.Deadline
import TokenAlignment.Language
import TokenAlignment.Span

namespace TokenAlignment

/-- Why a document has no syntax tokens. -/
inductive SyntaxError where
  /-- No grammar is configured for the language. -/
  | missingGrammar (lang : Language)
  /-- The parser gave up without a tree. -/
  | noTree (lang : Language)
  /-- A node has a byte range that is no span. -/
  | span (error : SpanError)
  | timeout
  deriving DecidableEq, Repr

namespace SyntaxError

/-- The wording of the error. -/
def message : SyntaxError → String
  | missingGrammar lang => s!"no grammar configured for {lang}"
  | noTree lang => s!"parser produced no tree for a {lang} document"
  | span error => s!"node byte range is not a valid span: {error.message}"
  | timeout => Timeout.message ⟨⟩

/-- The error and the errors behind it, outermost first. -/
def chain (e : SyntaxError) : List String :=
  match e with
  | span error => [e.message, error.message]
  | _ => [e.message]

/-- Asks a deadline on behalf of a syntax task. -/
def checkDeadline (deadline : Deadline) : Except SyntaxError Unit :=
  deadline.check.mapError fun _ => timeout

end SyntaxError

end TokenAlignment
