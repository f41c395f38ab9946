/-
TokenAlignment/Tokenizer/Error.lean

What can go wrong between a document and the tokens of a tokenizer.

Every error concerns the one document being tokenized.
-/
import TokenAlignment.Document

namespace TokenAlignment

/-- How the output of a tokenizer fails to cover its document. -/
inductive CoverViolation where
  /-- A token does not start where the one before it stops. -/
  | startsAt (index start expected : Nat)
  /-- The last token does not stop at the end of the document. -/
  | endsAt (stop length : Nat)
  /-- A token id stands for no bytes. -/
  | unknownId (id : UInt32)
  /-- The bytes of all token ids are more or fewer than those of the document. -/
  | decodesTo (decoded length : Nat)
  /-- There is not one range of characters for each token. -/
  | offsetCount (offsets tokens : Nat)
  /-- A range of characters leaves the text. -/
  | outsideText (start stop characters : Nat)
  /-- The ranges of characters do not reach the end of the text. -/
  | mappingEndsAt (stop length : Nat)
  deriving DecidableEq, Repr

namespace CoverViolation

/-- The wording of the violation. -/
def message : CoverViolation → String
  | startsAt index start expected =>
    s!"token {index} starts at byte {start}, expected {expected}"
  | endsAt stop length => s!"tokens end at byte {stop}, document has {length} bytes"
  | unknownId id => s!"token id {id} has no byte decoding"
  | decodesTo decoded length => s!"decoded tokens span {decoded} bytes, document has {length}"
  | offsetCount offsets tokens => s!"{offsets} offsets for {tokens} tokens"
  | outsideText start stop characters =>
    s!"character range {start}..{stop} lies outside a text of {characters} characters"
  | mappingEndsAt stop length =>
    s!"offset mapping ends at byte {stop}, text has {length} bytes"

end CoverViolation

/-- Why a document has no tokens. -/
inductive TokenizerError where
  /-- The content is not UTF-8. -/
  | decode (error : DecodeError)
  /-- The output does not cover the document. -/
  | violation (violation : CoverViolation)
  /-- An offset does not fit a span. -/
  | span (error : SpanError)
  /-- The tokenizer itself failed. -/
  | backend (name reason : String)
  deriving DecidableEq, Repr

namespace TokenizerError

/-- The wording of the error. -/
def message : TokenizerError → String
  | decode error => error.message
  | violation v => s!"adapter contract violation: {v.message}"
  | span error => error.message
  | backend name reason => s!"tokenizer `{name}` failed: {reason}"

end TokenizerError

end TokenAlignment
