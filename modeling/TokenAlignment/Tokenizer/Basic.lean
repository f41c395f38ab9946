/-
TokenAlignment/Tokenizer/Basic.lean

Tokenizers, seen as producers of byte ranges, and the contract they keep: the
tokens of a document are in order, and each starts where the one before it
stops, from the first byte to the last.  Empty tokens may stand anywhere.

A tokenizer may learn from the texts it sees, so `tokenize` takes what was
learned before and gives what is known after.
-/
import TokenAlignment.Tokenizer.Error

namespace TokenAlignment

/-- A tokenizer whose memory is a `σ`. -/
structure Tokenizer (σ : Type) where
  /-- The name in messages. -/
  name : String
  /-- The tokens and the memory after a document. -/
  tokenize : Document → σ → Except TokenizerError (List Span) × σ
  /-- The bytes of every regular entry; empty if the vocabulary is open. -/
  vocabulary : List (List UInt8)

/-! ### The cover contract -/

/-- Checks tokens from number `index` on, the first of which is to start at
`expected`. -/
def checkCoverFrom (length index expected : Nat) : List Span → Except CoverViolation Unit
  | [] => if expected = length then .ok () else .error (.endsAt expected length)
  | token :: tokens =>
    if token.start = expected then checkCoverFrom length (index + 1) token.stop tokens
    else .error (.startsAt index token.start expected)

/-- Checks that tokens cover the bytes `0 ≤ i < length` in order. -/
def checkCover (tokens : List Span) (length : Nat) : Except CoverViolation Unit :=
  checkCoverFrom length 0 0 tokens

end TokenAlignment
