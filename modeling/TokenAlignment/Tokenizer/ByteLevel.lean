/-
TokenAlignment/Tokenizer/ByteLevel.lean

Tokenizers that encode a text into ids, each of which stands for fixed bytes.

The bytes of all ids, put together, are to be the text again, so the tokens are
found by adding up lengths:

    token i  =  from  |b₀| + … + |bᵢ₋₁|  to  |b₀| + … + |bᵢ|
-/
import TokenAlignment.Tokenizer.Basic

namespace TokenAlignment

/-- An encoder of texts into ids, with a memory `σ`. -/
structure ByteEncoder (σ : Type) where
  name : String
  /-- The ids of a text and the memory after it. -/
  encode : List Char → σ → Except TokenizerError (List UInt32) × σ
  /-- The bytes that an id stands for. -/
  tokenBytes : σ → UInt32 → Option (List UInt8)
  /-- The bytes of every regular id; empty if the vocabulary is open. -/
  vocabulary : List (List UInt8)

namespace ByteEncoder

/-- The tokens of some ids after tokens that stop at `offset` (newest first),
and the offset after the last. -/
def spansOnto (tokenBytes : UInt32 → Option (List UInt8)) (done : List Span) (offset : Nat) :
    List UInt32 → Except TokenizerError (List Span × Nat)
  | [] => .ok (done.reverse, offset)
  | id :: ids =>
    match tokenBytes id with
    | none => .error (.violation (.unknownId id))
    | some bytes =>
      match Span.ofRange? offset (offset + bytes.length) with
      | .error e => .error (.span e)
      | .ok span => spansOnto tokenBytes (span :: done) (offset + bytes.length) ids

/-- The tokens of the ids of a document with `length` bytes. -/
def spans (tokenBytes : UInt32 → Option (List UInt8)) (length : Nat) (ids : List UInt32) :
    Except TokenizerError (List Span) :=
  match spansOnto tokenBytes [] 0 ids with
  | .error e => .error e
  | .ok (tokens, decoded) =>
    if decoded = length then .ok tokens else .error (.violation (.decodesTo decoded length))

/-- The tokens of a document, and the memory after it. -/
def tokenize {σ : Type} (e : ByteEncoder σ) (document : Document) (memory : σ) :
    Except TokenizerError (List Span) × σ :=
  match document.fullText with
  | .error error => (.error (.decode error), memory)
  | .ok text =>
    match e.encode text memory with
    | (.error error, memory') => (.error error, memory')
    | (.ok ids, memory') => (spans (e.tokenBytes memory') document.length ids, memory')

/-- The encoder as a tokenizer. -/
def tokenizer {σ : Type} (e : ByteEncoder σ) : Tokenizer σ where
  name := e.name
  tokenize := e.tokenize
  vocabulary := e.vocabulary

end ByteEncoder

/-! ### One token for each byte -/

/-- The encoder whose ids are the bytes themselves.  It is the baseline of every
comparison: a token holds exactly one byte. -/
def byteEncoder (σ : Type) : ByteEncoder σ where
  name := "bytes"
  encode text memory := (.ok ((Utf8.encode text).map fun b => b.toNat.toUInt32), memory)
  tokenBytes _ id := if id.toNat < 256 then some [id.toUInt8] else none
  vocabulary := (List.range 256).map fun n => [n.toUInt8]

end TokenAlignment
