/-
TokenAlignment/Tokenizer/CharOffsets.lean

Tokenizers that report, for each token, the range of characters it came from.

Ranges may repeat, overlap, or leave out characters.  The tokens still cover
the text: each one takes the bytes between the furthest character used so far
and the end of its own range, and none if its range ends before that.
-/
import TokenAlignment.Tokenizer.Basic

namespace TokenAlignment

/-- What an offset encoder reports for one text: how many tokens it made, and
the range of characters of each. -/
structure CharEncoding where
  tokenCount : Nat
  offsets : List (Nat × Nat)

/-- An encoder that reports ranges of characters. -/
structure OffsetEncoder where
  name : String
  encode : List Char → Except TokenizerError CharEncoding
  /-- The bytes of every regular entry; empty if the vocabulary is open. -/
  vocabulary : List (List UInt8)

namespace CharOffsets

/-- The byte offset of every character boundary of a text, the end included. -/
def boundaries (text : List Char) : Array Nat :=
  text.foldl (fun found c => found.push (found.back?.getD 0 + (Utf8.encodeChar c).length)) #[0]

/-- The spans of some ranges after spans (newest first) that use up the
characters before `charEnd` and the bytes before `byteEnd`; with them the offset
after the last span. -/
def spansOnto (bounds : Array Nat) (done : List Span) (charEnd byteEnd : Nat) :
    List (Nat × Nat) → Except TokenizerError (List Span × Nat)
  | [] => .ok (done.reverse, byteEnd)
  | (start, stop) :: ranges =>
    match bounds[start]?, bounds[stop]? with
    | some _, some stopByte =>
      let width := if charEnd < stop then stopByte - bounds.getD charEnd 0 else 0
      match Span.ofRange? byteEnd (byteEnd + width) with
      | .error e => .error (.span e)
      | .ok span => spansOnto bounds (span :: done) (max charEnd stop) (byteEnd + width) ranges
    | _, _ => .error (.violation (.outsideText start stop (bounds.size - 1)))

/-- The spans of ranges of characters of a text. -/
def spans (text : List Char) (ranges : List (Nat × Nat)) : Except TokenizerError (List Span) :=
  let bounds := boundaries text
  match spansOnto bounds [] 0 0 ranges with
  | .error e => .error e
  | .ok (found, byteEnd) =>
    let length := bounds.back?.getD 0
    if byteEnd = length then .ok found else .error (.violation (.mappingEndsAt byteEnd length))

end CharOffsets

namespace OffsetEncoder

/-- The tokens of a document. -/
def spans (e : OffsetEncoder) (document : Document) : Except TokenizerError (List Span) :=
  match document.fullText with
  | .error error => .error (.decode error)
  | .ok text =>
    match e.encode text with
    | .error error => .error error
    | .ok encoding =>
      if encoding.offsets.length = encoding.tokenCount then
        CharOffsets.spans text encoding.offsets
      else .error (.violation (.offsetCount encoding.offsets.length encoding.tokenCount))

/-- The encoder as a tokenizer; it has no memory of its own. -/
def tokenizer (σ : Type) (e : OffsetEncoder) : Tokenizer σ where
  name := e.name
  tokenize document memory := (e.spans document, memory)
  vocabulary := e.vocabulary

end OffsetEncoder

end TokenAlignment
