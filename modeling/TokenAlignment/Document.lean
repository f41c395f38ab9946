/-
TokenAlignment/Document.lean

Documents: the bytes of one source text and its language.

A span is read relative to exactly one document, and the readers here are the
only place where a span becomes bytes or text again.  A document is short
enough for every offset in it to fit a span.
-/
import TokenAlignment.Language
import TokenAlignment.Span
import TokenAlignment.Text.Utf8

namespace TokenAlignment

/-- Why a span is not the text of a document. -/
inductive DecodeError where
  | invalidUtf8 (span : Span) (validUpTo : Nat)
  | outOfBounds (span : Span) (length : Nat)
  deriving DecidableEq, Repr

namespace DecodeError

/-- The wording of the error. -/
def message : DecodeError → String
  | invalidUtf8 span validUpTo =>
    s!"bytes {span} are not valid UTF-8 (valid up to byte {validUpTo} of the slice)"
  | outOfBounds span length => s!"span {span} lies outside a document of {length} bytes"

end DecodeError

/-- Content too long for the offsets of spans. -/
structure DocumentTooLarge where
  length : Nat
  deriving DecidableEq, Repr

namespace DocumentTooLarge

/-- The wording of the error. -/
def message (e : DocumentTooLarge) : String :=
  s!"document of {e.length} bytes exceeds the 4 GiB span limit"

end DocumentTooLarge

/-- The bytes of a source text and its language. -/
structure Document where
  language : Language
  content : Array UInt8
  size_le : content.size ≤ maxOffset

namespace Document

/-- The document with this content, if it is not too long. -/
def ofContent? (language : Language) (content : List UInt8) :
    Except DocumentTooLarge Document :=
  if h : content.toArray.size ≤ maxOffset then .ok ⟨language, content.toArray, h⟩
  else .error ⟨content.length⟩

/-- The number of bytes. -/
def length (d : Document) : Nat :=
  d.content.size

/-- The span of the whole document. -/
def fullSpan (d : Document) : Span :=
  ⟨0, d.length, Nat.zero_le _⟩

/-- The bytes of a span. -/
def bytes (d : Document) (span : Span) : Except DecodeError (List UInt8) :=
  if span.stop ≤ d.length then .ok (d.content.extract span.start span.stop).toList
  else .error (.outOfBounds span d.length)

/-- The text that the bytes of a span spell; the span serves to report where
they do not. -/
def textOf (span : Span) (bytes : List UInt8) : Except DecodeError (List Char) :=
  match Utf8.decode? bytes with
  | some text => .ok text
  | none => .error (.invalidUtf8 span (Utf8.validUpTo bytes))

/-- The text of a span. -/
def text (d : Document) (span : Span) : Except DecodeError (List Char) :=
  (d.bytes span).bind (textOf span)

/-- The text of the whole document. -/
def fullText (d : Document) : Except DecodeError (List Char) :=
  textOf d.fullSpan d.content.toList

/-- The characters that lie in a span as a whole; none if the span leaves the
document. -/
def visibleText (d : Document) (span : Span) : List Char :=
  match d.bytes span with
  | .ok bytes => Utf8.decodeLossy bytes
  | .error _ => []

end Document

end TokenAlignment
