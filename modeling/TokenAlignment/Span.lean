/-
TokenAlignment/Span.lean

Half-open byte ranges over the content of a document.

Everything that is cut out of a document is a span: the tokens of a tokenizer,
and with a kind attached the tokens of a syntax tree.  A span never ends before
it starts, and its type says so.

    a.overlaps b = b.overlaps a
    a.intersect? b = some s   only for   s.start < s.stop
-/
import TokenAlignment.Decimal.Natural

namespace TokenAlignment

/-- The greatest offset that a span may reach. -/
def maxOffset : Nat := 0xFFFFFFFF

/-- The bytes at the offsets `start ≤ i < stop`. -/
structure Span where
  start : Nat
  stop : Nat
  start_le_stop : start ≤ stop
  deriving DecidableEq, Repr

/-- Why two offsets do not make a span. -/
inductive SpanError where
  | startTooLarge (offset : Nat)
  | endTooLarge (offset : Nat)
  | inverted (start stop : Nat)
  deriving DecidableEq, Repr

namespace SpanError

/-- An offset in decimal and hexadecimal, next to the greatest one allowed. -/
def describe (what : String) (offset : Nat) : String :=
  let hex (n : Nat) := String.ofList (Natural.hexDigits n)
  s!"span {what} {offset} (0x{hex offset}) exceeds u32::MAX (0x{hex maxOffset})"

/-- The wording of the error. -/
def message : SpanError → String
  | startTooLarge offset => describe "start" offset
  | endTooLarge offset => describe "end" offset
  | inverted start stop => s!"span start {start} lies after span end {stop}"

end SpanError

namespace Span

/-- The span between two offsets in order. -/
def ofOffsets? (start stop : Nat) : Except SpanError Span :=
  if h : start ≤ stop then .ok ⟨start, stop, h⟩ else .error (.inverted start stop)

/-- The span between two offsets in order, none of them too large. -/
def ofRange? (start stop : Nat) : Except SpanError Span :=
  if h : start ≤ stop then
    if maxOffset < start then .error (.startTooLarge start)
    else if maxOffset < stop then .error (.endTooLarge stop)
    else .ok ⟨start, stop, h⟩
  else .error (.inverted start stop)

/-- The number of bytes. -/
def length (s : Span) : Nat :=
  s.stop - s.start

/-- Whether the span holds no byte. -/
def isEmpty (s : Span) : Bool :=
  s.start = s.stop

/-- Whether every byte of `other` is one of `s`, and its ends lie between those
of `s`. -/
def contains (s other : Span) : Bool :=
  s.start ≤ other.start && other.stop ≤ s.stop

/-- Whether each span starts before the other ends.  Spans that only touch do
not overlap. -/
def overlaps (s other : Span) : Bool :=
  s.start < other.stop && other.start < s.stop

/-- The bytes that two spans share, if they share any. -/
def intersect? (s bounds : Span) : Option Span :=
  let start := max s.start bounds.start
  let stop := min s.stop bounds.stop
  if h : start < stop then some ⟨start, stop, Nat.le_of_lt h⟩ else none

/-- The order of spans: by start, then by end. -/
def compare (a b : Span) : Ordering :=
  (Ord.compare a.start b.start).then (Ord.compare a.stop b.stop)

/-- Both offsets, with two points between them. -/
def render (s : Span) : String :=
  s!"{s.start}..{s.stop}"

instance : ToString Span := ⟨render⟩

theorem ofRange?_eq_ok {start stop : Nat} (h : start ≤ stop) (hs : stop ≤ maxOffset) :
    ofRange? start stop = .ok ⟨start, stop, h⟩ := by
  simp [ofRange?, h, Nat.not_lt.2 hs, Nat.not_lt.2 (Nat.le_trans h hs)]

end Span

/-! ### Tokens with a kind -/

/-- The kind of the tokens that fill the gaps between the leaves of a tree. -/
def unknownKind : String := "unknown"

/-- A span with the kind of the syntax node that it stems from. -/
structure SyntaxToken where
  span : Span
  kind : String
  deriving DecidableEq, Repr

namespace SyntaxToken

/-- The token of bytes that no leaf covers. -/
def unknown (span : Span) : SyntaxToken :=
  ⟨span, unknownKind⟩

/-- Whether the token has the kind of a gap. -/
def isUnknown (t : SyntaxToken) : Bool :=
  t.kind == unknownKind

end SyntaxToken

end TokenAlignment
