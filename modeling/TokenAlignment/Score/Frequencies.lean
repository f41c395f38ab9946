/-
TokenAlignment/Score/Frequencies.lean

How often each piece occurs as a token, over a corpus.

A table counts pieces by their bytes.  Entries of a known vocabulary can be put
in with count zero, so that the ones that never occur are seen too.  A table
holds nothing but counts: tables with the same counts are equal, however they
were filled.  No table has a count or a total that does not fit a word.
-/
import Std.Data.ExtTreeMap
import TokenAlignment.Document
import TokenAlignment.Score.Scalar
import TokenAlignment.Score.Total

namespace TokenAlignment

/-- Counts by piece, and the number of tokens counted. -/
structure TokenFrequencies where
  counts : Std.ExtTreeMap (List UInt8) UInt64
  total : UInt64

/-- A piece and how often it occurred. -/
structure PieceCount where
  piece : List Char
  count : UInt64
  deriving DecidableEq, Repr

/-- The headline numbers of a table. -/
structure FrequencySummary (α : Type) where
  totalTokens : UInt64
  /-- Pieces that occurred. -/
  uniquePieces : Nat
  /-- Pieces of the vocabulary that did not. -/
  neverOccurring : Nat
  averageOccurrences : α
  /-- How many pieces occurred once, twice, three and four times. -/
  occurringExactly : List Nat
  rarest : List PieceCount
  mostFrequent : List PieceCount

namespace TokenFrequencies

/-- The table of no tokens. -/
def empty : TokenFrequencies :=
  ⟨∅, 0⟩

/-- Raises the count of a piece, from zero if it has none. -/
def raise? (counts : Std.ExtTreeMap (List UInt8) UInt64) (piece : List UInt8) (more : UInt64) :
    Option (Std.ExtTreeMap (List UInt8) UInt64) :=
  (Total.add? (counts[piece]?.getD 0) more).map (counts.insert piece)

/-- Raises the counts of some entries, one after another. -/
def raiseAll? (counts : Std.ExtTreeMap (List UInt8) UInt64)
    (entries : List (List UInt8 × UInt64)) : Option (Std.ExtTreeMap (List UInt8) UInt64) :=
  entries.foldlM (fun counts entry => raise? counts entry.1 entry.2) counts

/-- Counts one token with these bytes. -/
def addPiece? (f : TokenFrequencies) (piece : List UInt8) : Option TokenFrequencies := do
  let counts ← raise? f.counts piece 1
  let total ← Total.add? f.total 1
  return ⟨counts, total⟩

/-- Counts a token of a document; one outside the document is left out. -/
def addToken? (document : Document) (f : TokenFrequencies) (token : Span) :
    Option TokenFrequencies :=
  match document.bytes token with
  | .ok piece => f.addPiece? piece
  | .error _ => some f

/-- Counts the tokens of a document. -/
def addDocument? (f : TokenFrequencies) (document : Document) (tokens : List Span) :
    Option TokenFrequencies :=
  tokens.foldlM (addToken? document) f

/-- Adds the counts of another table. -/
def merge? (f other : TokenFrequencies) : Option TokenFrequencies := do
  let counts ← raiseAll? f.counts other.counts.toList
  let total ← Total.add? f.total other.total
  return ⟨counts, total⟩

/-- Puts in the pieces of a vocabulary that are not there yet, with count
zero. -/
def seed (f : TokenFrequencies) (vocabulary : List (List UInt8)) : TokenFrequencies :=
  ⟨vocabulary.foldl (fun counts piece => counts.insertIfNew piece 0) f.counts, f.total⟩

/-- How often a piece occurred. -/
def count (f : TokenFrequencies) (piece : List UInt8) : UInt64 :=
  f.counts[piece]?.getD 0

/-- The number of distinct pieces that occurred. -/
def unique (f : TokenFrequencies) : Nat :=
  (f.counts.values.filter (0 < ·)).length

/-- The number of pieces in the table that did not occur. -/
def neverOccurring (f : TokenFrequencies) : Nat :=
  (f.counts.values.filter (· = 0)).length

/-- The pieces that occurred, by count and those of one count by their bytes. -/
def ascending (f : TokenFrequencies) : List (List UInt8 × UInt64) :=
  (f.counts.toList.filter fun entry => 0 < entry.2).mergeSort fun a b => a.2 ≤ b.2

/-- An entry of the table for readers: bytes that are no characters are left
out. -/
def readable (entry : List UInt8 × UInt64) : PieceCount :=
  ⟨Utf8.decodeLossy entry.1, entry.2⟩

/-- The headline numbers, with the `n` rarest and the `n` most frequent
pieces. -/
def summary (α : Type) [Scalar α] (f : TokenFrequencies) (n : Nat) : FrequencySummary α :=
  let sorted := f.ascending
  { totalTokens := f.total
    uniquePieces := sorted.length
    neverOccurring := f.counts.size - sorted.length
    averageOccurrences := Scalar.ratio α f.total.toNat sorted.length
    occurringExactly :=
      [1, 2, 3, 4].map fun k => (sorted.filter fun entry => entry.2 = k).length
    rarest := (sorted.take n).map readable
    mostFrequent := (sorted.reverse.take n).map readable }

end TokenFrequencies

end TokenAlignment
