/-
TokenAlignment/Score/Metrics.lean

The metrics of a document, or of any collection of documents, and their average
by bytes.

Each metric of a merged record is the mean of the two, weighted by the bytes of
each; the totals are added, and records whose totals do not fit a word together
are not merged at all.  Records without bytes weigh nothing: two of them give zero
in every metric.
-/
import TokenAlignment.Score.Scalar
import TokenAlignment.Score.Total

namespace TokenAlignment

/-- The scores of a document or of a collection of documents. -/
structure Metrics (α : Type) where
  /-- Bytes for each token. -/
  compression : α
  /-- Tokens for each identifier. -/
  identifierFertility : α
  /-- Mean similarity of clipped identifier splits. -/
  identifierSplitting : α
  /-- Mean similarity of raw identifier splits. -/
  rawIdentifierSplitting : α
  /-- Syntax tokens that a token overlaps. -/
  tokenSpan : α
  totalTokens : UInt64
  totalBytes : UInt64
  deriving DecidableEq, BEq, Repr

namespace Metrics

variable {α : Type} [Scalar α]

/-- The record of no documents, with given totals. -/
def blank (totalTokens totalBytes : UInt64) : Metrics α :=
  ⟨0, 0, 0, 0, 0, totalTokens, totalBytes⟩

/-- The record of no documents. -/
def zero : Metrics α :=
  blank 0 0

/-- The mean of two numbers with weights, where `total` is the joint weight. -/
def weightedMean (total weightA weightB : Nat) (a b : α) : α :=
  (a * Scalar.ofCount weightA + b * Scalar.ofCount weightB) / Scalar.ofCount total

/-- The averages of both records, with given totals for the two together. -/
def average (a b : Metrics α) (tokens bytes : UInt64) : Metrics α :=
  if bytes = 0 then blank tokens bytes
  else
    let mean : α → α → α :=
      weightedMean bytes.toNat a.totalBytes.toNat b.totalBytes.toNat
    { compression := mean a.compression b.compression
      identifierFertility := mean a.identifierFertility b.identifierFertility
      identifierSplitting := mean a.identifierSplitting b.identifierSplitting
      rawIdentifierSplitting := mean a.rawIdentifierSplitting b.rawIdentifierSplitting
      tokenSpan := mean a.tokenSpan b.tokenSpan
      totalTokens := tokens
      totalBytes := bytes }

/-- The record of the documents of both records, if their totals fit. -/
def merge? (a b : Metrics α) : Option (Metrics α) := do
  let bytes ← Total.add? a.totalBytes b.totalBytes
  let tokens ← Total.add? a.totalTokens b.totalTokens
  return a.average b tokens bytes

/-- Some records, merged one after another, if their totals fit. -/
def mergeAll? (records : List (Metrics α)) : Option (Metrics α) :=
  records.foldlM merge? zero

end Metrics

end TokenAlignment
