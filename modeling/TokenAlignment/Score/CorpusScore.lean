/-
TokenAlignment/Score/CorpusScore.lean

The score of a corpus: merged metrics for each language, and the totals over all
of them.

A score starts with an empty record for every language.  One that was read from
a report may lack some; adding to a language brings its record back.  Nothing is
added whose totals do not fit.
-/
import TokenAlignment.Language
import TokenAlignment.Score.Metrics

namespace TokenAlignment

/-- Metrics for each language, with the totals of everything added. -/
structure CorpusScore (α : Type) where
  metrics : PerLanguage (Option (Metrics α))
  totalTokens : UInt64
  totalBytes : UInt64
  deriving DecidableEq, BEq, Repr

namespace CorpusScore

variable {α : Type} [Scalar α]

/-- The score of no documents. -/
def new : CorpusScore α :=
  ⟨.const (some .zero), 0, 0⟩

/-- The metrics of a language, if there is a record. -/
def get? (s : CorpusScore α) (lang : Language) : Option (Metrics α) :=
  s.metrics.get lang

/-- Merges metrics into the record of a language, if the totals fit. -/
def add? (s : CorpusScore α) (lang : Language) (m : Metrics α) : Option (CorpusScore α) := do
  let merged ← ((s.get? lang).getD .zero).merge? m
  let tokens ← Total.add? s.totalTokens m.totalTokens
  let bytes ← Total.add? s.totalBytes m.totalBytes
  return ⟨s.metrics.set lang (some merged), tokens, bytes⟩

/-- Adds some rows, one after another, if the totals fit. -/
def addAll? (s : CorpusScore α) (rows : List (Language × Metrics α)) : Option (CorpusScore α) :=
  rows.foldlM (fun s row => s.add? row.1 row.2) s

/-- The records of a score, in the order of the languages. -/
def entries (s : CorpusScore α) : List (Language × Metrics α) :=
  Language.all.filterMap fun lang => (s.get? lang).map (lang, ·)

/-- Adds every record of another score, if the totals fit. -/
def absorb? (s other : CorpusScore α) : Option (CorpusScore α) :=
  s.addAll? other.entries

/-- The records of the languages that got at least one byte. -/
def withData (s : CorpusScore α) : List (Language × Metrics α) :=
  s.entries.filter fun entry => 0 < entry.2.totalBytes

/-- The distances between all pairs of numbers. -/
def pairDistances : List α → List α
  | [] => []
  | a :: rest => rest.map (Scalar.distance a) ++ pairDistances rest

/-- How far apart the compressions of two languages with data lie, on average
over all pairs; zero without a pair. -/
def compressionParity (s : CorpusScore α) : α :=
  let distances := pairDistances (s.withData.map fun entry => entry.2.compression)
  if distances.isEmpty then 0
  else distances.foldl (· + ·) 0 / Scalar.ofCount distances.length

end CorpusScore

end TokenAlignment
