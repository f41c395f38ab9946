/-
TokenAlignment/Run/Outcome.lean

What becomes of the documents of a corpus, and the summary of a run.

Every document ends in exactly one of four ways, and the summary counts each:

    scored + skipped + failed + timed out  =  documents
-/
import TokenAlignment.Score.CorpusScore

namespace TokenAlignment

/-- What became of one document. -/
inductive Outcome (α : Type) where
  | scored (metrics : Metrics α)
  /-- Not scored: too large, not selected, not text, or in no supported
  language. -/
  | skipped (reason : String)
  /-- Scoring was tried and failed. -/
  | failed (reason : String)
  | timedOut
  deriving Repr

namespace Outcome

/-- Whether the document was scored. -/
def isScored {α : Type} : Outcome α → Bool
  | scored _ => true
  | _ => false

/-- Whether the document was skipped. -/
def isSkipped {α : Type} : Outcome α → Bool
  | skipped _ => true
  | _ => false

/-- Whether scoring failed. -/
def isFailed {α : Type} : Outcome α → Bool
  | failed _ => true
  | _ => false

/-- Whether the time of the document was up. -/
def isTimedOut {α : Type} : Outcome α → Bool
  | timedOut => true
  | _ => false

end Outcome

/-- The outcome of one document, with its language where that is known. -/
structure DocumentResult (α : Type) where
  label : String
  language : Option Language
  outcome : Outcome α

/-- The counts and merged scores of a run. -/
structure RunSummary (α : Type) where
  scored : Nat
  skipped : Nat
  failed : Nat
  timedOut : Nat
  score : CorpusScore α
  /-- The first error of the sink; rows after it were dropped. -/
  sinkError : Option String

namespace RunSummary

variable {α : Type} [Scalar α]

/-- The summary of no documents. -/
def new : RunSummary α :=
  ⟨0, 0, 0, 0, .new, none⟩

/-- Counts one result, and merges its metrics if it has some and a language; there is
no summary once the totals of the score do not fit. -/
def record? (s : RunSummary α) (result : DocumentResult α) : Option (RunSummary α) :=
  match result.outcome with
  | .scored metrics =>
    match result.language with
    | some lang =>
      (s.score.add? lang metrics).map fun score =>
        { s with scored := s.scored + 1, score := score }
    | none => some { s with scored := s.scored + 1 }
  | .skipped _ => some { s with skipped := s.skipped + 1 }
  | .failed _ => some { s with failed := s.failed + 1 }
  | .timedOut => some { s with timedOut := s.timedOut + 1 }

/-- The number of results. -/
def total (s : RunSummary α) : Nat :=
  s.scored + s.skipped + s.failed + s.timedOut

/-- Whether no document failed or ran out of time, and the sink took every
row. -/
def isClean (s : RunSummary α) : Bool :=
  s.failed = 0 && s.timedOut = 0 && s.sinkError.isNone

end RunSummary

end TokenAlignment
