/-
TokenAlignment/Run/Sink.lean

Receivers of scored documents.

A sink is a state with two operations, either of which may fail with a text:
`record` for each scored document, and `finish` after the last one.
-/
import TokenAlignment.Language
import TokenAlignment.Score.Metrics

namespace TokenAlignment

/-- A receiver whose state is a `τ`; an operation gives its error, if it failed,
and the state after it. -/
structure MetricsSink (α τ : Type) where
  record : Language → Metrics α → τ → Option String × τ
  finish : τ → Option String × τ

namespace MetricsSink

/-- The sink that forgets everything. -/
def null (α : Type) : MetricsSink α Unit where
  record _ _ s := (none, s)
  finish s := (none, s)

end MetricsSink

end TokenAlignment
