/-
TokenAlignment/Score/SpanOverlap.lean

How many syntax tokens a token overlaps, on average.

Tokens and syntax tokens are in document order, so one sweep finds the overlaps:
a syntax token that stops before the current token starts can be left behind for
good, and the search ends with the first that starts behind the current token.
-/
import TokenAlignment.Deadline
import TokenAlignment.Score.Scalar
import TokenAlignment.Span

namespace TokenAlignment

namespace SpanOverlap

/-- The syntax tokens still in front of the sweep, and the overlaps found. -/
structure Sweep where
  ahead : List SyntaxToken
  overlaps : Nat

/-- Moves the sweep over a token. -/
def Sweep.step (s : Sweep) (token : Span) : Sweep :=
  let ahead := s.ahead.dropWhile fun t => t.span.stop ≤ token.start
  let near := ahead.takeWhile fun t => t.span.start < token.stop
  ⟨ahead, s.overlaps + (near.filter fun t => token.overlaps t.span).length⟩

/-- The overlaps that a sweep over all tokens finds. -/
def count (syntaxTokens : List SyntaxToken) (tokens : List Span) : Nat :=
  (tokens.foldl Sweep.step ⟨syntaxTokens, 0⟩).overlaps

end SpanOverlap

/-- The mean number of syntax tokens that a token overlaps, zero without
tokens. -/
def tokenSpanScore (α : Type) [Scalar α] (syntaxTokens : List SyntaxToken)
    (tokens : List Span) (deadline : Deadline) : Except Timeout α :=
  if tokens.isEmpty then .ok 0
  else
    deadline.check.map fun _ =>
      Scalar.ratio α (SpanOverlap.count syntaxTokens tokens) tokens.length

end TokenAlignment
