/-
TokenAlignment/Score/Identifiers.lean

How a tokenizer splits identifiers, next to how a reader would.

Of each identifier three splits are taken: the texts of the tokens that end in
it, as they are; the texts of the tokens that share bytes with it, cut to the
identifier and without underscores; and the authoritative words.  The first two
are compared with the third as sets.

Tokens are a cover, so both their starts and their stops go up, and the tokens of
an identifier are a slice whose ends a halving search finds.
-/
import TokenAlignment.Deadline
import TokenAlignment.Document
import TokenAlignment.Identifier.Splitter
import TokenAlignment.Score.Jaccard
import TokenAlignment.Score.Partition

namespace TokenAlignment

/-- The three splits of one identifier. -/
structure IdentifierSplits where
  identifier : SyntaxToken
  /-- The texts of the tokens that end in the identifier. -/
  raw : List (List Char)
  /-- The texts of the tokens cut to the identifier, without underscores; empty
  ones are left out. -/
  clipped : List (List Char)
  /-- The words of the identifier. -/
  authoritative : List (List Char)
  deriving DecidableEq, Repr

/-- The identifier scores of a document. -/
structure IdentifierScores (α : Type) where
  splitting : α
  rawSplitting : α
  fertility : α
  splits : List IdentifierSplits

namespace IdentifierSplits

/-- The tokens that stop behind the start of a span and no later than its
stop. -/
def endingIn (tokens : Array Span) (span : Span) : List Span :=
  let first := partitionPoint (fun t => t.stop ≤ span.start) tokens
  let last := partitionPoint (fun t => t.stop ≤ span.stop) tokens
  (tokens.extract first last).toList

/-- The tokens that stop behind the start of a span and start before its stop. -/
def touching (tokens : Array Span) (span : Span) : List Span :=
  let first := partitionPoint (fun t => t.stop ≤ span.start) tokens
  let last := partitionPoint (fun t => t.start < span.stop) tokens
  (tokens.extract first last).toList

/-- The text without underscores. -/
def withoutUnderscores (text : List Char) : List Char :=
  text.filter (· ≠ '_')

/-- The three splits of an identifier with a given text. -/
def ofIdentifier (document : Document) (tokens : Array Span) (splitter : IdentifierSplitter)
    (identifier : SyntaxToken) (text : List Char) : IdentifierSplits where
  identifier := identifier
  raw := (endingIn tokens identifier.span).map document.visibleText
  clipped :=
    (((touching tokens identifier.span).filterMap (·.intersect? identifier.span)).map
      fun cut => withoutUnderscores (document.visibleText cut)).filter (!·.isEmpty)
  authoritative := splitter text

/-- The splits of an identifier, unless its bytes are no text. -/
def of? (document : Document) (tokens : Array Span) (splitter : IdentifierSplitter)
    (identifier : SyntaxToken) : Option IdentifierSplits :=
  match document.text identifier.span with
  | .ok text => some (ofIdentifier document tokens splitter identifier text)
  | .error _ => none

end IdentifierSplits

namespace IdentifierScores

/-- The mean of some numbers, zero without any. -/
def mean {α : Type} [Scalar α] (values : List α) : α :=
  if values.isEmpty then 0 else values.foldl (· + ·) 0 / Scalar.ofCount values.length

/-- The scores of some identifiers. -/
def ofSplits (α : Type) [Scalar α] (splits : List IdentifierSplits) : IdentifierScores α where
  splitting := mean (splits.map fun s => jaccard α s.clipped s.authoritative)
  rawSplitting := mean (splits.map fun s => jaccard α s.raw s.authoritative)
  fertility := Scalar.ratio α ((splits.map fun s => s.raw.length).foldl (· + ·) 0) splits.length
  splits := splits

end IdentifierScores

/-- The scores of all identifiers whose bytes are text. -/
def scoreIdentifiers (α : Type) [Scalar α] (document : Document)
    (identifiers : List SyntaxToken) (tokens : List Span) (splitter : IdentifierSplitter)
    (deadline : Deadline) : Except Timeout (IdentifierScores α) :=
  let tokens := tokens.toArray
  let scores := IdentifierScores.ofSplits α
    (identifiers.filterMap (IdentifierSplits.of? document tokens splitter))
  if identifiers.isEmpty then .ok scores else deadline.check.map fun _ => scores

end TokenAlignment
