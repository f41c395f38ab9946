/-
TokenAlignment/Proofs/Score/DocumentScore.lean

When one document has a score, and which.

    tokens cover the document, time left   →   there is a score
    there is a score                       →   it is `documentScore`

The second line holds whatever the deadline is, so that a score does not depend on it.  The
syntax tokens and identifiers come from a tree; where its nodes have spans, nothing but the
tokens can keep a document from its score (`scoreDocument_eq`).
-/
import TokenAlignment.Proofs.Score.Clipped
import TokenAlignment.Proofs.Score.SpanOverlap
import TokenAlignment.Proofs.Tokenizer.Contract

namespace TokenAlignment

section

variable {α : Type} [Scalar α] {d : Document} {syntaxTokens identifiers : List SyntaxToken}
  {tokens : List Span} {splitter : IdentifierSplitter} {deadline : Deadline}

/-- The records of the identifiers of a document that have a text. -/
def identifierSplits (d : Document) (identifiers : List SyntaxToken) (tokens : List Span)
    (splitter : IdentifierSplitter) : List IdentifierSplits :=
  identifiers.filterMap (IdentifierSplits.of? d tokens.toArray splitter)

/-- The score of a document, if there is one. -/
def documentScore (α : Type) [Scalar α] (d : Document)
    (syntaxTokens identifiers : List SyntaxToken) (tokens : List Span)
    (splitter : IdentifierSplitter) : DocumentScore α :=
  let scores := IdentifierScores.ofSplits α (identifierSplits d identifiers tokens splitter)
  { identifiers := identifiers
    syntaxTokens := syntaxTokens
    splits := scores.splits
    metrics := {
      compression := Scalar.ratio α d.length tokens.length
      identifierFertility := scores.fertility
      identifierSplitting := scores.splitting
      rawIdentifierSplitting := scores.rawSplitting
      tokenSpan := Scalar.ratio α (SpanOverlap.count syntaxTokens tokens) tokens.length
      totalTokens := UInt64.ofNat tokens.length
      totalBytes := UInt64.ofNat d.length } }

/-- **A score is that of its tokens**, and they cover the document. -/
theorem eq_of_scoreTokens_eq_ok {score : DocumentScore α}
    (h : scoreTokens α d syntaxTokens identifiers tokens splitter deadline = .ok score) :
    Span.Chain 0 tokens d.length ∧
      score = documentScore α d syntaxTokens identifiers tokens splitter := by
  have hchain := (ofCover_of_scoreTokens_eq_ok h).chain
  rw [scoreTokens] at h
  obtain ⟨⟨⟩, -, h⟩ := exists_of_bind_eq_ok h
  obtain ⟨span, hspan, h⟩ := exists_of_bind_eq_ok h
  obtain ⟨scores, hscores, h⟩ := exists_of_bind_eq_ok h
  cases h
  have hspan' := eq_of_tokenSpanScore_eq_ok (eq_ok_of_mapError_eq_ok hspan)
  have hscores' := splits_of_scoreIdentifiers_eq_ok (eq_ok_of_mapError_eq_ok hscores)
  refine ⟨hchain, ?_⟩
  rw [hspan', hscores']
  rfl

/-- **Tokens that cover the document get a score**, if there is time. -/
theorem scoreTokens_eq (hcover : Span.Chain 0 tokens d.length)
    (hdeadline : deadline ≠ .expired) :
    scoreTokens α d syntaxTokens identifiers tokens splitter deadline
      = .ok (documentScore α d syntaxTokens identifiers tokens splitter) := by
  obtain ⟨scores, hscores⟩ :=
    exists_scoreIdentifiers_eq_ok α d identifiers tokens splitter hdeadline
  rw [scoreTokens, checkCover_eq_ok_iff.mpr hcover, tokenSpanScore_eq hdeadline, hscores,
    splits_of_scoreIdentifiers_eq_ok hscores]
  rfl

/-! ### Documents and trees -/

variable {parser : Parser}

/-- The score of a document is that of its tokens and of some tree. -/
theorem exists_of_scoreDocument_eq_ok {score : DocumentScore α}
    (h : scoreDocument α parser d tokens splitter deadline = .ok score) :
    ∃ tree syntaxTokens identifiers, SyntaxTree.tokens tree d.length deadline = .ok syntaxTokens ∧
      scoreTokens α d syntaxTokens identifiers tokens splitter deadline = .ok score := by
  rw [scoreDocument] at h
  obtain ⟨kinds, -, h⟩ := exists_of_bind_eq_ok h
  obtain ⟨tree, -, h⟩ := exists_of_bind_eq_ok h
  obtain ⟨identifiers, -, h⟩ := exists_of_bind_eq_ok h
  obtain ⟨syntaxTokens, hleaves, h⟩ := exists_of_bind_eq_ok h
  exact ⟨tree, syntaxTokens, identifiers, eq_ok_of_mapError_eq_ok hleaves, h⟩

theorem identifierKinds_eq_ok (h : parser.supports d.language = true) :
    parser.identifierKinds d.language = .ok d.language.identifierKinds := by
  rw [Parser.identifierKinds, if_pos h]

theorem parse_eq_ok {tree : SyntaxTree} (h : parser.supports d.language = true)
    (htree : parser.grammar d.language d.content = some tree) :
    parser.parse d .unbounded = .ok tree := by
  rw [Parser.parse, if_pos h, htree]
  rfl

/-- **A tree whose nodes have spans gets a score**, if the tokens cover the document. -/
theorem scoreDocument_eq {tree : SyntaxTree} (hsupports : parser.supports d.language = true)
    (htree : parser.grammar d.language d.content = some tree)
    (hleaves : tree.tokens d.length .unbounded = .ok syntaxTokens)
    (hidentifiers : tree.identifiers d.language.identifierKinds .unbounded = .ok identifiers)
    (hcover : Span.Chain 0 tokens d.length) :
    scoreDocument α parser d tokens splitter .unbounded
      = .ok (documentScore α d syntaxTokens identifiers tokens splitter) := by
  have hscore : scoreTokens α d syntaxTokens identifiers tokens splitter .unbounded = .ok _ :=
    scoreTokens_eq hcover (by decide)
  rw [← hscore, scoreDocument, identifierKinds_eq_ok hsupports, parse_eq_ok hsupports htree]
  dsimp only [Except.mapError, bind, Except.bind]
  rw [hidentifiers]
  dsimp only
  rw [hleaves]

end

end TokenAlignment
