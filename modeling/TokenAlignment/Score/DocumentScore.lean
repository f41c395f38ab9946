/-
TokenAlignment/Score/DocumentScore.lean

The score of one document.

    document ── parser ──→ syntax tree ──→ identifiers, syntax tokens
                                               │
    tokens of a tokenizer ─────────────────────┴──→ splits, metrics

The tokens are checked to cover the document before anything is counted.
-/
import TokenAlignment.Score.Identifiers
import TokenAlignment.Score.Metrics
import TokenAlignment.Score.SpanOverlap
import TokenAlignment.Syntax.Cover
import TokenAlignment.Syntax.Identifiers
import TokenAlignment.Syntax.Parser
import TokenAlignment.Tokenizer.Basic

namespace TokenAlignment

/-- Why a document has no score. -/
inductive ScoreError where
  | parse (error : SyntaxError)
  | tokenizer (error : TokenizerError)
  | timeout
  deriving DecidableEq, Repr

namespace ScoreError

/-- The wording of the error. -/
def message : ScoreError → String
  | parse error => s!"parse failure: {error.message}"
  | tokenizer error => s!"tokenizer failure: {error.message}"
  | timeout => Timeout.message ⟨⟩

/-- The error and the errors behind it, outermost first. -/
def chain (e : ScoreError) : List String :=
  match e with
  | parse error => e.message :: error.chain
  | tokenizer error => [e.message, error.message]
  | timeout => [e.message]

/-- Whether the time of the document was up, wherever that was noticed. -/
def isTimeout : ScoreError → Bool
  | timeout => true
  | parse .timeout => true
  | _ => false

end ScoreError

/-- Everything computed while a document is scored. -/
structure DocumentScore (α : Type) where
  identifiers : List SyntaxToken
  syntaxTokens : List SyntaxToken
  splits : List IdentifierSplits
  metrics : Metrics α

/-- Bytes for each token, zero without tokens. -/
def compression (α : Type) [Scalar α] (length tokens : Nat) : α :=
  Scalar.ratio α length tokens

/-- Scores tokens against the syntax tokens and identifiers of a document. -/
def scoreTokens (α : Type) [Scalar α] (document : Document) (syntaxTokens : List SyntaxToken)
    (identifiers : List SyntaxToken) (tokens : List Span) (splitter : IdentifierSplitter)
    (deadline : Deadline) : Except ScoreError (DocumentScore α) := do
  (checkCover tokens document.length).mapError fun v => .tokenizer (.violation v)
  let span ← (tokenSpanScore α syntaxTokens tokens deadline).mapError fun _ => .timeout
  let ids ← (scoreIdentifiers α document identifiers tokens splitter deadline).mapError
    fun _ => .timeout
  return {
    identifiers := identifiers
    syntaxTokens := syntaxTokens
    splits := ids.splits
    metrics := {
      compression := compression α document.length tokens.length
      identifierFertility := ids.fertility
      identifierSplitting := ids.splitting
      rawIdentifierSplitting := ids.rawSplitting
      tokenSpan := span
      totalTokens := UInt64.ofNat tokens.length
      totalBytes := UInt64.ofNat document.length } }

/-- Parses a document and scores tokens against what the parser found. -/
def scoreDocument (α : Type) [Scalar α] (parser : Parser) (document : Document)
    (tokens : List Span) (splitter : IdentifierSplitter) (deadline : Deadline) :
    Except ScoreError (DocumentScore α) := do
  let kinds ← (parser.identifierKinds document.language).mapError .parse
  let tree ← (parser.parse document deadline).mapError .parse
  let identifiers ← (tree.identifiers kinds deadline).mapError .parse
  let syntaxTokens ← (tree.tokens document.length deadline).mapError .parse
  scoreTokens α document syntaxTokens identifiers tokens splitter deadline

end TokenAlignment
