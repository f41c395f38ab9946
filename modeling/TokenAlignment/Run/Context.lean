/-
TokenAlignment/Run/Context.lean

What every document of a run needs: a parser, a tokenizer and a splitter.
-/
import TokenAlignment.Identifier.Splitter
import TokenAlignment.Syntax.Parser
import TokenAlignment.Tokenizer.Choice

namespace TokenAlignment

/-- The parser, the tokenizer (with a memory `σ`) and the splitter of a run. -/
structure ScoringContext (σ : Type) where
  parser : Parser
  tokenizer : Tokenizer σ
  splitter : IdentifierSplitter

namespace ScoringContext

/-- The context with grammars for some languages, a named tokenizer, and the
usual splitter with extra words. -/
def build (grammar : Language → Array UInt8 → Option SyntaxTree) (languages : List Language)
    (choice : TokenizerChoice) (extraWords : List (List Char)) :
    Except TokenizerChoiceError (ScoringContext PieceTable) :=
  choice.load.map fun tokenizer =>
    ⟨⟨languages, grammar⟩, tokenizer, (wordSplitter extraWords).split⟩

end ScoringContext

end TokenAlignment
