/-
TokenAlignment/Syntax/Parser.lean

Parsers, seen from the outside: the languages with a grammar, and the tree that
the grammar gives for a content.
-/
import TokenAlignment.Document
import TokenAlignment.Syntax.Error
import TokenAlignment.Syntax.Tree

namespace TokenAlignment

/-- Grammars for some languages.  `grammar` is consulted for those only, and may
find no tree. -/
structure Parser where
  languages : List Language
  grammar : Language → Array UInt8 → Option SyntaxTree

namespace Parser

/-- Whether a grammar is configured for the language. -/
def supports (p : Parser) (lang : Language) : Bool :=
  p.languages.contains lang

/-- The kinds of identifiers in a language with a grammar. -/
def identifierKinds (p : Parser) (lang : Language) : Except SyntaxError (List String) :=
  if p.supports lang then .ok lang.identifierKinds else .error (.missingGrammar lang)

/-- The syntax tree of a document, unless its time is up. -/
def parse (p : Parser) (document : Document) (deadline : Deadline) :
    Except SyntaxError SyntaxTree :=
  if p.supports document.language then do
    SyntaxError.checkDeadline deadline
    match p.grammar document.language document.content with
    | some tree => .ok tree
    | none => .error (.noTree document.language)
  else .error (.missingGrammar document.language)

end Parser

end TokenAlignment
