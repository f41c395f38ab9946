/-
TokenAlignment/Identifier/Splitter.lean

The words of an identifier, as a reader would separate them.

Three cuts are made.  Characters that are neither letters nor numbers separate
words and are dropped.  In what is left a change of case separates words: an
upper-case character after a lower-case one or a number starts a word, and of
an upper-case run before lower case the last capital joins the lower-case tail,

    HTTPServer  =  HTTP Server

unless the tail alone is made of known words and the joined form is not.  Last,
an ASCII word that is not known itself is cut into known words, but only if all
of it is made of them.

Nothing is lost: the pieces put together are the identifier without the dropped
characters.
-/
import TokenAlignment.Identifier.Lexicon
import TokenAlignment.Text.Alphabetic
import TokenAlignment.Text.Lowercase
import TokenAlignment.Text.Number
import TokenAlignment.Text.Split
import TokenAlignment.Text.Uppercase

namespace TokenAlignment

/-- The classes of characters that a splitter looks at. -/
structure CharTests where
  isWord : Char → Bool
  isUpper : Char → Bool
  isLower : Char → Bool
  isNumeric : Char → Bool

/-- The classes by the properties of Unicode 17. -/
def CharTests.unicode : CharTests where
  isWord c := isAlphabetic c || isNumeral c
  isUpper := isUppercase
  isLower := isLowercase
  isNumeric := isNumeral

/-- What splits an identifier into words. -/
abbrev IdentifierSplitter : Type :=
  List Char → List (List Char)

/-- A splitter by case and by known words. -/
structure WordSplitter (κ : Type) where
  tests : CharTests
  lexicon : Lexicon κ

namespace WordSplitter

variable {κ : Type} [Add κ] [LT κ] [DecidableLT κ] [OfNat κ 0]

/-- Whether the text is ASCII letters and, in lower case, known or a sequence of
known words. -/
def isWords (s : WordSplitter κ) (text : List Char) : Bool :=
  let lower := text.map Char.toLower
  text.all Char.isAlpha && (s.lexicon.isKnown lower || (s.lexicon.segment? lower).isSome)

/-! ### Cuts by case -/

/-- Where an upper-case run before the lower-case text `tail` is cut, if its last
capital stands right before the offset `i` of the tail. -/
def capitalCut (s : WordSplitter κ) (i : Nat) (capital : Char) (tail : List Char) : Nat :=
  if s.isWords tail && !s.isWords (capital :: tail) then i else i - 1

/-- The cuts in a run from offset `i` on, given the character before and the one
before that. -/
def caseCutsFrom (s : WordSplitter κ) (i : Nat) (before : Option Char) (prev : Char) :
    List Char → List Nat
  | [] => []
  | c :: cs =>
    let later := s.caseCutsFrom (i + 1) (some prev) c cs
    if s.tests.isUpper c && (s.tests.isLower prev || s.tests.isNumeric prev) then i :: later
    else if s.tests.isLower c && s.tests.isUpper prev && before.any s.tests.isUpper then
      s.capitalCut i prev (c :: cs.takeWhile s.tests.isLower) :: later
    else later

/-- The offsets of the cuts in a run, none of them at its ends. -/
def caseCuts (s : WordSplitter κ) : List Char → List Nat
  | [] => []
  | c :: cs => s.caseCutsFrom 1 none c cs

/-- The pieces of a text between its offset `start`, the cuts, and its end; no
piece is empty.  `text` is what stands behind `start`. -/
def piecesAt (start : Nat) (text : List Char) : (cuts : List Nat) → List (List Char)
  | [] => if text.isEmpty then [] else [text]
  | cut :: cuts =>
    let piece := text.take (cut - start)
    let rest := piecesAt cut (text.drop (cut - start)) cuts
    if piece.isEmpty then rest else piece :: rest

/-- The words of a run by case. -/
def caseWords (s : WordSplitter κ) (run : List Char) : List (List Char) :=
  piecesAt 0 run (s.caseCuts run)

/-! ### Cuts by known words -/

/-- The words that one word is made of. -/
def refine (s : WordSplitter κ) (word : List Char) : List (List Char) :=
  let lower := word.map Char.toLower
  if word.length < 2 || !word.all Char.isAlpha || s.lexicon.isKnown lower then [word]
  else
    match s.lexicon.segment? lower with
    | some ranges => ranges.map fun range => word.extract range.1 range.2
    | none => [word]

/-- The words of an identifier. -/
def split (s : WordSplitter κ) : IdentifierSplitter := fun identifier =>
  (Text.runs s.tests.isWord identifier).flatMap fun run => (s.caseWords run).flatMap s.refine

end WordSplitter

/-- The splitter by Unicode classes that knows the common words and those that a
user adds. -/
def wordSplitter (extra : List (List Char)) : WordSplitter Float :=
  ⟨.unicode, .withWords Lexicon.zipfCost extra⟩

end TokenAlignment
