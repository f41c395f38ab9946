/-
TokenAlignment/Tokenizer/Pretoken.lean

Pre-token pieces: the cut of a text that comes before any merging of byte
pairs.

A piece is the longest match, at its place, of six patterns:

    contraction   an apostrophe and  s t d m re ve ll  in any case
    letters       letters, with at most one character before them that is
                  neither letter nor number nor line break
    digits        one to three numbers
    punctuation   characters that are neither letters nor numbers nor white
                  space, with at most one space before and any line breaks after
    newline       white space with a line break in it
    whitespace    white space without a line break

Every character falls under one of them, so the pieces are not empty and put
together give the text.  Letters and numbers are those of Unicode 16; to the
patterns, one that came later is no more than a symbol.
-/
import TokenAlignment.Text.Blank
import TokenAlignment.Text.Letter
import TokenAlignment.Text.Number

namespace TokenAlignment

/-- What a character is to the patterns. -/
inductive PieceClass where
  | letter
  | number
  /-- A carriage return or a line feed. -/
  | lineBreak
  /-- Other white space. -/
  | blank
  | symbol
  deriving DecidableEq, Repr

/-- The class of a character. -/
def PieceClass.of (c : Char) : PieceClass :=
  if c = '\r' ∨ c = '\n' then lineBreak
  else if isLetter c then letter
  else if isNumber c then number
  else if isBlank c then blank
  else symbol

namespace Pretoken

/-- How many characters of a class the text begins with. -/
def runLength (k : PieceClass) (text : List Char) : Nat :=
  (text.takeWhile fun c => PieceClass.of c = k).length

/-! ### The patterns

Each gives the length of its longest match at the start of a text, zero if
there is none. -/

/-- An apostrophe and the rest of a contraction. -/
def contraction : List Char → Nat
  | '\'' :: a :: cs =>
    if a.toLower ∈ ['s', 't', 'd', 'm'] then 2
    else
      match cs with
      | b :: _ =>
        if (a.toLower, b.toLower) ∈ [('r', 'e'), ('v', 'e'), ('l', 'l')] then 3 else 0
      | [] => 0
  | _ => 0

/-- Letters, with at most one other character before them. -/
def letters : List Char → Nat
  | [] => 0
  | c :: cs =>
    match PieceClass.of c with
    | .letter => runLength .letter (c :: cs)
    | .blank | .symbol =>
      let n := runLength .letter cs
      if n = 0 then 0 else n + 1
    | .number | .lineBreak => 0

/-- One to three numbers. -/
def digits (text : List Char) : Nat :=
  runLength .number (text.take 3)

/-- Symbols and the line breaks after them. -/
def symbols (text : List Char) : Nat :=
  let n := runLength .symbol text
  if n = 0 then 0 else n + runLength .lineBreak (text.drop n)

/-- Symbols with at most one space before and any line breaks after. -/
def punctuation : List Char → Nat
  | ' ' :: cs =>
    let n := symbols cs
    if n = 0 then 0 else n + 1
  | cs => symbols cs

/-- All white space, if there is a line break in it. -/
def newline (text : List Char) : Nat :=
  let run := text.takeWhile fun c => PieceClass.of c ∈ [.lineBreak, .blank]
  if run.any fun c => PieceClass.of c = .lineBreak then run.length else 0

/-- White space up to a line break. -/
def whitespace (text : List Char) : Nat :=
  runLength .blank text

/-! ### The cut -/

/-- The length of the longest match. -/
def matchLength (text : List Char) : Nat :=
  [contraction, letters, digits, punctuation, newline, whitespace].foldl
    (fun longest pattern => max longest (pattern text)) 0

/-- The pieces of a text after those already found (newest first). -/
def piecesOnto (done : List (List Char)) : List Char → List (List Char)
  | [] => done.reverse
  | c :: cs =>
    let more := matchLength (c :: cs) - 1
    piecesOnto ((c :: cs.take more) :: done) (cs.drop more)
termination_by text => text.length
decreasing_by simp only [List.length_drop, List.length_cons]; omega

/-- The pieces of a text, in order. -/
def pieces (text : List Char) : List (List Char) :=
  piecesOnto [] text

end Pretoken

end TokenAlignment
