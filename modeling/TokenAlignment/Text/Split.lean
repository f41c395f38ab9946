/-
TokenAlignment/Text/Split.lean

Cutting texts: fields between separators, maximal runs of a class of
characters, and the lines of a byte sequence.

    (fields sep text).intercalate [sep] = text
    runs p (a ++ c :: b) = runs p a ++ runs p b      for c outside p

Each cutter walks the sequence once and keeps the finished pieces, newest
first, so that long inputs need no deep recursion.
-/
import TokenAlignment.Text.Blank

namespace TokenAlignment

namespace Text

/-! ### Fields -/

/-- `fields` with the finished fields (newest first) and the current one
(newest character first). -/
def fieldsOnto (sep : Char) (done : List (List Char)) (field : List Char) :
    List Char → List (List Char)
  | [] => (field.reverse :: done).reverse
  | c :: cs =>
    if c = sep then fieldsOnto sep (field.reverse :: done) [] cs
    else fieldsOnto sep done (c :: field) cs

/-- The texts between separators: one more than there are separators. -/
def fields (sep : Char) (text : List Char) : List (List Char) :=
  fieldsOnto sep [] [] text

/-! ### Runs -/

/-- Adds a piece unless it is empty; pieces and piece are kept newest first. -/
def pushPiece (done : List (List Char)) (piece : List Char) : List (List Char) :=
  if piece.isEmpty then done else piece.reverse :: done

/-- `runs` with the finished runs (newest first) and the current one (newest
character first). -/
def runsOnto (p : Char → Bool) (done : List (List Char)) (run : List Char) :
    List Char → List (List Char)
  | [] => (pushPiece done run).reverse
  | c :: cs =>
    if p c then runsOnto p done (c :: run) cs else runsOnto p (pushPiece done run) [] cs

/-- The maximal stretches of characters in the class `p`, in order. -/
def runs (p : Char → Bool) (text : List Char) : List (List Char) :=
  runsOnto p [] [] text

/-- The stretches between white space. -/
def words (text : List Char) : List (List Char) :=
  runs (fun c => !isBlank c) text

end Text

/-! ### Lines -/

namespace Lines

/-- The line feed, which ends a line. -/
abbrev lineFeed : UInt8 := 10

/-- The carriage return, of which a line loses one before its line feed. -/
abbrev carriageReturn : UInt8 := 13

/-- A line from its bytes in reverse, as they stand before a line feed. -/
def finish : List UInt8 → List UInt8
  | [] => []
  | b :: bs => if b = carriageReturn then bs.reverse else (b :: bs).reverse

/-- `ofBytes` with the finished lines (newest first) and the bytes of the
current one (newest first). -/
def ofBytesOnto (done : List (List UInt8)) (line : List UInt8) :
    List UInt8 → List (List UInt8)
  | [] => (if line.isEmpty then done else line.reverse :: done).reverse
  | b :: bs =>
    if b = lineFeed then ofBytesOnto (finish line :: done) [] bs
    else ofBytesOnto done (b :: line) bs

/-- The lines of a byte sequence.  A line feed ends a line, and what follows the
last one is a line only if it is not empty. -/
def ofBytes (bytes : List UInt8) : List (List UInt8) :=
  ofBytesOnto [] [] bytes

end Lines

end TokenAlignment
