/-
TokenAlignment/Text/Blank.lean

White space: the Unicode property White_Space, and texts without it at their
ends.

    trim (blank ++ text ++ blank') = trim text   for blank, blank' of white space
-/
import TokenAlignment.Text.RangeTable

namespace TokenAlignment

/-- The white space from U+0080 on. -/
def blankTable : RangeTable where
  ranges := #[
    (0x85, 0x85), (0xA0, 0xA0), (0x1680, 0x1680), (0x2000, 0x200A), (0x2028, 0x2029),
    (0x202F, 0x202F), (0x205F, 0x205F), (0x3000, 0x3000)]

/-- Whether `c` has the property White_Space. -/
def isBlank (c : Char) : Bool :=
  if c.toNat < 0x80 then c = ' ' || (9 ≤ c.toNat && c.toNat ≤ 13) else blankTable.contains c

namespace Text

/-- Without the white space at the end. -/
def trimEnd (text : List Char) : List Char :=
  (text.reverse.dropWhile isBlank).reverse

/-- Without the white space at both ends. -/
def trim (text : List Char) : List Char :=
  trimEnd (text.dropWhile isBlank)

/-- Whether the text is white space only. -/
def isBlankLine (text : List Char) : Bool :=
  text.all isBlank

end Text

end TokenAlignment
