/-
TokenAlignment/Decimal/Reading.lean

Floating-point numbers read from decimal text.

    [sign] digits [. digits] [e [sign] digits]        with a digit before the e
    [sign] inf | infinity | nan                       in any case

The number read is the nearest one to the decimal value.  Of the digits of an
exponent only those count that stand before its value reaches 65536; a text of
ordinary length is out of range by then, whatever digits follow.
-/
import TokenAlignment.Decimal.Basic

namespace TokenAlignment

/-- Why a text is not a floating-point number. -/
inductive FloatError where
  | empty
  | invalid
  deriving DecidableEq, Repr

namespace FloatError

/-- The wording of the error. -/
def message : FloatError → String
  | empty => "cannot parse float from empty string"
  | invalid => "invalid float literal"

end FloatError

namespace Decimal

/-- A sign at the start of a text, if there is one, and the text after it. -/
def splitSign : List Char → Bool × List Char
  | '-' :: cs => (true, cs)
  | '+' :: cs => (false, cs)
  | cs => (false, cs)

/-- The number that a sequence of digits spells. -/
def valueOfDigits (ds : List Char) : Nat :=
  ds.foldl (fun value c => value * 10 + (c.toNat - '0'.toNat)) 0

/-- The value from which on further digits of an exponent are passed over. -/
def exponentLimit : Nat := 0x10000

/-- The exponent that a sequence of digits spells. -/
def exponentOfDigits (ds : List Char) : Nat :=
  ds.foldl (fun e c => if e < exponentLimit then e * 10 + (c.toNat - '0'.toNat) else e) 0

/-- The exponent that a text after the mantissa gives: none means zero. -/
def readExponent? : List Char → Option Int
  | [] => some 0
  | c :: cs =>
    if c = 'e' ∨ c = 'E' then
      let (negative, ds) := splitSign cs
      if ds.isEmpty ∨ !ds.all Char.isDigit then none
      else
        let e : Int := exponentOfDigits ds
        some (if negative then -e else e)
    else none

/-- How many digits of a number are looked at one by one. -/
def significantDigits : Nat := 800

/-- The number with these digits before a power of ten, as far as rounding can
tell.  The middle between two neighbouring floating-point numbers has fewer than
800 digits, so of the digits after that many it only matters whether they are
all zero. -/
def ofDigits (negative : Bool) (ds : List Char) (exponent : Int) : Decimal :=
  let ds := ds.dropWhile (· = '0')
  let rest := ds.drop significantDigits
  if rest.isEmpty then ⟨negative, valueOfDigits ds, exponent⟩
  else
    let marker := if rest.all (· = '0') then '0' else '1'
    ⟨negative, valueOfDigits (ds.take significantDigits ++ [marker]),
      exponent + (rest.length - 1 : Nat)⟩

/-- The digits behind the point at the start of a text, and the text after them. -/
def splitFraction : List Char → List Char × List Char
  | '.' :: cs => (cs.takeWhile Char.isDigit, cs.dropWhile Char.isDigit)
  | cs => ([], cs)

/-- Reads a decimal number whose sign is already taken off. -/
def readUnsigned? (negative : Bool) (text : List Char) : Option Decimal :=
  let whole := text.takeWhile Char.isDigit
  let (fraction, rest) := splitFraction (text.dropWhile Char.isDigit)
  if whole.isEmpty ∧ fraction.isEmpty then none
  else
    (readExponent? rest).map fun e =>
      ofDigits negative (whole ++ fraction) (e - fraction.length)

end Decimal

/-- Reads a floating-point number. -/
def readFloat (text : List Char) : Except FloatError Float :=
  if text.isEmpty then .error .empty
  else
    let (negative, unsigned) := Decimal.splitSign text
    let word := unsigned.map Char.toLower
    if word = "inf".toList ∨ word = "infinity".toList then
      .ok (if negative then -(1 / 0) else 1 / 0)
    else if word = "nan".toList then .ok (0 / 0)
    else
      match Decimal.readUnsigned? negative unsigned with
      | some d => .ok d.toFloat
      | none => .error .invalid

end TokenAlignment
