/-
TokenAlignment/Json/Number.lean

Numbers in JSON texts.

A finite floating-point number is written with the fewest digits that read back:
plainly, with at least one digit behind the point, from 1e-5 up to below 1e16,
and with an exponent outside.  The others have no JSON form and become null.

Reading keeps the digits that fit a 64-bit word and scales them by a single
multiplication or division with a power of ten; further digits only move the
point.  A number too large for any floating-point number is refused, one too
small is zero.
-/
import TokenAlignment.Decimal.Shortest
import TokenAlignment.Json.Value

namespace TokenAlignment

/-- Numbers with a JSON form. -/
class JsonNumber (α : Type) where
  write : α → Json
  read? : List Char → Option α

namespace JsonNumber

/-! ### Writing -/

/-- Digits with a point behind the first, if more follow. -/
def pointed : List Char → List Char
  | [] => []
  | [d] => [d]
  | d :: ds => d :: '.' :: ds

/-- The digits of a decimal number with an exponent. -/
def withExponent (ds : List Char) (point : Int) : List Char :=
  let e := point - 1
  pointed ds ++ 'e' :: (if e < 0 then '-' else '+') :: Natural.digits e.natAbs

/-- The digits of a decimal number with a point and at least one digit behind
it. -/
def withPoint (ds : List Char) (point : Int) : List Char :=
  let fraction := Decimal.fractionPart ds point
  Decimal.wholePart ds point ++ '.' :: (if fraction.isEmpty then ['0'] else fraction)

/-- The text of a decimal number. -/
def writeDecimal (d : Decimal) : List Char :=
  let ds := Natural.digits d.coefficient
  Decimal.signText d.negative ++
    (if d.coefficient = 0 ∨ (-4 ≤ d.point ∧ d.point ≤ 16) then withPoint ds d.point
    else withExponent ds d.point)

/-- A floating-point number as a JSON value. -/
def writeFloat (x : Float) : Json :=
  if x.isNaN || x.isInf then .null else .number (writeDecimal (Decimal.shortest .toEven x))

/-! ### Reading -/

/-- A number as it is read: its significant digits as far as they fit a word, and
the power of ten they are scaled by. -/
structure Scaled where
  significand : Nat
  exponent : Int

/-- Appends digits as long as the number fits a word; the rest of them comes
back. -/
def appendDigits (n : Nat) : List Char → Nat × List Char
  | [] => (n, [])
  | d :: ds =>
    let n' := n * 10 + (d.toNat - '0'.toNat)
    if n' < UInt64.size then appendDigits n' ds else (n, d :: ds)

/-- The number with these digits before and behind the point. -/
def scaled (whole fraction : List Char) (exponent : Int) : Scaled :=
  let (n, dropped) := appendDigits 0 whole
  let (n, unused) := appendDigits n fraction
  ⟨n, exponent + dropped.length - (fraction.length - unused.length : Nat)⟩

/-- A power of ten, up to the greatest that is a floating-point number. -/
def powerOfTen (e : Nat) : Float :=
  Float.ofScientific 1 false e

/-- Scales a number by `10 ^ e`.  Two divisions by the greatest power bring every
number to zero, so `fuel` beyond three changes nothing. -/
def scale? : (fuel : Nat) → Float → Int → Option Float
  | 0, x, _ => some x
  | fuel + 1, x, e =>
    if e.natAbs ≤ 308 then
      if 0 ≤ e then
        let y := x * powerOfTen e.natAbs
        if y.isInf then none else some y
      else some (x / powerOfTen e.natAbs)
    else if x == 0 then some x
    else if 0 ≤ e then none
    else scale? fuel (x / powerOfTen 308) (e + 308)

/-- The digits of a lexeme before and behind the point, and its exponent. -/
def parts (lexeme : List Char) : List Char × List Char × Int :=
  let whole := lexeme.takeWhile Char.isDigit
  let (fraction, rest) :=
    match lexeme.dropWhile Char.isDigit with
    | '.' :: s => (s.takeWhile Char.isDigit, s.dropWhile Char.isDigit)
    | s => ([], s)
  let value (ds : List Char) : Int := ds.foldl (fun n d => n * 10 + (d.toNat - '0'.toNat)) 0
  match rest with
  | _ :: '-' :: ds => (whole, fraction, -value ds)
  | _ :: '+' :: ds => (whole, fraction, value ds)
  | _ :: ds => (whole, fraction, value ds)
  | [] => (whole, fraction, 0)

/-- The floating-point number of a lexeme without a sign. -/
def readUnsigned? (lexeme : List Char) : Option Float :=
  let (whole, fraction, exponent) := parts lexeme
  let number := scaled whole fraction exponent
  scale? 4 (Float.ofNat number.significand) number.exponent

/-- The floating-point number of a lexeme. -/
def readFloat? : List Char → Option Float
  | '-' :: lexeme => (readUnsigned? lexeme).map fun x => -x
  | lexeme => readUnsigned? lexeme

instance : JsonNumber Float where
  write := writeFloat
  read? := readFloat?

/-! ### Words -/

/-- A word as a JSON value. -/
def ofWord (n : UInt64) : Json :=
  .number (Natural.digits n.toNat)

/-- The word that a lexeme spells: digits only, and within range. -/
def readWord? (lexeme : List Char) : Option UInt64 :=
  if lexeme.head?.any Char.isDigit then (Natural.read lexeme).toOption else none

end JsonNumber

end TokenAlignment
