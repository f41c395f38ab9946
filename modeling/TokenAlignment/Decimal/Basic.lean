/-
TokenAlignment/Decimal/Basic.lean

Decimal numbers: a natural coefficient times a power of ten, with a sign, and
their text without an exponent.

A decimal number is what a floating-point number is written through: the
shortest such number is found in `TokenAlignment.Decimal.Shortest`, and both
the tables and the reports print it with a layout of their own.
-/
import TokenAlignment.Decimal.Natural

namespace TokenAlignment

/-- The number `± coefficient · 10 ^ exponent`. -/
structure Decimal where
  negative : Bool
  coefficient : Nat
  exponent : Int
  deriving DecidableEq, Repr

namespace Decimal

/-- The nearest floating-point number; a half goes to the even neighbour. -/
def toFloat (d : Decimal) : Float :=
  let magnitude := Float.ofScientific d.coefficient (decide (d.exponent < 0)) d.exponent.natAbs
  if d.negative then -magnitude else magnitude

/-- The digits before the point, of a number whose digits are `ds` and whose
point stands `point` digits from the left; at least one digit. -/
def wholePart (ds : List Char) (point : Int) : List Char :=
  if point ≤ 0 then ['0']
  else ds.take point.toNat ++ List.replicate (point.toNat - ds.length) '0'

/-- The digits behind the point, without trailing zeros of its own. -/
def fractionPart (ds : List Char) (point : Int) : List Char :=
  if point ≤ 0 then List.replicate (-point).toNat '0' ++ ds else ds.drop point.toNat

/-- How many places from the left of its digits the point stands. -/
def point (d : Decimal) : Int :=
  (Natural.digits d.coefficient).length + d.exponent

/-- The sign as text. -/
def signText (negative : Bool) : List Char :=
  if negative then ['-'] else []

/-- The number without an exponent; a point only where digits follow it. -/
def plain (d : Decimal) : List Char :=
  let ds := Natural.digits d.coefficient
  let fraction := fractionPart ds d.point
  signText d.negative ++ wholePart ds d.point ++
    (if fraction.isEmpty then [] else '.' :: fraction)

end Decimal

end TokenAlignment
