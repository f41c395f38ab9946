/-
TokenAlignment/Decimal/Rounded.lean

Floating-point numbers with a fixed number of decimal places, as the tables for
readers show them.

The exact binary value is rounded; a half goes to the even neighbour.
-/
import TokenAlignment.Decimal.Shortest

namespace TokenAlignment

/-- The quotient to the nearest natural number; a half goes to the even
neighbour. -/
def roundDiv (num den : Nat) : Nat :=
  let below := num / den
  let twice := 2 * (num % den)
  if twice < den then below
  else if den < twice then below + 1
  else if below % 2 = 0 then below else below + 1

/-- The number in units of `10 ^ -places`, rounded. -/
def Dyadic.inUnits (d : Dyadic) (places : Nat) : Nat :=
  roundDiv (d.mantissa * Nat.pow 10 places * Nat.pow 2 d.exponent.toNat)
    (Nat.pow 2 (-d.exponent).toNat)

/-- The number with `places` digits behind the point. -/
def Decimal.rounded (places : Nat) (x : Float) : List Char :=
  if x.isNaN then "NaN".toList
  else if x.isInf then signText (Dyadic.isNegative x) ++ "inf".toList
  else
    let units := (Dyadic.ofFloat x).inUnits places
    let fraction := Natural.digits (units % Nat.pow 10 places)
    signText (Dyadic.isNegative x) ++ Natural.digits (units / Nat.pow 10 places) ++
      '.' :: (List.replicate (places - fraction.length) '0' ++ fraction)

end TokenAlignment
