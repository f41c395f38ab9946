/-
TokenAlignment/Score/Scalar.lean

The arithmetic in which scores are taken.

Every average of this library is written over a `Scalar`, so that one definition
is run in floating point and can be read in exact arithmetic.
-/

namespace TokenAlignment

/-- Numbers that can be averaged. -/
class Scalar (α : Type) extends Zero α, Add α, Mul α, Div α where
  /-- A count as a number. -/
  ofCount : Nat → α
  /-- How far two numbers lie apart. -/
  distance : α → α → α

instance : Scalar Float where
  zero := 0
  ofCount := Float.ofNat
  distance a b := (a - b).abs

/-- Exact arithmetic. -/
instance : Scalar Rat where
  zero := 0
  ofCount n := n
  distance a b := (a - b).abs

namespace Scalar

/-- The quotient of two counts, zero where the divisor is. -/
def ratio (α : Type) [Scalar α] (num den : Nat) : α :=
  if den = 0 then 0 else ofCount num / ofCount den

end Scalar

end TokenAlignment
