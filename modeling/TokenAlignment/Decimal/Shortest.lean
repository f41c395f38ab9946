/-
TokenAlignment/Decimal/Shortest.lean

The decimal number with the fewest digits that reads back as a given
floating-point number.

A positive finite number is  m · 2 ^ q.  The reals that round to it form an
interval around it, reaching half a step up and half a step down (a quarter
where the step changes), ends included exactly when m is even.  On each grid of
multiples of a power of ten only the two neighbours of the number matter: if
any grid point lies in the interval, one of them does.  The coarsest grid with
a hit has the fewest digits, and of two hits the nearer is taken.

All arithmetic is exact, on natural numbers.
-/
import TokenAlignment.Decimal.Basic

namespace TokenAlignment

/-- Where a decimal goes that lies exactly between two candidates. -/
inductive TieRule where
  | toEven
  | up
  deriving DecidableEq, Repr

/-- A finite floating-point number: `± mantissa · 2 ^ exponent`. -/
structure Dyadic where
  negative : Bool
  mantissa : Nat
  exponent : Int
  /-- Whether the step below the number is half as wide as the step above. -/
  narrowBelow : Bool
  deriving DecidableEq, Repr

namespace Dyadic

/-- Whether the floating-point number carries a minus sign. -/
def isNegative (x : Float) : Bool :=
  x.toBits >>> 63 == 1

/-- `2 ^ 52`, the bit in front of the 52 bits of a fraction. -/
def leadingBit : Nat := 0x10000000000000

/-- The number of values that the 11 bits of an exponent can have. -/
def exponentValues : Nat := 0x800

/-- The parts of a finite floating-point number. -/
def ofFloat (x : Float) : Dyadic :=
  let bits := x.toBits.toNat
  let field := bits / leadingBit % exponentValues
  let fraction := bits % leadingBit
  if field = 0 then ⟨isNegative x, fraction, -1074, false⟩
  else
    ⟨isNegative x, fraction + leadingBit, (field : Int) - 1075,
      decide (fraction = 0 ∧ 1 < field)⟩

/-! ### The interval of reals that round to the number -/

/-- The lower end of the interval, in quarters of a step. -/
def lowQuarters (d : Dyadic) : Nat :=
  4 * d.mantissa - (if d.narrowBelow then 1 else 2)

/-- The upper end of the interval, in quarters of a step. -/
def highQuarters (d : Dyadic) : Nat :=
  4 * d.mantissa + 2

/-- Brings quarters of a step and multiples of `10 ^ t` to one scale: the first
number is the factor for quarters, the second for multiples. -/
def scales (d : Dyadic) (t : Int) : Nat × Nat :=
  let s := d.exponent - 2
  (Nat.pow 2 s.toNat * Nat.pow 10 (-t).toNat, Nat.pow 2 (-s).toNat * Nat.pow 10 t.toNat)

/-- Whether `c · 10 ^ t` rounds to the number. -/
def roundsFrom (d : Dyadic) (c : Nat) (t : Int) : Bool :=
  let (quarter, unit) := d.scales t
  let low := d.lowQuarters * quarter
  let high := d.highQuarters * quarter
  if d.mantissa % 2 = 0 then low ≤ c * unit && c * unit ≤ high
  else low < c * unit && c * unit < high

/-! ### The coarsest grid -/

/-- The multiple of `10 ^ t` that stands for the number, if one of its two
neighbours on this grid rounds to it. -/
def onGrid? (tie : TieRule) (d : Dyadic) (t : Int) : Option Nat :=
  let (quarter, unit) := d.scales t
  let value := 4 * d.mantissa * quarter
  let below := value / unit
  let above := below + 1
  match d.roundsFrom below t, d.roundsFrom above t with
  | false, false => none
  | true, false => some below
  | false, true => some above
  | true, true =>
    let lower := value - below * unit
    let upper := above * unit - value
    if lower < upper then some below
    else if upper < lower then some above
    else match tie with
      | .up => some above
      | .toEven => some (if below % 2 = 0 then below else above)

/-- The first hit on the grids of `10 ^ t`, `10 ^ (t - 1)`, …; at most `fuel`
grids are tried. -/
def coarsestFrom (tie : TieRule) (d : Dyadic) : (fuel : Nat) → (t : Int) → Nat × Int
  | 0, t => (0, t)
  | fuel + 1, t =>
    match d.onGrid? tie t with
    | some c => (c, t)
    | none => coarsestFrom tie d fuel (t - 1)

/-- A power of ten above the number: `10 ^ (d.magnitude)` exceeds it. -/
def magnitude (d : Dyadic) : Int :=
  (Nat.log2 d.mantissa + d.exponent) * 30103 / 100000 + 2

end Dyadic

/-- The shortest decimal number that reads back as the finite number `x`.
Seventeen digits are always enough, and the search starts at most three places
above the first of them. -/
def Decimal.shortest (tie : TieRule) (x : Float) : Decimal :=
  let d := Dyadic.ofFloat x
  if d.mantissa = 0 then ⟨d.negative, 0, 0⟩
  else
    let (c, t) := d.coarsestFrom tie 22 d.magnitude
    ⟨d.negative, c, t⟩

end TokenAlignment
