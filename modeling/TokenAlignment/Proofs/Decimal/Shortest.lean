/-
TokenAlignment/Proofs/Decimal/Shortest.lean

The search for the shortest decimal number finds one,

    coefficient of (shortest x)  ≠  0      unless x is zero, which is 0 · 10 ^ 0.

A grid with a step below half a step of the number always has a hit (`isSome_onGrid?`), and the
last grid that is tried is that fine, whatever the number is (`InRange.scales_lt`): the first one
is at most some places too coarse, and there are fewer than seventeen digits in a mantissa.  A hit
is never zero, as the interval around a number does not reach down to it.

Main result: `shortest_cases`.
-/
import Mathlib.Algebra.Order.Ring.Nat
import TokenAlignment.Decimal.Shortest

namespace TokenAlignment

namespace Dyadic

variable {d : Dyadic} {tie : TieRule} {t : Int}

theorem scales_fst_pos (d : Dyadic) (t : Int) : 0 < (d.scales t).1 :=
  Nat.mul_pos (Nat.pow_pos (by decide)) (Nat.pow_pos (by decide))

theorem scales_snd_pos (d : Dyadic) (t : Int) : 0 < (d.scales t).2 :=
  Nat.mul_pos (Nat.pow_pos (by decide)) (Nat.pow_pos (by decide))

theorem lowQuarters_pos (hm : d.mantissa ≠ 0) : 0 < d.lowQuarters := by
  rw [lowQuarters]
  split <;> omega

/-- Zero rounds to no other number. -/
theorem roundsFrom_zero (hm : d.mantissa ≠ 0) (t : Int) : d.roundsFrom 0 t = false := by
  have hlow := Nat.mul_pos (lowQuarters_pos hm) (d.scales_fst_pos t)
  simp only [roundsFrom, Nat.zero_mul]
  split
  · rw [Bool.and_eq_false_iff]
    exact .inl (decide_eq_false (by omega))
  · rw [Bool.and_eq_false_iff]
    exact .inl (decide_eq_false (by omega))

/-- A hit on a grid is no zero. -/
theorem onGrid?_ne_zero (hm : d.mantissa ≠ 0) {c : Nat} (h : d.onGrid? tie t = some c) :
    c ≠ 0 := by
  rintro rfl
  have hzero := roundsFrom_zero hm t
  simp only [onGrid?] at h
  generalize hbelow : 4 * d.mantissa * (d.scales t).1 / (d.scales t).2 = below at h
  rcases below with - | below
  · rw [hzero] at h
    split at h <;> simp_all
  · split at h
    · cases h
    · cases h
    · cases h
    · split at h
      · cases h
      split at h
      · cases h
      split at h
      · cases h
      · split at h <;> cases h

/-- **A fine grid has a hit**: the multiple above the number is less than half a step away. -/
theorem isSome_onGrid? (hfine : (d.scales t).2 < 2 * (d.scales t).1) :
    (d.onGrid? tie t).isSome := by
  have hunit := d.scales_snd_pos t
  simp only [onGrid?]
  generalize hvalue : 4 * d.mantissa * (d.scales t).1 = value
  -- the multiple above is less than a step away, and a step is less than half a unit
  have habove : d.roundsFrom (value / (d.scales t).2 + 1) t = true := by
    have hdiv := Nat.div_add_mod value (d.scales t).2
    have hmod := Nat.mod_lt value hunit
    have hmul : (value / (d.scales t).2 + 1) * (d.scales t).2
        = value - value % (d.scales t).2 + (d.scales t).2 := by
      rw [Nat.add_mul, Nat.one_mul, Nat.mul_comm]
      omega
    have hlow : d.lowQuarters * (d.scales t).1 ≤ value := by
      rw [← hvalue, lowQuarters]
      exact Nat.mul_le_mul_right _ (Nat.sub_le ..)
    have hhigh : d.highQuarters * (d.scales t).1 = value + 2 * (d.scales t).1 := by
      rw [← hvalue, highQuarters, Nat.add_mul]
    simp only [roundsFrom, hmul, hhigh]
    split
    · rw [Bool.and_eq_true, decide_eq_true_eq, decide_eq_true_eq]
      omega
    · rw [Bool.and_eq_true, decide_eq_true_eq, decide_eq_true_eq]
      omega
  rw [habove]
  rcases d.roundsFrom (value / (d.scales t).2) t with - | -
  · rfl
  · dsimp only
    split
    · rfl
    split
    · rfl
    · cases tie <;> rfl

/-- A search that comes to a grid with a hit finds no zero. -/
theorem coarsestFrom_ne_zero (hm : d.mantissa ≠ 0) {fuel n : Nat} (hn : n < fuel)
    (hhit : (d.onGrid? tie (t - n)).isSome) : (d.coarsestFrom tie fuel t).1 ≠ 0 := by
  induction fuel generalizing t n with
  | zero => omega
  | succ fuel ih =>
      rw [coarsestFrom]
      rcases hgrid : d.onGrid? tie t with - | c
      · rcases n with - | n
        · rw [Int.natCast_zero, Int.sub_zero, hgrid] at hhit
          cases hhit
        · refine ih (Nat.lt_of_succ_lt_succ hn) ?_
          rwa [show t - 1 - (n : Int) = t - ((n + 1 : Nat) : Int) by omega]
      · exact onGrid?_ne_zero hm hgrid

/-! ### Powers of ten and of two -/

theorem ten_pow_lt_two_pow {m k : Nat} (h : 10 * m < 3 * k) : 10 ^ m < 2 ^ k := by
  -- three decimal places are less than ten binary ones: 10 ^ 3 < 2 ^ 10
  have hcube : (10 ^ m) ^ 3 < (2 ^ k) ^ 3 := by
    calc (10 ^ m) ^ 3 = (10 ^ 3) ^ m := by rw [← Nat.pow_mul, ← Nat.pow_mul, Nat.mul_comm]
      _ ≤ (2 ^ 10) ^ m := Nat.pow_le_pow_left (by decide) m
      _ = 2 ^ (10 * m) := (Nat.pow_mul ..).symm
      _ < 2 ^ (3 * k) := Nat.pow_lt_pow_right (by decide) h
      _ = (2 ^ k) ^ 3 := by rw [← Nat.pow_mul, Nat.mul_comm]
  exact (Nat.pow_lt_pow_iff_left (by decide)).mp hcube

theorem two_pow_lt_ten_pow {m k : Nat} (h : 10 * k < 33 * m) : 2 ^ k < 10 ^ m := by
  -- and 33 binary places are less than ten decimal ones: 2 ^ 33 < 10 ^ 10
  have htenth : (2 ^ k) ^ 10 < (10 ^ m) ^ 10 := by
    calc (2 ^ k) ^ 10 = 2 ^ (10 * k) := by rw [← Nat.pow_mul, Nat.mul_comm]
      _ < 2 ^ (33 * m) := Nat.pow_lt_pow_right (by decide) h
      _ = (2 ^ 33) ^ m := Nat.pow_mul ..
      _ ≤ (10 ^ 10) ^ m := Nat.pow_le_pow_left (by decide) m
      _ = (10 ^ m) ^ 10 := by rw [← Nat.pow_mul, ← Nat.pow_mul, Nat.mul_comm]
  exact (Nat.pow_lt_pow_iff_left (by decide)).mp htenth

/-! ### The numbers of the machine -/

/-- Whether mantissa and exponent are those of a floating-point number. -/
structure InRange (d : Dyadic) : Prop where
  mantissa : d.mantissa < 2 ^ 53
  low : -1074 ≤ d.exponent
  high : d.exponent ≤ 972

theorem inRange_ofFloat (x : Float) : (ofFloat x).InRange := by
  have hfield := Nat.mod_lt (x.toBits.toNat / leadingBit) (show 0 < exponentValues by decide)
  have hfraction := Nat.mod_lt x.toBits.toNat (show 0 < leadingBit by decide)
  have hleading : leadingBit = 2 ^ 52 := by decide
  have hvalues : exponentValues = 2048 := by decide
  rw [ofFloat]
  split
  · exact ⟨by dsimp only; omega, Int.le_refl _, by dsimp only; omega⟩
  · exact ⟨by dsimp only; omega, by dsimp only; omega, by dsimp only; omega⟩

/-- **The last grid is a fine one.** -/
theorem InRange.scales_lt (h : d.InRange) :
    (d.scales (d.magnitude - 21)).2 < 2 * (d.scales (d.magnitude - 21)).1 := by
  obtain ⟨hmantissa, hlow, hhigh⟩ := h
  have hlog : d.mantissa.log2 ≤ 52 := by
    by_cases hm : d.mantissa = 0
    · rw [hm]
      decide
    · exact Nat.le_of_lt_succ ((Nat.log2_lt hm).mpr hmantissa)
  have hmagnitude : d.magnitude - 21 = (d.mantissa.log2 + d.exponent) * 30103 / 100000 - 19 := by
    rw [magnitude]
    omega
  generalize d.magnitude - 21 = t at hmagnitude
  show 2 ^ (-(d.exponent - 2)).toNat * 10 ^ t.toNat
    < 2 * (2 ^ (d.exponent - 2).toNat * 10 ^ (-t).toNat)
  by_cases ht : 0 ≤ t
  · -- powers of ten on the one side, of two on the other
    have hpow := ten_pow_lt_two_pow (m := t.toNat) (k := (d.exponent - 2).toNat + 1) (by omega)
    rw [Nat.pow_succ] at hpow
    simp only [show (-(d.exponent - 2)).toNat = 0 by omega, show (-t).toNat = 0 by omega,
      Nat.pow_zero, Nat.one_mul, Nat.mul_one]
    omega
  · rw [show t.toNat = 0 by omega, Nat.pow_zero, Nat.mul_one]
    by_cases hexponent : 2 ≤ d.exponent
    · have htwo : 0 < 2 ^ (d.exponent - 2).toNat := Nat.pow_pos (by decide)
      have hten : 0 < 10 ^ (-t).toNat := Nat.pow_pos (by decide)
      have hpositive := Nat.mul_pos htwo hten
      rw [show (-(d.exponent - 2)).toNat = 0 by omega, Nat.pow_zero]
      omega
    · have hpow := two_pow_lt_ten_pow (m := (-t).toNat) (k := (1 - d.exponent).toNat) (by omega)
      rw [show (-(d.exponent - 2)).toNat = (1 - d.exponent).toNat + 1 by omega,
        show (d.exponent - 2).toNat = 0 by omega, Nat.pow_succ, Nat.pow_zero, Nat.one_mul]
      omega

end Dyadic

namespace Decimal

/-- **The shortest decimal number is zero only for zero**, which has no other digits. -/
theorem shortest_cases (tie : TieRule) (x : Float) :
    (shortest tie x).coefficient ≠ 0 ∨
      (shortest tie x).coefficient = 0 ∧ (shortest tie x).exponent = 0 := by
  rw [shortest]
  dsimp only
  split
  · exact .inr ⟨rfl, rfl⟩
  · rename_i hm
    exact .inl (Dyadic.coarsestFrom_ne_zero hm (n := 21) (by decide)
      (Dyadic.isSome_onGrid? (Dyadic.inRange_ofFloat x).scales_lt))

end Decimal

end TokenAlignment
