/-
TokenAlignment/Proofs/Score/FloatCount.lean

Counts as floating-point numbers.

A number of this arithmetic is written with 53 binary digits, m · 2 ^ e with the first digit
of m not zero.  A count below 2 ^ 53 has no more digits than that, so it loses nothing when
it is taken as a number:

    value (ofNat n) = n      for  0 < n < 2 ^ 53.

Rounding is exact wherever it occurs here: it only ever drops zeros (`roundWithAccuracy_eq`).
-/
import Mathlib

namespace TokenAlignment

namespace FloatCount

open Float.Model Float.Model.UnpackedFloat

/-- Fifty-three binary digits, the first of which is one, with an exponent that keeps them. -/
structure Canonical (mantissa : Nat) (exponent : Int) : Prop where
  low : 2 ^ 52 ≤ mantissa
  high : mantissa < 2 ^ 53
  least : -1074 < exponent
  greatest : exponent ≤ 971

/-- The number that the digits stand for. -/
def value (mantissa : Nat) (exponent : Int) : ℚ :=
  mantissa * 2 ^ exponent

variable {m : Nat} {e : Int}

theorem Canonical.pos (h : Canonical m e) : 0 < m :=
  Nat.lt_of_lt_of_le (by decide) h.low

theorem Canonical.log2_eq (h : Canonical m e) : m.log2 = 52 :=
  (Nat.log2_eq_iff (Nat.ne_of_gt h.pos)).mpr ⟨h.low, h.high⟩

/-! ### Rounding -/

/-- Zeros are dropped without a trace. -/
theorem repeat_shiftRightOne (m k : Nat) :
    Nat.repeat ExtendedMantissa.shiftRightOne k ⟨m * 2 ^ k, false, false⟩
      = ⟨m, false, false⟩ := by
  induction k generalizing m with
  | zero => simp [Nat.repeat]
  | succ k ih =>
      have hsplit : m * 2 ^ (k + 1) = m * 2 * 2 ^ k := by
        rw [Nat.pow_succ']
        exact (Nat.mul_assoc m 2 (2 ^ k)).symm
      rw [Nat.repeat, hsplit, ih, ExtendedMantissa.shiftRightOne]
      simp

theorem targetExponent_eq (h : Canonical m e) (k : Nat) :
    Format.binary64.targetExponent (totalExponent (m * 2 ^ k) (e - k)) = e := by
  have hlog : (m * 2 ^ k).log2 = 52 + k := by
    have hne : m * 2 ^ k ≠ 0 := Nat.mul_ne_zero (Nat.ne_of_gt h.pos) (by simp)
    rw [Nat.log2_eq_iff hne, Nat.pow_add, Nat.add_right_comm, Nat.pow_add]
    exact ⟨Nat.mul_le_mul_right _ h.low, Nat.mul_lt_mul_of_pos_right h.high (Nat.two_pow_pos k)⟩
  have := h.least
  simp only [Format.targetExponent, totalExponent, hlog, Format.mantissaBits,
    Format.minExponent]
  omega

theorem shiftToTargetExponent_eq (h : Canonical m e) (k : Nat) :
    shiftToTargetExponent .binary64 (m * 2 ^ k) (e - k) .exact = (⟨m, false, false⟩, e) := by
  have hshift : (e - (e - (k : Int))).toNat = k := by omega
  rw [shiftToTargetExponent, targetExponent_eq h, shiftToExponent, hshift]
  show (Nat.repeat ExtendedMantissa.shiftRightOne k ⟨m * 2 ^ k, false, false⟩, e - k + k) = _
  rw [repeat_shiftRightOne, Int.sub_add_cancel]

/-- **What needs no more than its digits is kept by rounding.** -/
theorem roundWithAccuracy_eq (h : Canonical m e) (k : Nat) :
    roundWithAccuracy .binary64 .positive (m * 2 ^ k) (e - k) .exact
      = .finite .positive m e h.pos := by
  have hfirst := shiftToTargetExponent_eq h k
  have hagain := shiftToTargetExponent_eq h 0
  rw [Nat.pow_zero, Nat.mul_one, Int.natCast_zero, Int.sub_zero] at hagain
  have hrounded : (⟨m, false, false⟩ : ExtendedMantissa).roundedMantissa = m := rfl
  simp only [roundWithAccuracy, hfirst, hrounded, hagain]
  exact dif_neg (Nat.ne_of_gt h.pos)

/-! ### The bits of a number -/

/-- The first bit is that of the sign. -/
theorem unpackSign_packComponents {spec : Format} (sign : Sign)
    (exponent : BitVec spec.exponentBits) (mantissa : BitVec spec.mantissaBitsWithoutImplicit) :
    unpackSign (packComponents spec sign exponent mantissa) = sign.toBitVec := by
  ext i hi
  obtain rfl := Nat.lt_one_iff.mp hi
  simp [unpackSign, packComponents, BitVec.getLsbD_append, BitVec.getElem_append]

/-- The exponent that the bits hold is never negative. -/
theorem pack_eq (h : Canonical m e) :
    UnpackedFloat.pack .binary64 (.finite .positive m e h.pos)
      = packComponents .binary64 .positive (BitVec.ofNat 11 (e + 1075).toNat)
          (BitVec.ofNat 52 m) := by
  have hexponent : (e + Format.binary64.exponentBias
      + Format.binary64.mantissaBitsWithoutImplicit).toNat = (e + 1075).toNat := by
    show (e + (1023 : Nat) + (52 : Nat)).toNat = (e + 1075).toNat
    omega
  have hfinite : ¬ 2 ^ Format.binary64.exponentBits ≤ (e + 1075).toNat + 1 := by
    have := h.greatest
    show ¬ 2 ^ 11 ≤ (e + 1075).toNat + 1
    omega
  have hdigits : 52 + 1 = Format.binary64.mantissaBits := rfl
  rw [UnpackedFloat.pack, hexponent, h.log2_eq, if_neg hfinite, if_pos hdigits]

/-- The first digit needs no bit, as it is one. -/
theorem toNat_implicit (h : Canonical m e) : (1#1 ++ BitVec.ofNat 52 m).toNat = m := by
  have := h.low
  have := h.high
  rw [BitVec.toNat_append, ← Nat.shiftLeft_add_eq_or_of_lt (BitVec.isLt _),
    BitVec.toNat_ofNat, BitVec.toNat_ofNat, Nat.shiftLeft_eq]
  omega

/-- The first and the last exponent stand for other numbers. -/
theorem ofNat_ne_of_lt {biased n : Nat} (hbiased : biased < 2 ^ 11) (hn : n < 2 ^ 11)
    (hne : biased ≠ n) : BitVec.ofNat 11 biased ≠ BitVec.ofNat 11 n := by
  intro heq
  have hsame := congrArg BitVec.toNat heq
  rw [BitVec.toNat_ofNat, BitVec.toNat_ofNat, Nat.mod_eq_of_lt hbiased,
    Nat.mod_eq_of_lt hn] at hsame
  exact hne hsame

/-- **A number is read back from its bits.** -/
theorem unpack_pack (h : Canonical m e) :
    UnpackedFloat.unpack .binary64 (UnpackedFloat.pack .binary64 (.finite .positive m e h.pos))
      = .finite .positive m e h.pos := by
  have := h.least
  have := h.greatest
  have hlast : BitVec.ofNat 11 (e + 1075).toNat ≠ -1#11 := by
    have hones : -1#11 = BitVec.ofNat 11 2047 := by decide
    rw [hones]
    exact ofNat_ne_of_lt (by omega) (by decide) (by omega)
  have hfirst : BitVec.ofNat 11 (e + 1075).toNat ≠ 0#11 :=
    ofNat_ne_of_lt (by omega) (by decide) (by omega)
  have hexponent : ((BitVec.ofNat 11 (e + 1075).toNat).toNat : Int)
      - (Format.binary64.exponentBias + Format.binary64.mantissaBitsWithoutImplicit) = e := by
    show ((BitVec.ofNat 11 (e + 1075).toNat).toNat : Int) - ((1023 : Nat) + (52 : Nat)) = e
    rw [BitVec.toNat_ofNat, Nat.mod_eq_of_lt (by omega)]
    omega
  rw [pack_eq h, UnpackedFloat.unpack]
  simp only [unpackMantissa_packComponents, unpackExponent_packComponents,
    unpackSign_packComponents]
  rw [if_neg hlast, if_neg hfirst]
  simp only [toNat_implicit h, hexponent]
  rfl

/-! ### Counts -/

/-- The digits of a count, with zeros behind them until there are enough. -/
theorem canonical_of_count {n : Nat} (hpos : 0 < n) (hlog : n.log2 ≤ 52) :
    Canonical (n * 2 ^ (52 - n.log2)) (n.log2 - 52) := by
  obtain ⟨hlow, hhigh⟩ := (Nat.log2_eq_iff (Nat.ne_of_gt hpos)).mp rfl
  refine ⟨?_, ?_, by omega, by omega⟩
  · calc 2 ^ 52 = 2 ^ n.log2 * 2 ^ (52 - n.log2) := by
          rw [← Nat.pow_add, Nat.add_sub_cancel' hlog]
      _ ≤ n * 2 ^ (52 - n.log2) := Nat.mul_le_mul_right _ hlow
  · have hdigits : n.log2 + 1 + (52 - n.log2) = 53 := by omega
    calc n * 2 ^ (52 - n.log2) < 2 ^ (n.log2 + 1) * 2 ^ (52 - n.log2) :=
          Nat.mul_lt_mul_of_pos_right hhigh (Nat.two_pow_pos _)
      _ = 2 ^ 53 := by rw [← Nat.pow_add, hdigits]

theorem value_of_count {n : Nat} (hlog : n.log2 ≤ 52) :
    value (n * 2 ^ (52 - n.log2)) (n.log2 - 52) = n := by
  have hexponent : (n.log2 : Int) - 52 = -((52 - n.log2 : Nat) : Int) := by omega
  rw [value, hexponent, zpow_neg, zpow_natCast, Nat.cast_mul, Nat.cast_pow, Nat.cast_ofNat,
    mul_inv_cancel_right₀ (by positivity)]

/-- Nothing of a count is rounded away. -/
theorem unpackedOfNat_eq {n : Nat} (hpos : 0 < n) (hlog : n.log2 ≤ 52) :
    UnpackedFloat.ofNat .binary64 n
      = .finite .positive (n * 2 ^ (52 - n.log2)) (n.log2 - 52)
          (canonical_of_count hpos hlog).pos := by
  have htarget : Format.binary64.targetExponent (totalExponent n 0) = n.log2 - 52 := by
    simp only [Format.targetExponent, totalExponent, Format.mantissaBits, Format.minExponent]
    omega
  have hshift : ((0 : Int) - (n.log2 - 52)).toNat = 52 - n.log2 := by omega
  have hexponent : (0 : Int) - (52 - n.log2 : Nat) = n.log2 - 52 := by omega
  have hcompare : compare (n : Int) 0 = .gt := by
    rw [Int.compare_eq_gt]
    omega
  have hround := roundWithAccuracy_eq (canonical_of_count hpos hlog) 0
  rw [Nat.pow_zero, Nat.mul_one, Int.natCast_zero, Int.sub_zero] at hround
  rw [UnpackedFloat.ofNat, UnpackedFloat.ofInt, UnpackedFloat.normalize, hcompare]
  show UnpackedFloat.round .binary64 .positive n 0 = _
  rw [UnpackedFloat.round, htarget, decreaseExponent, hshift, Nat.shiftLeft_eq]
  show roundWithAccuracy .binary64 .positive _ (0 - ((52 - n.log2 : Nat) : Int)) .exact = _
  rw [hexponent, hround]

/-- **A count is a number of the arithmetic**, with all its digits. -/
theorem exists_unpack_ofNat {n : Nat} (hpos : 0 < n) (hlt : n < 2 ^ 53) :
    ∃ m e, ∃ h : Canonical m e, value m e = n ∧ (-52 ≤ e ∧ e ≤ 0) ∧
      (Float.ofNat n).toModel.unpack = .finite .positive m e h.pos := by
  have hword : n.toUInt64.toNat = n := by
    rw [UInt64.toNat_ofNat']
    omega
  have hlog : n.log2 ≤ 52 := by
    have := (Nat.log2_lt (Nat.ne_of_gt hpos)).mpr hlt
    omega
  obtain ⟨m, e, h, hvalue, hexponent, hcount⟩ : ∃ m e, ∃ h : Canonical m e, value m e = n ∧
      (-52 ≤ e ∧ e ≤ 0) ∧ UnpackedFloat.ofNat .binary64 n = .finite .positive m e h.pos :=
    ⟨_, _, canonical_of_count hpos hlog, value_of_count hlog, by omega,
      unpackedOfNat_eq hpos hlog⟩
  have htoFloat : n.toUInt64.toFloat.toModel.unpack = .finite .positive m e h.pos := by
    show UnpackedFloat.unpack .binary64 (UnpackedFloat.pack .binary64
      (UnpackedFloat.ofNat .binary64 n.toUInt64.toNat)) = _
    rw [hword, hcount]
    exact unpack_pack h
  have hone : (Float.ofBits 0x3FF0000000000000).toModel.unpack
      = .finite .positive (2 ^ 52) (-52) (by decide) := rfl
  have hofNat : Float.ofNat n = n.toUInt64.toFloat * Float.ofBits 0x3FF0000000000000 := by
    show Float.ofScientific n false 0 = _
    rw [Float.ofScientific, dif_pos ⟨hlt, by decide⟩]
    rfl
  -- the product with one is rounded again, and keeps its digits again
  refine ⟨m, e, h, hvalue, hexponent, ?_⟩
  rw [hofNat]
  show UnpackedFloat.unpack .binary64 (UnpackedFloat.pack .binary64 (UnpackedFloat.mul .binary64
    n.toUInt64.toFloat.toModel.unpack (Float.ofBits 0x3FF0000000000000).toModel.unpack)) = _
  rw [htoFloat, hone]
  show UnpackedFloat.unpack .binary64 (UnpackedFloat.pack .binary64
    (roundWithAccuracy .binary64 .positive (m * 2 ^ 52) (e - (52 : Nat)) .exact)) = _
  rw [roundWithAccuracy_eq h 52]
  exact unpack_pack h

end FloatCount

end TokenAlignment
