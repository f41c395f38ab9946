/-
TokenAlignment/Proofs/Score/FloatQuotient.lean

Quotients of counts as floating-point numbers.

The arithmetic has no number for most quotients, and takes the nearest one:

    |value (n / d) - n / d| ≤ |v - n / d|      for every number v.

This alone keeps the order of quotients.  If x < y went to numbers u > v, then x would be
above the middle of u and v and y below it, whichever way a tie is broken.  And it keeps a
quotient of different counts from becoming one: n / d is at least 1 + 1 / d, which is more
than half a step above one as long as d < 2 ^ 53.

The division carries out one digit or two more than it needs and a remainder, of which the
rounding only asks for two bits (`quotientBits_eq`).
-/
import TokenAlignment.Proofs.Score.FloatCount

namespace TokenAlignment

namespace FloatCount

open Float.Model Float.Model.UnpackedFloat

variable {m m' : Nat} {e e' : Int} {q q' u : ℚ}

/-! ### Values -/

theorem Canonical.low_le_value (h : Canonical m e) : (2 : ℚ) ^ 52 * 2 ^ e ≤ value m e := by
  have hlow : (2 : ℚ) ^ 52 ≤ m := mod_cast h.low
  exact mul_le_mul_of_nonneg_right hlow (by positivity)

theorem Canonical.value_lt_high (h : Canonical m e) : value m e < (2 : ℚ) ^ 53 * 2 ^ e := by
  have hhigh : (m : ℚ) < 2 ^ 53 := mod_cast h.high
  exact mul_lt_mul_of_pos_right hhigh (by positivity)

/-- A larger exponent outweighs all digits. -/
theorem Canonical.value_lt (h : Canonical m e) (hlt : e < e') :
    value m e < 2 ^ 52 * 2 ^ e' := by
  calc value m e < 2 ^ 53 * 2 ^ e := h.value_lt_high
    _ = 2 ^ 52 * 2 ^ (e + 1) := by
        rw [zpow_add_one₀ two_ne_zero]
        ring
    _ ≤ 2 ^ 52 * 2 ^ e' := by
        gcongr
        · exact one_le_two
        · exact hlt

/-- Numbers are ordered by their exponents, then by their digits. -/
theorem Canonical.lex_of_value_le (h : Canonical m e) (h' : Canonical m' e')
    (hle : value m e ≤ value m' e') : e < e' ∨ e = e' ∧ m ≤ m' := by
  rcases lt_trichotomy e e' with hlt | rfl | hlt
  · exact .inl hlt
  · have hpos : (0 : ℚ) < 2 ^ e := by positivity
    have hdigits : (m : ℚ) ≤ m' := le_of_mul_le_mul_right hle hpos
    exact .inr ⟨rfl, mod_cast hdigits⟩
  · have := h'.value_lt hlt
    exact absurd (hle.trans_lt (this.trans_le h.low_le_value)) (lt_irrefl _)

theorem Canonical.eq_of_value_eq (h : Canonical m e) (h' : Canonical m' e')
    (heq : value m e = value m' e') : m = m' ∧ e = e' := by
  have := h.lex_of_value_le h' heq.le
  have := h'.lex_of_value_le h heq.ge
  omega

/-! ### The nearest number -/

/-- No number is nearer to `q`. -/
structure Nearest (q : ℚ) (m : Nat) (e : Int) : Prop where
  canonical : Canonical m e
  le : ∀ {m' e'}, Canonical m' e' → |value m e - q| ≤ |value m' e' - q|

/-- **Rounding keeps the order**: what lies between two numbers is on the side of the one
that it goes to. -/
theorem Nearest.value_le (h : Nearest q m e) (h' : Nearest q' m' e') (hlt : q < q') :
    value m e ≤ value m' e' := by
  by_contra! hcross
  have hfirst := h.le h'.canonical
  have hsecond := h'.le h.canonical
  rw [← sq_le_sq] at hfirst hsecond
  have habove : value m e + value m' e' ≤ 2 * q := by nlinarith
  have hbelow : 2 * q' ≤ value m e + value m' e' := by nlinarith
  linarith

/-- What is a number is kept. -/
theorem Nearest.value_eq (h : Nearest (value m' e') m e) (h' : Canonical m' e') :
    m = m' ∧ e = e' := by
  have hzero := h.le h'
  rw [sub_self, abs_zero] at hzero
  exact h.canonical.eq_of_value_eq h' (sub_eq_zero.mp (abs_nonpos_iff.mp hzero))

/-- Half a step away, no other step is nearer. -/
theorem near_multiple {r : Nat} (hu : 0 < u) (hhalf : |r * u - q| ≤ u / 2) (k : Nat) :
    |r * u - q| ≤ |k * u - q| := by
  rcases eq_or_ne k r with rfl | hne
  · exact le_rfl
  · have hstep : (1 : ℚ) ≤ |(k : ℚ) - r| := by
      have hint : (1 : Int) ≤ |(k : Int) - r| := Int.one_le_abs (by omega)
      exact_mod_cast hint
    have hapart : u ≤ |k * u - r * u| := by
      rw [← sub_mul, abs_mul, abs_of_pos hu]
      exact le_mul_of_one_le_left hu.le hstep
    have htriangle := abs_sub_le (k * u) q (r * u)
    rw [abs_sub_comm q] at htriangle
    linarith

/-- The steps between numbers are all as long, up to the next exponent, and only shorter
below; so half a step is as near as any number comes. -/
theorem nearest_of_half {r : Nat} (h : Canonical m e) (hr : value m e = r * 2 ^ e')
    (hlow : 2 ^ 52 * 2 ^ e' ≤ q) (hhalf : |r * (2 : ℚ) ^ e' - q| ≤ 2 ^ e' / 2) :
    Nearest q m e := by
  have hu : (0 : ℚ) < 2 ^ e' := by positivity
  refine ⟨h, fun {n f} hn => ?_⟩
  rw [hr]
  rcases lt_or_ge f e' with hlt | hge
  · -- below the lowest number with this exponent
    have hbelow := hn.value_lt hlt
    have hlowest := near_multiple hu hhalf (2 ^ 52)
    rw [Nat.cast_pow, Nat.cast_ofNat, abs_of_nonpos (sub_nonpos.mpr hlow)] at hlowest
    rw [abs_of_nonpos (sub_nonpos.mpr (hbelow.le.trans hlow))]
    linarith
  · -- a multiple of the step
    obtain ⟨k, rfl⟩ := Int.le.dest hge
    have hmultiple : value n (e' + k) = (n * 2 ^ k : Nat) * 2 ^ e' := by
      rw [value, zpow_add₀ two_ne_zero, zpow_natCast]
      push_cast
      ring
    rw [hmultiple]
    exact near_multiple hu hhalf _

/-! ### Rounding -/

/-- The whole part of `a / b`, with the two bits that tell how far it is from the quotient. -/
def quotientBits (a b : Nat) : ExtendedMantissa :=
  .ofMantissaAndAccuracy (a / b) (accuracyOfFraction (a % b) b)

variable {a b : Nat}

/-- One bit tells whether half a step is left, the other whether anything else is. -/
theorem quotientBits_eq (hb : 0 < b) : quotientBits a b
    = ⟨a / b, decide (b ≤ 2 * (a % b)), decide (a % b ≠ 0 ∧ 2 * (a % b) ≠ b)⟩ := by
  rw [quotientBits, accuracyOfFraction]
  split
  case isTrue hzero =>
    simp [ExtendedMantissa.ofMantissaAndAccuracy, hzero, Nat.not_le_of_lt hb]
  case isFalse hne =>
    cases hcompare : compare (2 * (a % b)) b with
    | lt =>
        have := Nat.compare_eq_lt.mp hcompare
        simp [ExtendedMantissa.ofMantissaAndAccuracy, hne]
        omega
    | eq =>
        have := Nat.compare_eq_eq.mp hcompare
        simp [ExtendedMantissa.ofMantissaAndAccuracy]
        omega
    | gt =>
        have := Nat.compare_eq_gt.mp hcompare
        simp [ExtendedMantissa.ofMantissaAndAccuracy, hne]
        omega

/-- With one digit less, the bits are those of the quotient by twice as much. -/
theorem shiftRightOne_quotientBits (hb : 0 < b) :
    (quotientBits a b).shiftRightOne = quotientBits a (b * 2) := by
  have hmod : a % (b * 2) = a % b + b * (a / b % 2) := Nat.mod_mul
  have hlt := Nat.mod_lt a hb
  have htwice : 0 < b * 2 := by omega
  have hhalf : (a / b % 2 != 0) = decide (b * 2 ≤ 2 * (a % (b * 2))) := by
    rw [Bool.eq_iff_iff, bne_iff_ne, decide_eq_true_iff, hmod]
    rcases Nat.mod_two_eq_zero_or_one (a / b) with hlast | hlast <;> rw [hlast] <;> omega
  have hrest : (decide (b ≤ 2 * (a % b)) || decide (a % b ≠ 0 ∧ 2 * (a % b) ≠ b))
      = decide (a % (b * 2) ≠ 0 ∧ 2 * (a % (b * 2)) ≠ b * 2) := by
    rw [Bool.eq_iff_iff, Bool.or_eq_true, decide_eq_true_iff, decide_eq_true_iff,
      decide_eq_true_iff, hmod]
    rcases Nat.mod_two_eq_zero_or_one (a / b) with hlast | hlast <;> rw [hlast] <;> omega
  rw [quotientBits_eq hb, quotientBits_eq htwice, ExtendedMantissa.shiftRightOne,
    Nat.div_div_eq_div_mul, hhalf, hrest]

theorem repeat_quotientBits (hb : 0 < b) (k : Nat) :
    Nat.repeat ExtendedMantissa.shiftRightOne k (quotientBits a b)
      = quotientBits a (b * 2 ^ k) := by
  induction k with
  | zero => rw [Nat.pow_zero, Nat.mul_one, Nat.repeat]
  | succ k ih =>
      have hpos : 0 < b * 2 ^ k := Nat.mul_pos hb (Nat.two_pow_pos k)
      rw [Nat.repeat, ih, shiftRightOne_quotientBits hpos, Nat.pow_succ, Nat.mul_assoc]

/-- What the bits are rounded to is at most half a step away. -/
theorem roundedMantissa_quotientBits (hb : 0 < b) :
    (a / b ≤ (quotientBits a b).roundedMantissa
      ∧ (quotientBits a b).roundedMantissa ≤ a / b + 1) ∧
    (2 * ((quotientBits a b).roundedMantissa * b) ≤ 2 * a + b
      ∧ 2 * a ≤ 2 * ((quotientBits a b).roundedMantissa * b) + b) := by
  have hsplit := Nat.div_add_mod' a b
  have hlt := Nat.mod_lt a hb
  have hnext : (a / b + 1) * b = a / b * b + b := Nat.succ_mul _ _
  rw [quotientBits_eq hb]
  generalize hhalf : decide (b ≤ 2 * (a % b)) = half
  generalize hrest : decide (a % b ≠ 0 ∧ 2 * (a % b) ≠ b) = rest
  cases half with
  | false =>
      have hdown : (⟨a / b, false, rest⟩ : ExtendedMantissa).roundedMantissa = a / b := by
        cases rest <;> rfl
      simp only [decide_eq_false_iff_not] at hhalf
      rw [hdown]
      omega
  | true =>
      simp only [decide_eq_true_eq] at hhalf
      cases rest with
      | true =>
          have hup : (⟨a / b, true, true⟩ : ExtendedMantissa).roundedMantissa = a / b + 1 := rfl
          rw [hup]
          omega
      | false =>
          -- in the middle between two steps, either is as near
          have hmiddle : 2 * (a % b) = b := by
            simp only [decide_eq_false_iff_not] at hrest
            omega
          have heven : (⟨a / b, true, false⟩ : ExtendedMantissa).roundedMantissa
              = a / b + a / b % 2 := rfl
          rw [heven]
          rcases Nat.mod_two_eq_zero_or_one (a / b) with hlast | hlast
          · rw [hlast, Nat.add_zero]
            omega
          · rw [hlast]
            omega

theorem abs_roundedMantissa_sub_le (hb : 0 < b) :
    |((quotientBits a b).roundedMantissa : ℚ) - a / b| ≤ 1 / 2 := by
  obtain ⟨-, hbelow, habove⟩ := roundedMantissa_quotientBits (a := a) hb
  have hpos : (0 : ℚ) < b := Nat.cast_pos.mpr hb
  have hbelow' : 2 * (((quotientBits a b).roundedMantissa : ℚ) * b) ≤ 2 * a + b :=
    mod_cast hbelow
  have habove' : 2 * (a : ℚ) ≤ 2 * ((quotientBits a b).roundedMantissa * b) + b :=
    mod_cast habove
  have hquotient : (a : ℚ) / b * b = a := div_mul_cancel₀ _ hpos.ne'
  rw [abs_le]
  constructor <;> nlinarith

/-- Digits that overflow leave one with zeros behind it. -/
theorem exists_canonical_of_le {r : Nat} {f : Int} (hlow : 2 ^ 52 ≤ r) (hhigh : r ≤ 2 ^ 53)
    (hleast : -1074 < f) (hgreatest : f ≤ 970) :
    ∃ m e, ∃ k : Nat, Canonical m e ∧ r = m * 2 ^ k ∧ f = e - k := by
  rcases Nat.lt_or_eq_of_le hhigh with hlt | rfl
  · exact ⟨r, f, 0, ⟨hlow, hlt, hleast, by omega⟩, by simp, by simp⟩
  · exact ⟨2 ^ 52, f + 1, 1, ⟨by decide, by decide, by omega, by omega⟩, by decide, by simp⟩

/-- All but fifty-three digits of the whole part are shifted out. -/
theorem shiftToTargetExponent_quotient {f : Int} {k : Nat} (hb : 0 < b)
    (hlog : (a / b).log2 = 52 + k) (hleast : -1074 < f) :
    shiftToTargetExponent .binary64 (a / b) f (accuracyOfFraction (a % b) b)
      = (quotientBits a (b * 2 ^ k), f + k) := by
  have htarget : Format.binary64.targetExponent (totalExponent (a / b) f) = f + k := by
    simp only [Format.targetExponent, totalExponent, hlog, Format.mantissaBits,
      Format.minExponent]
    omega
  have hdigits : (f + k - f).toNat = k := by omega
  rw [shiftToTargetExponent, htarget, shiftToExponent, hdigits]
  show (Nat.repeat ExtendedMantissa.shiftRightOne k (quotientBits a b), f + (k : Int)) = _
  rw [repeat_quotientBits hb]

/-- **A quotient is rounded to the nearest number.** -/
theorem exists_nearest_of_quotient {f : Int} (hb : 0 < b) (hlow : 2 ^ 52 ≤ a / b)
    (hhigh : a / b < 2 ^ 54) (hleast : -1074 < f) (hgreatest : f ≤ 969) :
    ∃ m e, ∃ h : Nearest (a / b * 2 ^ f) m e,
      roundWithAccuracy .binary64 .positive (a / b) f (accuracyOfFraction (a % b) b)
        = .finite .positive m e h.canonical.pos := by
  -- the zero or one digits that are too many
  obtain ⟨k, hk, hlog⟩ : ∃ k, k ≤ 1 ∧ (a / b).log2 = 52 + k := by
    have hne : a / b ≠ 0 := by omega
    have hleast := (Nat.le_log2 hne).mpr hlow
    have hgreatest := (Nat.log2_lt hne).mpr hhigh
    exact ⟨(a / b).log2 - 52, by omega, by omega⟩
  have hdivisor : 0 < b * 2 ^ k := Nat.mul_pos hb (Nat.two_pow_pos k)
  have hwhole : 2 ^ 52 ≤ a / (b * 2 ^ k) ∧ a / (b * 2 ^ k) < 2 ^ 53 := by
    obtain ⟨hfirst, hlast⟩ := (Nat.log2_eq_iff (by omega)).mp hlog
    rw [← Nat.div_div_eq_div_mul]
    refine ⟨(Nat.le_div_iff_mul_le (Nat.two_pow_pos k)).mpr ?_,
      (Nat.div_lt_iff_lt_mul (Nat.two_pow_pos k)).mpr ?_⟩
    · rwa [← Nat.pow_add]
    · rwa [← Nat.pow_add, Nat.add_right_comm 52 1 k]
  have hshift := shiftToTargetExponent_quotient hb hlog hleast
  obtain ⟨⟨hfloor, hceil⟩, -⟩ := roundedMantissa_quotientBits (a := a) hdivisor
  have herror := abs_roundedMantissa_sub_le (a := a) hdivisor
  generalize hr : (quotientBits a (b * 2 ^ k)).roundedMantissa = r at *
  obtain ⟨m, e, j, hm, hrounded, hexponent⟩ :=
    exists_canonical_of_le (f := f + k) (hwhole.1.trans hfloor) (by omega) (by omega) (by omega)
  have hvalue : value m e = r * 2 ^ (f + k) := by
    rw [hrounded, hexponent, value, zpow_sub₀ two_ne_zero, zpow_natCast]
    push_cast
    field_simp
  have hnearest : Nearest (a / b * 2 ^ f) m e := by
    have hscale : (a / b * 2 ^ f : ℚ) = a / (b * 2 ^ k : Nat) * 2 ^ (f + k) := by
      rw [zpow_add₀ two_ne_zero, zpow_natCast]
      push_cast
      field_simp
    have hunit : (0 : ℚ) < 2 ^ (f + k) := by positivity
    rw [hscale]
    refine nearest_of_half hm hvalue (mul_le_mul_of_nonneg_right ?_ hunit.le) ?_
    · rw [le_div_iff₀ (Nat.cast_pos.mpr hdivisor)]
      exact_mod_cast (Nat.le_div_iff_mul_le hdivisor).mp hwhole.1
    · rw [← sub_mul, abs_mul, abs_of_pos hunit]
      linarith [mul_le_mul_of_nonneg_right herror hunit.le]
  have hagain := shiftToTargetExponent_eq hm j
  rw [← hrounded, ← hexponent] at hagain
  refine ⟨m, e, hnearest, ?_⟩
  simp only [roundWithAccuracy, hshift, hr, hagain]
  exact dif_neg (Nat.ne_of_gt hm.pos)

/-! ### Quotients of counts -/

theorem divCore_eq {m₁ m₂ : Nat} {e₁ e₂ : Int} (h₁ : Canonical m₁ e₁) (h₂ : Canonical m₂ e₂)
    (hleast : -1000 ≤ e₁ - e₂) :
    divCore .binary64 m₁ e₁ m₂ e₂
      = (m₁ * 2 ^ 53 / m₂, e₁ - e₂ - 53, accuracyOfFraction (m₁ * 2 ^ 53 % m₂) m₂) := by
  have htarget : min (e₁ - e₂) (Format.binary64.targetExponent
      (totalExponent m₁ e₁ - totalExponent m₂ e₂)) = e₁ - e₂ - 53 := by
    simp only [Format.targetExponent, totalExponent, h₁.log2_eq, h₂.log2_eq,
      Format.mantissaBits, Format.minExponent]
    omega
  have hshift : (e₁ - e₂ - (e₁ - e₂ - 53)).toNat = 53 := by omega
  rw [divCore, htarget, hshift, Nat.shiftLeft_eq]

/-- **The quotient of two counts is the nearest number.** -/
theorem exists_nearest_div {n d : Nat} (hn : 0 < n) (hnlt : n < 2 ^ 53) (hd : 0 < d)
    (hdlt : d < 2 ^ 53) :
    ∃ m e, ∃ h : Nearest (n / d) m e, Float.ofNat n / Float.ofNat d
      = .ofModel (.pack (.finite .positive m e h.canonical.pos)) := by
  obtain ⟨m₁, e₁, h₁, hexact₁, ⟨hleast₁, hgreatest₁⟩, hunpack₁⟩ := exists_unpack_ofNat hn hnlt
  obtain ⟨m₂, e₂, h₂, hexact₂, ⟨hleast₂, hgreatest₂⟩, hunpack₂⟩ := exists_unpack_ofNat hd hdlt
  have hlow : 2 ^ 52 ≤ m₁ * 2 ^ 53 / m₂ := by
    rw [Nat.le_div_iff_mul_le h₂.pos]
    have := h₁.low
    have := h₂.high
    omega
  have hhigh : m₁ * 2 ^ 53 / m₂ < 2 ^ 54 := by
    rw [Nat.div_lt_iff_lt_mul h₂.pos]
    have := h₁.high
    have := h₂.low
    omega
  obtain ⟨m, e, h, hround⟩ := exists_nearest_of_quotient (f := e₁ - e₂ - 53) h₂.pos hlow hhigh
    (by omega) (by omega)
  have hquotient : ((m₁ * 2 ^ 53 : Nat) / m₂ * 2 ^ (e₁ - e₂ - 53) : ℚ) = n / d := by
    rw [← hexact₁, ← hexact₂, value, value, zpow_sub₀ two_ne_zero, zpow_sub₀ two_ne_zero]
    push_cast
    field_simp
  rw [hquotient] at h
  refine ⟨m, e, h, ?_⟩
  have hdiv : UnpackedFloat.div .binary64 (.finite .positive m₁ e₁ h₁.pos)
      (.finite .positive m₂ e₂ h₂.pos) = .finite .positive m e h.canonical.pos := by
    rw [UnpackedFloat.div, divCore_eq h₁ h₂ (by omega)]
    exact hround
  show Float.ofModel (Float.Model.pack (UnpackedFloat.div .binary64
    (Float.ofNat n).toModel.unpack (Float.ofNat d).toModel.unpack)) = _
  rw [hunpack₁, hunpack₂, hdiv]

/-- Numbers are compared as their values are. -/
theorem le_of_value_le (h : Canonical m e) (h' : Canonical m' e') (hle : value m e ≤ value m' e') :
    Float.ofModel (.pack (.finite .positive m e h.pos))
      ≤ Float.ofModel (.pack (.finite .positive m' e' h'.pos)) := by
  have hcompare : ((compare e e').then (compare m m')).isLE = true := by
    rcases h.lex_of_value_le h' hle with hlt | ⟨rfl, hdigits⟩
    · rw [Int.compare_eq_lt.mpr hlt]
      rfl
    · rw [Int.compare_eq_eq.mpr rfl, Ordering.then, Nat.isLE_compare]
      exact hdigits
  have hunpack {n : Nat} {f : Int} (h : Canonical n f) :
      (Float.ofModel (.pack (.finite .positive n f h.pos))).toModel.unpack
        = .finite .positive n f h.pos := unpack_pack h
  show Float.le _ _ = true
  rw [Float.le, decide_eq_true_iff]
  show UnpackedFloat.le (Float.Model.unpack _) (Float.Model.unpack _) = true
  rw [hunpack h, hunpack h']
  exact hcompare

variable {n n' d : Nat}

/-- **Quotients of counts are in the order of their numerators.** -/
theorem ofNat_div_le (hle : n ≤ n') (hn : 0 < n) (hn' : n' < 2 ^ 53) (hd : 0 < d)
    (hdlt : d < 2 ^ 53) :
    Float.ofNat n / Float.ofNat d ≤ Float.ofNat n' / Float.ofNat d := by
  obtain ⟨m, e, h, heq⟩ := exists_nearest_div hn (by omega) hd hdlt
  rcases Nat.eq_or_lt_of_le hle with rfl | hlt
  · rw [heq]
    exact le_of_value_le h.canonical h.canonical le_rfl
  · obtain ⟨m', e', h', heq'⟩ := exists_nearest_div (by omega) hn' hd hdlt
    have hquotients : (n / d : ℚ) < n' / d := by
      have hpos : (0 : ℚ) < d := Nat.cast_pos.mpr hd
      gcongr
    rw [heq, heq']
    exact le_of_value_le h.canonical h'.canonical (h.value_le h' hquotients)

/-- The digits of one. -/
theorem canonical_one : Canonical (2 ^ 52) (-52) :=
  ⟨by decide, by decide, by decide, by decide⟩

theorem value_one : value (2 ^ 52) (-52) = 1 := by
  norm_num [value]

/-- **A quotient of counts is one** just if they are equal. -/
theorem ofNat_div_eq_one_iff (hdn : d ≤ n) (hn : n < 2 ^ 53) (hd : 0 < d) :
    Float.ofNat n / Float.ofNat d = 1 ↔ n = d := by
  obtain ⟨m, e, h, heq⟩ := exists_nearest_div (by omega) hn hd (by omega)
  rw [heq]
  constructor
  · intro hone
    have hnumber := congrArg (fun x => x.toModel.unpack) hone
    have hdigits : UnpackedFloat.finite .positive m e h.canonical.pos
        = .finite .positive (2 ^ 52) (-52) canonical_one.pos :=
      (unpack_pack h.canonical).symm.trans hnumber
    obtain ⟨-, rfl, rfl⟩ := UnpackedFloat.finite.inj hdigits
    by_contra hne
    -- the next number after one is nearer
    have hnext : Canonical (2 ^ 52 + 1) (-52) := ⟨by decide, by decide, by decide, by decide⟩
    have hnearer := h.le hnext
    have hpos : (0 : ℚ) < d := Nat.cast_pos.mpr hd
    have hstep : (1 : ℚ) / 2 ^ 53 < 1 / d := by
      rw [one_div_lt_one_div (by positivity) hpos]
      exact_mod_cast Nat.lt_of_le_of_lt hdn hn
    have habove : 1 + 1 / (d : ℚ) ≤ n / d := by
      calc 1 + 1 / (d : ℚ) = (d + 1 : Nat) / d := by
            push_cast
            field_simp
        _ ≤ n / d := by
            gcongr
            omega
    have hvalue : value (2 ^ 52 + 1) (-52) = 1 + 2 * (1 / 2 ^ 53) := by
      norm_num [value]
    rw [value_one, hvalue, ← sq_le_sq] at hnearer
    nlinarith
  · rintro rfl
    rw [div_self (Nat.cast_ne_zero.mpr hd.ne'), ← value_one] at h
    obtain ⟨rfl, rfl⟩ := h.value_eq canonical_one
    rfl

end FloatCount

end TokenAlignment
