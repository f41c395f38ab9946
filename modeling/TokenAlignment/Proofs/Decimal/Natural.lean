/-
TokenAlignment/Proofs/Decimal/Natural.lean

Numbers are read back from their digits,

    read (digits n) = ok n        for every number n of a word.

The reader checks for overflow after each digit.  The value of the digits read so far only
grows, so if the last value fits a word then all of them do (`readFrom_eq`).
-/
import TokenAlignment.Decimal.Natural

namespace TokenAlignment

namespace Natural

theorem digit?_of_isDigit {c : Char} (h : c.isDigit = true) :
    digit? c = some (c.toNat - '0'.toNat) :=
  if_pos h

theorem isDigit_of_mem_digits {n : Nat} {c : Char} (h : c ∈ digits n) : c.isDigit = true :=
  Nat.isDigit_of_mem_toDigits (by decide) (by decide) h

/-- The digits of a number begin with a zero only if there is no other one. -/
theorem head?_digits_ne {n : Nat} (hn : n ≠ 0) : (digits n).head? ≠ some '0' := by
  induction n using Nat.strongRecOn with
  | _ n ih =>
      rw [digits, Nat.toDigits_eq_if (by decide)]
      split
      · rw [List.head?_cons, Ne, Option.some.injEq, Nat.digitChar_eq_zero]
        exact hn
      · have hhead := ih (n / 10) (by omega) (by omega)
        rcases hdigits : digits (n / 10) with - | ⟨c, cs⟩
        · exact absurd hdigits Nat.toDigits_ne_nil
        · rw [show Nat.toDigits 10 (n / 10) = c :: cs from hdigits]
          rwa [hdigits] at hhead

/-- More digits never make a smaller value. -/
theorem le_ofDigitChars (cs : List Char) (value : Nat) :
    value ≤ Nat.ofDigitChars 10 cs value := by
  induction cs generalizing value with
  | nil => exact Nat.le_refl value
  | cons c cs ih =>
      rw [Nat.ofDigitChars_cons]
      exact Nat.le_trans (by omega) (ih _)

/-- **Digits are read as their value**, if that fits a word. -/
theorem readFrom_eq {cs : List Char} (hdigits : ∀ c ∈ cs, c.isDigit = true) {value : Nat}
    (hfits : Nat.ofDigitChars 10 cs value < UInt64.size) :
    readFrom value cs = .ok (UInt64.ofNat (Nat.ofDigitChars 10 cs value)) := by
  induction cs generalizing value with
  | nil => rfl
  | cons c cs ih =>
      rw [List.forall_mem_cons] at hdigits
      rw [Nat.ofDigitChars_cons, Nat.mul_comm] at hfits ⊢
      have hgrows := le_ofDigitChars cs (value * 10 + (c.toNat - '0'.toNat))
      rw [readFrom, digit?_of_isDigit hdigits.1]
      dsimp only
      rw [if_pos (Nat.lt_of_le_of_lt hgrows hfits), ih hdigits.2 hfits]

/-- A text that begins with a digit has no sign to take off. -/
theorem read_cons_of_isDigit {c : Char} (h : c.isDigit = true) (cs : List Char) :
    read (c :: cs) = readFrom 0 (c :: cs) := by
  have hsign : c ≠ '+' := by
    rintro rfl
    exact absurd h (by decide)
  rw [read]
  · intro hempty
    cases hempty
  · intro hplus
    cases hplus
    exact hsign rfl
  · intro ds hplus
    cases hplus
    exact hsign rfl

/-- **A number is read back from its digits.** -/
theorem read_digits (n : UInt64) : read (digits n.toNat) = .ok n := by
  have hdigits : ∀ c ∈ digits n.toNat, c.isDigit = true := fun c => isDigit_of_mem_digits
  have hvalue : Nat.ofDigitChars 10 (digits n.toNat) 0 = n.toNat :=
    Nat.ofDigitChars_toDigits (by decide) (by decide)
  have hread : readFrom 0 (digits n.toNat) = .ok n := by
    rw [readFrom_eq hdigits (by rw [hvalue]; exact n.toNat_lt), hvalue, UInt64.ofNat_toNat]
  rcases htext : digits n.toNat with - | ⟨c, cs⟩
  · exact absurd htext Nat.toDigits_ne_nil
  · rw [htext] at hdigits hread
    rw [read_cons_of_isDigit (hdigits c (List.mem_cons_self ..)), hread]

end Natural

end TokenAlignment
