/-
TokenAlignment/Proofs/Text/CharClasses.lean

Classes of characters that share no character.

No letter is a number, and nothing is both upper case and lower case.  Each of these is a
fact about two tables, and a table is too long to look at every character.  Since the ranges
of a table are sorted, one walk over both tables is enough:

    apart as bs   and both sorted   imply   no range of one meets a range of the other.

Main results: `not_isNumber_of_isLetter`, `not_isUppercase_of_isLowercase`.
-/
import TokenAlignment.Text.Letter
import TokenAlignment.Text.Lowercase
import TokenAlignment.Text.Number
import TokenAlignment.Text.Uppercase
import Mathlib.Data.List.Chain

namespace TokenAlignment

/-- What holds of the characters below `n`, looked at one by one. -/
theorem of_toNat_lt {P : Char → Prop} {n : Nat} (h : ∀ i < n, P (Char.ofNat i)) {c : Char}
    (hc : c.toNat < n) : P c := by
  have hchar := h c.toNat hc
  rwa [Char.ofNat_toNat] at hchar

namespace RangeTable

/-! ### Ranges of one table -/

theorem exists_range_of_holdsBetween {t : RangeTable} {n fuel lo hi : Nat}
    (h : t.holdsBetween n fuel lo hi = true) :
    ∃ range ∈ t.ranges.toList, range.1 ≤ n ∧ n ≤ range.2 := by
  induction fuel generalizing lo hi with
  | zero => cases h
  | succ fuel ih =>
      rw [holdsBetween] at h
      split at h
      · dsimp only at h
        split at h
        · cases h
        · rename_i least greatest hrange
          split at h
          · exact ih h
          split at h
          · exact ih h
          · rename_i hleast hgreatest
            refine ⟨(least, greatest), ?_, Nat.le_of_not_lt hleast,
              Nat.le_of_not_lt hgreatest⟩
            exact Array.mem_toList_iff.mpr (Array.mem_of_getElem? hrange)
      · cases h

/-- What a table holds lies in one of its ranges. -/
theorem exists_range_of_contains {t : RangeTable} {c : Char} (h : t.contains c = true) :
    ∃ range ∈ t.ranges.toList, range.1 ≤ c.toNat ∧ c.toNat ≤ range.2 :=
  exists_range_of_holdsBetween h

/-! ### Ranges of two tables -/

/-- Whether no range of one sorted list meets a range of the other: past the ranges below
the first one, the next range is above it. -/
def apart : List (Nat × Nat) → List (Nat × Nat) → Bool
  | [], _ => true
  | a :: as, bs =>
    let above := bs.dropWhile fun b => b.2 < a.1
    above.head?.all (fun b => a.2 < b.1) && apart as above

/-- The ranges are in the order of their least members. -/
abbrev Sorted (ranges : List (Nat × Nat)) : Prop :=
  ranges.IsChain fun a b => a.1 ≤ b.1

theorem Sorted.pairwise {ranges : List (Nat × Nat)} (h : Sorted ranges) :
    ranges.Pairwise fun a b => a.1 ≤ b.1 := by
  have : IsTrans (Nat × Nat) fun a b => a.1 ≤ b.1 := ⟨fun _ _ _ => Nat.le_trans⟩
  exact List.isChain_iff_pairwise.mp h

theorem lt_or_lt_of_apart {as bs : List (Nat × Nat)} (has : as.Pairwise fun a b => a.1 ≤ b.1)
    (hbs : bs.Pairwise fun a b => a.1 ≤ b.1) (h : apart as bs = true) :
    ∀ a ∈ as, ∀ b ∈ bs, a.2 < b.1 ∨ b.2 < a.1 := by
  induction as generalizing bs with
  | nil => exact fun a ha => nomatch ha
  | cons first as ih =>
      obtain ⟨hfirst, has⟩ := List.pairwise_cons.mp has
      rw [apart, Bool.and_eq_true] at h
      obtain ⟨hhead, hlater⟩ := h
      have habove := hbs.sublist (List.dropWhile_sublist fun b => b.2 < first.1)
      -- a range that is passed is below the first one, hence below all of them
      have hpassed : ∀ b ∈ bs, b ∈ bs.dropWhile (fun b => b.2 < first.1) ∨ b.2 < first.1 := by
        intro b hb
        rw [← List.takeWhile_append_dropWhile (p := fun b => b.2 < first.1) (l := bs),
          List.mem_append] at hb
        rcases hb with hb | hb
        · exact .inr (of_decide_eq_true (List.all_eq_true.mp List.all_takeWhile b hb))
        · exact .inl hb
      intro a ha b hb
      rcases hpassed b hb with hb | hbelow
      · rcases List.mem_cons.mp ha with rfl | ha
        · -- the next range is above the first one, and so are those after it
          left
          rcases hnext : bs.dropWhile (fun b => b.2 < a.1) with - | ⟨next, rest⟩
          · rw [hnext] at hb
            cases hb
          · rw [hnext] at hb hhead habove
            have hlt : a.2 < next.1 := by simpa using hhead
            rcases List.mem_cons.mp hb with rfl | hb
            · exact hlt
            · exact Nat.lt_of_lt_of_le hlt ((List.pairwise_cons.mp habove).1 b hb)
        · exact ih has habove hlater a ha b hb
      · right
        rcases List.mem_cons.mp ha with rfl | ha
        · exact hbelow
        · exact Nat.lt_of_lt_of_le hbelow (hfirst a ha)

/-- The ranges of both tables are sorted, and none of one meets one of the other. -/
def Apart (s t : RangeTable) : Prop :=
  Sorted s.ranges.toList ∧ Sorted t.ranges.toList ∧
    apart s.ranges.toList t.ranges.toList = true

instance (s t : RangeTable) : Decidable (Apart s t) :=
  inferInstanceAs (Decidable (_ ∧ _ ∧ _))

theorem Apart.not_contains {s t : RangeTable} (h : Apart s t) {c : Char}
    (hc : s.contains c = true) : ¬ t.contains c = true := by
  obtain ⟨hs, ht, hapart⟩ := h
  intro hc'
  obtain ⟨a, ha, hleast, hgreatest⟩ := exists_range_of_contains hc
  obtain ⟨b, hb, hleast', hgreatest'⟩ := exists_range_of_contains hc'
  rcases lt_or_lt_of_apart hs.pairwise ht.pairwise hapart a ha b hb with hlt | hlt
  · omega
  · omega

/-- **Classes share no character** if their tables are apart and no ASCII character is in
both. -/
theorem Apart.not_both {s t : RangeTable} (h : Apart s t) {p q : Char → Bool}
    (hascii : ∀ n < 0x80, p (Char.ofNat n) = true → ¬ q (Char.ofNat n) = true) {c : Char}
    (hc : (if c.toNat < 0x80 then p c else s.contains c) = true) :
    ¬ (if c.toNat < 0x80 then q c else t.contains c) = true := by
  split at hc
  · rename_i hsmall
    rw [if_pos hsmall]
    exact of_toNat_lt (P := fun c => p c = true → ¬ q c = true) hascii hsmall hc
  · rename_i hlarge
    rw [if_neg hlarge]
    exact h.not_contains hc

end RangeTable

/-! ### The classes -/

section Classes

variable {c : Char}

theorem not_isNumber_of_isLetter (h : isLetter c = true) : ¬ isNumber c = true := by
  have hapart : RangeTable.Apart letterTable numberTable := by decide +kernel
  exact hapart.not_both (by decide +kernel) h

theorem not_isUppercase_of_isLowercase (h : isLowercase c = true) :
    ¬ isUppercase c = true := by
  have hapart : RangeTable.Apart lowercaseTable uppercaseTable := by decide +kernel
  exact hapart.not_both (by decide +kernel) h

/-! ### ASCII -/

theorem isUpper_iff : c.isUpper = true ↔ 65 ≤ c.toNat ∧ c.toNat ≤ 90 := by
  show decide (c.val ≥ 'A'.val ∧ c.val ≤ 'Z'.val) = true ↔ _
  rw [decide_eq_true_eq]
  exact and_congr UInt32.le_iff_toNat_le UInt32.le_iff_toNat_le

theorem isLower_iff : c.isLower = true ↔ 97 ≤ c.toNat ∧ c.toNat ≤ 122 := by
  show (decide (c.val ≥ 'a'.val) && decide (c.val ≤ 'z'.val)) = true ↔ _
  rw [Bool.and_eq_true, decide_eq_true_eq, decide_eq_true_eq]
  exact and_congr UInt32.le_iff_toNat_le UInt32.le_iff_toNat_le

theorem isDigit_iff : c.isDigit = true ↔ 48 ≤ c.toNat ∧ c.toNat ≤ 57 := by
  show (decide (c.val ≥ '0'.val) && decide (c.val ≤ '9'.val)) = true ↔ _
  rw [Bool.and_eq_true, decide_eq_true_eq, decide_eq_true_eq]
  exact and_congr UInt32.le_iff_toNat_le UInt32.le_iff_toNat_le

theorem isAlpha_iff : c.isAlpha = true ↔ c.isUpper = true ∨ c.isLower = true := by
  show (c.isUpper || c.isLower) = true ↔ _
  rw [Bool.or_eq_true]

theorem isLetter_of_isAlpha (h : c.isAlpha = true) : isLetter c = true := by
  have hsmall : c.toNat < 0x80 := by
    rw [isAlpha_iff, isUpper_iff, isLower_iff] at h
    omega
  rw [isLetter, if_pos hsmall, h]

/-- A digit is no letter, and neither upper case nor lower case. -/
theorem caseless_of_isDigit (h : c.isDigit = true) :
    ¬ isUppercase c = true ∧ ¬ isLowercase c = true ∧ ¬ c.isAlpha = true := by
  have hsmall : c.toNat < 0x80 := by
    have hbounds := isDigit_iff.mp h
    omega
  revert h
  exact of_toNat_lt (P := fun c => c.isDigit = true →
    ¬ isUppercase c = true ∧ ¬ isLowercase c = true ∧ ¬ c.isAlpha = true) (by decide +kernel)
    hsmall

/-- A character that has another lower case is a capital letter. -/
theorem toLower_eq_or_isUpper (c : Char) : c.toLower = c ∨ c.isUpper = true := by
  by_cases hupper : c.val ≥ 'A'.val ∧ c.val ≤ 'Z'.val
  · right
    rw [isUpper_iff]
    exact ⟨UInt32.le_iff_toNat_le.mp hupper.1, UInt32.le_iff_toNat_le.mp hupper.2⟩
  · exact .inl (dif_neg hupper)

/-- A lower-case character is its own lower case. -/
theorem toLower_of_isLowercase (h : isLowercase c = true) : c.toLower = c := by
  apply (toLower_eq_or_isUpper c).resolve_right
  intro hupper
  have hsmall : c.toNat < 0x80 := by
    have hbounds := isUpper_iff.mp hupper
    omega
  apply not_isUppercase_of_isLowercase h
  rw [isUppercase, if_pos hsmall, hupper]

theorem isAlpha_of_isAlpha_toLower (h : c.toLower.isAlpha = true) : c.isAlpha = true := by
  rcases toLower_eq_or_isUpper c with hlower | hupper
  · rwa [hlower] at h
  · exact isAlpha_iff.mpr (.inl hupper)

end Classes

end TokenAlignment
