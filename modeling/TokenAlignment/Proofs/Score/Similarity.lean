/-
TokenAlignment/Proofs/Score/Similarity.lean

Similarities of sets, and their means, in exact arithmetic.

    jaccard a b  =  |A ∩ B| / |A ∪ B|       A, B the sets of the elements of a, b
    mean xs      =  Σ xs / |xs|

Both lie between zero and one, and take these values only where they should: two lists are
entirely similar if they have the same elements and have some, and not similar at all if
they share none; a mean is one, or zero, if everything that goes into it is.
-/
import Mathlib.Algebra.Order.BigOperators.Group.List
import Mathlib.Algebra.Order.Field.Basic
import Mathlib.Algebra.Order.Ring.Rat
import Mathlib.Data.Finset.Card
import Mathlib.Tactic.Linarith
import TokenAlignment.Score.Identifiers

namespace TokenAlignment

/-- In exact arithmetic a quotient by zero is zero as it is. -/
theorem ratio_rat (num den : Nat) : Scalar.ratio ℚ num den = (num : ℚ) / (den : ℚ) := by
  rw [Scalar.ratio]
  split
  · rename_i h
    rw [h, Nat.cast_zero, div_zero]
  · rfl

/-! ### Similarity -/

section Jaccard

variable {β : Type} [DecidableEq β] {a b : List β}

@[simp] theorem mem_distinct {x : β} : x ∈ distinct a ↔ x ∈ a := by
  induction a with
  | nil => rfl
  | cons y a ih =>
      rw [distinct]
      split
      · rename_i hmem
        rw [ih, List.mem_cons]
        exact ⟨.inr, fun h => h.elim (fun heq => heq ▸ hmem) id⟩
      · rw [List.mem_cons, List.mem_cons, ih]

theorem nodup_distinct (a : List β) : (distinct a).Nodup := by
  induction a with
  | nil => exact List.nodup_nil
  | cons y a ih =>
      rw [distinct]
      split
      · exact ih
      · rename_i hmem
        exact List.nodup_cons.mpr ⟨mt mem_distinct.mp hmem, ih⟩

theorem length_distinct (a : List β) : (distinct a).length = a.toFinset.card := by
  rw [← List.toFinset_card_of_nodup (nodup_distinct a)]
  exact congrArg Finset.card (by ext x; simp)

/-- **The similarity of two lists is that of their sets.** -/
theorem jaccard_rat (a b : List β) : jaccard ℚ a b
    = ((a.toFinset ∩ b.toFinset).card : ℚ) / ((a.toFinset ∪ b.toFinset).card : ℚ) := by
  have hcommon : ((distinct a).filter (· ∈ distinct b)).length
      = (a.toFinset ∩ b.toFinset).card := by
    rw [← List.toFinset_card_of_nodup ((nodup_distinct a).filter _)]
    exact congrArg Finset.card (by ext x; simp)
  rw [jaccard, hcommon, length_distinct, length_distinct, ← Finset.card_union, ratio_rat]

theorem jaccard_nonneg : 0 ≤ jaccard ℚ a b := by
  rw [jaccard_rat]
  exact div_nonneg (Nat.cast_nonneg _) (Nat.cast_nonneg _)

theorem jaccard_le_one : jaccard ℚ a b ≤ 1 := by
  rw [jaccard_rat]
  refine div_le_one_of_le₀ (Nat.cast_le.mpr (Finset.card_le_card ?_)) (Nat.cast_nonneg _)
  exact Finset.inter_subset_left.trans Finset.subset_union_left

/-- **Entirely similar**: the same elements, and at least one. -/
theorem jaccard_eq_one_iff :
    jaccard ℚ a b = 1 ↔ a.toFinset = b.toFinset ∧ a.toFinset.Nonempty := by
  rw [jaccard_rat]
  constructor
  · intro h
    have hunion : ((a.toFinset ∪ b.toFinset).card : ℚ) ≠ 0 := by
      intro hzero
      rw [hzero, div_zero] at h
      exact zero_ne_one h
    rw [div_eq_one_iff_eq hunion, Nat.cast_inj] at h
    -- as many elements in both as in either: then there are no others
    have hall : a.toFinset ∩ b.toFinset = a.toFinset ∪ b.toFinset :=
      Finset.eq_of_subset_of_card_le
        (Finset.inter_subset_left.trans Finset.subset_union_left) (Nat.le_of_eq h.symm)
    have heq : a.toFinset = b.toFinset := inf_eq_sup.mp hall
    refine ⟨heq, ?_⟩
    rw [← heq, Finset.union_self] at hunion
    exact Finset.card_ne_zero.mp (Nat.cast_ne_zero.mp hunion)
  · rintro ⟨heq, hne⟩
    rw [← heq, Finset.inter_self, Finset.union_self]
    exact div_self (Nat.cast_ne_zero.mpr hne.card_ne_zero)

/-- **Not similar at all**: no element in common. -/
theorem jaccard_eq_zero_iff : jaccard ℚ a b = 0 ↔ Disjoint a.toFinset b.toFinset := by
  rw [jaccard_rat, div_eq_zero_iff, Nat.cast_eq_zero, Nat.cast_eq_zero, Finset.card_eq_zero,
    Finset.card_eq_zero, Finset.disjoint_iff_inter_eq_empty]
  constructor
  · rintro (hinter | hunion)
    · exact hinter
    · rw [Finset.union_eq_empty] at hunion
      rw [hunion.1, Finset.empty_inter]
  · exact .inl

end Jaccard

/-! ### Means -/

section Sums

variable {values : List ℚ}

theorem sum_nonneg_of_unit (h : ∀ x ∈ values, 0 ≤ x ∧ x ≤ 1) : 0 ≤ values.sum :=
  List.sum_nonneg fun x hx => (h x hx).1

theorem sum_le_length_of_unit (h : ∀ x ∈ values, 0 ≤ x ∧ x ≤ 1) :
    values.sum ≤ (values.length : ℚ) := by
  simpa using List.sum_le_card_nsmul values 1 fun x hx => (h x hx).2

theorem sum_eq_zero_iff_of_unit (h : ∀ x ∈ values, 0 ≤ x ∧ x ≤ 1) :
    values.sum = 0 ↔ ∀ x ∈ values, x = 0 := by
  induction values with
  | nil => simp
  | cons x values ih =>
      rw [List.forall_mem_cons] at h
      have hrest := sum_nonneg_of_unit h.2
      rw [List.sum_cons, List.forall_mem_cons, ← ih h.2]
      constructor
      · intro hsum
        constructor <;> linarith [h.1.1]
      · rintro ⟨hx, hsum⟩
        rw [hx, hsum, add_zero]

theorem sum_eq_length_iff_of_unit (h : ∀ x ∈ values, 0 ≤ x ∧ x ≤ 1) :
    values.sum = (values.length : ℚ) ↔ ∀ x ∈ values, x = 1 := by
  induction values with
  | nil => simp
  | cons x values ih =>
      rw [List.forall_mem_cons] at h
      have hrest := sum_le_length_of_unit h.2
      rw [List.sum_cons, List.forall_mem_cons, ← ih h.2, List.length_cons, Nat.cast_succ]
      constructor
      · intro hsum
        constructor <;> linarith [h.1.2]
      · rintro ⟨hx, hsum⟩
        rw [hx, hsum, add_comm]

end Sums

namespace IdentifierScores

variable {values : List ℚ}

theorem mean_rat (values : List ℚ) : mean values = values.sum / (values.length : ℚ) := by
  rw [mean]
  split
  · rename_i h
    rw [List.isEmpty_iff.mp h, List.length_nil, Nat.cast_zero, div_zero]
  · rw [← List.sum_eq_foldl]
    rfl

/-- **A mean of numbers between zero and one is such a number.** -/
theorem mean_mem_unit (h : ∀ x ∈ values, 0 ≤ x ∧ x ≤ 1) : 0 ≤ mean values ∧ mean values ≤ 1 := by
  rw [mean_rat]
  exact ⟨div_nonneg (sum_nonneg_of_unit h) (Nat.cast_nonneg _),
    div_le_one_of_le₀ (sum_le_length_of_unit h) (Nat.cast_nonneg _)⟩

theorem mean_eq_one_iff (h : ∀ x ∈ values, 0 ≤ x ∧ x ≤ 1) (hne : values ≠ []) :
    mean values = 1 ↔ ∀ x ∈ values, x = 1 := by
  have hlength : (values.length : ℚ) ≠ 0 :=
    Nat.cast_ne_zero.mpr (List.length_pos_iff.mpr hne).ne'
  rw [mean_rat, div_eq_one_iff_eq hlength, sum_eq_length_iff_of_unit h]

theorem mean_eq_zero_iff (h : ∀ x ∈ values, 0 ≤ x ∧ x ≤ 1) :
    mean values = 0 ↔ ∀ x ∈ values, x = 0 := by
  rw [mean_rat, div_eq_zero_iff, sum_eq_zero_iff_of_unit h, Nat.cast_eq_zero,
    List.length_eq_zero_iff]
  exact or_iff_left_of_imp fun hnil => by simp [hnil]

end IdentifierScores

end TokenAlignment
