/-
TokenAlignment/Proofs/Score/Partition.lean

What the halving search finds.

If a test holds of some beginning of a sequence and of nothing after it, the partition
point is the length of that beginning.  Two such tests cut a slice out of the sequence,

    xs[point p .. point q]  =  the elements that pass q and not p,

also where the second point lies before the first: then nothing passes q and not p.

Design.  "Some beginning passes" is said of pairs, `xs.Pairwise (p y → p x)`, so that it is
inherited by every part of the sequence.
-/
import TokenAlignment.Score.Partition
import Mathlib.Data.List.Basic

namespace TokenAlignment

variable {β : Type} {p q : β → Bool}

/-! ### The search -/

section Search

variable {xs : Array β} {n : Nat}

/-- The search keeps the point in the stretch that is left. -/
theorem partitionFrom_bounds (h : ∀ i, passesAt p xs i = true ↔ i < n) {base size : Nat}
    (hbase : base ≤ n) (hstop : n ≤ base + size) :
    partitionFrom p xs base size ≤ n ∧ n ≤ partitionFrom p xs base size + 1 := by
  fun_induction partitionFrom p xs base size with
  | case1 base size hsize half ih =>
      have hhalf : half = size / 2 := rfl
      simp only [dite_eq_ite] at ih
      by_cases hpass : passesAt p xs (base + half) = true
      · rw [if_pos hpass] at ih ⊢
        have hmiddle : base + half < n := (h _).mp hpass
        exact ih (by omega) (by omega)
      · rw [if_neg hpass] at ih ⊢
        have hmiddle : ¬ base + half < n := fun hlt => hpass ((h _).mpr hlt)
        exact ih (by omega) (by omega)
  | case2 base size hsize => omega

theorem partitionPoint_eq (h : ∀ i, passesAt p xs i = true ↔ i < n) (hn : n ≤ xs.size) :
    partitionPoint p xs = n := by
  obtain ⟨hle, hge⟩ := partitionFrom_bounds h (Nat.zero_le n) (by omega : n ≤ 0 + xs.size)
  have hlast := h (partitionFrom p xs 0 xs.size)
  rw [partitionPoint]
  split
  · rename_i hpass
    rw [hlast] at hpass
    omega
  · rename_i hpass
    rw [hlast] at hpass
    omega

end Search

/-! ### Beginnings of a sequence -/

variable {xs : List β}

/-- What passes stands before what does not. -/
theorem filter_append_filter_not (h : xs.Pairwise fun x y => p y = true → p x = true) :
    xs.filter p ++ xs.filter (!p ·) = xs := by
  induction xs with
  | nil => rfl
  | cons x xs ih =>
      obtain ⟨hx, hxs⟩ := List.pairwise_cons.mp h
      by_cases hpass : p x = true
      · rw [List.filter_cons_of_pos hpass, List.filter_cons_of_neg (by simp [hpass]),
          List.cons_append, ih hxs]
      · have hnone : ∀ y ∈ xs, ¬ p y = true := fun y hy hpy => hpass (hx y hy hpy)
        have hall : ∀ y ∈ xs, (!p y) = true := fun y hy => by simp [hnone y hy]
        rw [List.filter_cons_of_neg hpass, List.filter_cons_of_pos (by simp [hpass]),
          List.filter_eq_nil_iff.mpr hnone, List.filter_eq_self.mpr hall, List.nil_append]

theorem take_length_filter (h : xs.Pairwise fun x y => p y = true → p x = true) :
    xs.take (xs.filter p).length = xs.filter p := by
  conv_lhs => rw [← filter_append_filter_not h]
  rw [List.filter_append, List.filter_filter, List.filter_filter]
  simp

/-- **The search counts what passes.** -/
theorem partitionPoint_toArray (h : xs.Pairwise fun x y => p y = true → p x = true) :
    partitionPoint p xs.toArray = (xs.filter p).length := by
  apply partitionPoint_eq _ (List.length_filter_le ..)
  intro i
  rw [passesAt, List.getElem?_toArray]
  conv_lhs => rw [← filter_append_filter_not h]
  rcases Nat.lt_or_ge i (xs.filter p).length with hi | hi
  · rw [List.getElem?_append_left hi, List.getElem?_eq_getElem hi, Option.any_some]
    have hpass := (List.mem_filter.mp (List.getElem_mem hi)).2
    exact iff_of_true hpass hi
  · rw [List.getElem?_append_right hi]
    apply iff_of_false _ (Nat.not_lt.mpr hi)
    intro hany
    rw [Option.any_eq_true] at hany
    obtain ⟨y, hy, hpass⟩ := hany
    have hfail := (List.mem_filter.mp (List.mem_of_getElem? hy)).2
    rw [hpass] at hfail
    cases hfail

/-- **Two searches cut out what passes the second test and not the first.** -/
theorem extract_partitionPoint (hp : xs.Pairwise fun x y => p y = true → p x = true)
    (hq : xs.Pairwise fun x y => q y = true → q x = true) :
    (xs.toArray.extract (partitionPoint p xs.toArray) (partitionPoint q xs.toArray)).toList
      = xs.filter fun x => q x && !p x := by
  have hsplit := filter_append_filter_not hp
  have hslice : (xs.toArray.extract (xs.filter p).length (xs.filter q).length).toList
      = ((xs.filter p ++ xs.filter (!p ·)).filter q).drop (xs.filter p).length := by
    rw [hsplit, List.extract_toArray, List.extract_eq_take_drop, ← List.drop_take,
      take_length_filter hq]
  rw [partitionPoint_toArray hp, partitionPoint_toArray hq, hslice, ← List.filter_filter,
    List.filter_append]
  rw [← hsplit] at hq
  rcases List.eq_nil_or_concat ((xs.filter (!p ·)).filter q) with hnone | ⟨_, y, hsome⟩
  · -- the second point is not behind the first
    rw [hnone, List.append_nil]
    exact List.drop_of_length_le (List.length_filter_le ..)
  · -- whatever passes both tests stands before `y`
    have hy : y ∈ (xs.filter (!p ·)).filter q := by simp [hsome]
    obtain ⟨hyfail, hypass⟩ := List.mem_filter.mp hy
    have hall : ∀ x ∈ xs.filter p, q x = true :=
      fun x hx => (List.pairwise_append.mp hq).2.2 x hx y hyfail hypass
    rw [List.filter_eq_self.mpr hall, List.drop_left]

end TokenAlignment
