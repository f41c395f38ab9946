/-
TokenAlignment/Proofs/SpanChain.lean

Chains of spans: each span starts where the one before it stops.

    Chain a [s₁, …, sₙ] b   iff   a = s₁.start, s₁.stop = s₂.start, …, sₙ.stop = b

A chain is a partition of the offsets `a ≤ i < b`: each of them lies in exactly
one span (`Chain.filter_holds`).  Empty spans may stand anywhere in a chain, and
they hold no offset.

Things with spans of their own, in order and none of them empty, are dealt out by a
chain: each goes to the one span that contains it, or to none if a boundary of the
chain cuts it (`Chain.flatMap_filter`, `Chain.exists_contains`).
-/
import TokenAlignment.Span
import Mathlib.Algebra.GroupWithZero.Nat

namespace TokenAlignment

namespace Span

/-- Whether the byte at offset `i` is one of the span. -/
def holds (s : Span) (i : Nat) : Bool :=
  s.start ≤ i && i < s.stop

@[simp] theorem holds_iff (s : Span) (i : Nat) :
    s.holds i = true ↔ s.start ≤ i ∧ i < s.stop := by
  simp [holds]

@[simp] theorem contains_iff (s t : Span) :
    s.contains t = true ↔ s.start ≤ t.start ∧ t.stop ≤ s.stop := by
  simp [contains]

/-- The span of some bytes from an offset on. -/
def wide (start width : Nat) : Span :=
  ⟨start, start + width, Nat.le_add_right ..⟩

theorem intersect?_eq_some_iff {s bounds cut : Span} : s.intersect? bounds = some cut ↔
    cut.start = max s.start bounds.start ∧ cut.stop = min s.stop bounds.stop ∧
      cut.start < cut.stop := by
  obtain ⟨start, stop, hle⟩ := cut
  rw [intersect?]
  split
  · rename_i hshared
    rw [Option.some.injEq, mk.injEq]
    show _ ↔ start = _ ∧ stop = _ ∧ start < stop
    omega
  · rename_i hapart
    refine iff_of_false (by simp) ?_
    rintro ⟨rfl, rfl, hlt⟩
    exact hapart hlt

theorem intersect?_eq_none_iff {s bounds : Span} : s.intersect? bounds = none ↔
    ¬ max s.start bounds.start < min s.stop bounds.stop := by
  simp [intersect?]

/-- The spans follow each other without a gap, from offset `a` to offset `b`. -/
def Chain (a : Nat) : List Span → Nat → Prop
  | [], b => a = b
  | s :: spans, b => s.start = a ∧ Chain s.stop spans b

/-! ### Building chains -/

/-- A span goes on where the chain before it stops. -/
theorem chain_concat {spans : List Span} {s : Span} {a b : Nat} :
    Chain a (spans ++ [s]) b ↔ Chain a spans s.start ∧ s.stop = b := by
  induction spans generalizing a with
  | nil => simp [Chain, eq_comm]
  | cons s' spans ih => simp [Chain, ih, and_assoc]

theorem Chain.le {spans : List Span} {a b : Nat} (h : Chain a spans b) : a ≤ b := by
  induction spans generalizing a with
  | nil => exact Nat.le_of_eq h
  | cons s spans ih =>
      obtain ⟨rfl, hrest⟩ := h
      exact Nat.le_trans s.start_le_stop (ih hrest)

theorem Chain.stop_le {spans : List Span} {a b : Nat} (h : Chain a spans b) {s : Span}
    (hs : s ∈ spans) : s.stop ≤ b := by
  induction spans generalizing a with
  | nil => simp at hs
  | cons s' spans ih =>
      obtain ⟨-, hrest⟩ := h
      rcases List.mem_cons.mp hs with rfl | hs
      · exact hrest.le
      · exact ih hrest hs

theorem Chain.le_start {spans : List Span} {a b : Nat} (h : Chain a spans b) {s : Span}
    (hs : s ∈ spans) : a ≤ s.start := by
  induction spans generalizing a with
  | nil => simp at hs
  | cons s' spans ih =>
      obtain ⟨rfl, hrest⟩ := h
      rcases List.mem_cons.mp hs with rfl | hs
      · exact Nat.le_refl _
      · exact Nat.le_trans s'.start_le_stop (ih hrest hs)

/-- The spans of a chain are in order. -/
theorem Chain.pairwise {spans : List Span} {a b : Nat} (h : Chain a spans b) :
    spans.Pairwise fun s t => s.stop ≤ t.start := by
  induction spans generalizing a with
  | nil => exact .nil
  | cons s spans ih =>
      obtain ⟨rfl, hrest⟩ := h
      exact List.pairwise_cons.mpr ⟨fun t ht => hrest.le_start ht, ih hrest⟩

/-- Both the starts and the stops of the spans go up. -/
def Ascending (spans : List Span) : Prop :=
  spans.Pairwise fun s t => s.start ≤ t.start ∧ s.stop ≤ t.stop

instance (spans : List Span) : Decidable (Ascending spans) :=
  inferInstanceAs (Decidable (spans.Pairwise fun s t => s.start ≤ t.start ∧ s.stop ≤ t.stop))

theorem Chain.ascending {spans : List Span} {a b : Nat} (h : Chain a spans b) :
    Ascending spans := by
  refine h.pairwise.imp ?_
  intro s t hst
  exact ⟨Nat.le_trans s.start_le_stop hst, Nat.le_trans hst t.start_le_stop⟩

/-- The spans that stop early come first, ... -/
theorem Ascending.stop_le {spans : List Span} (h : Ascending spans) (offset : Nat) :
    spans.Pairwise fun s t => (t.stop ≤ offset : Bool) = true → (s.stop ≤ offset : Bool) = true := by
  refine h.imp ?_
  intro s t hst hstop
  simp only [decide_eq_true_eq] at hstop ⊢
  exact Nat.le_trans hst.2 hstop

/-- ... and so do those that start early. -/
theorem Ascending.start_lt {spans : List Span} (h : Ascending spans) (offset : Nat) :
    spans.Pairwise fun s t =>
      (t.start < offset : Bool) = true → (s.start < offset : Bool) = true := by
  refine h.imp ?_
  intro s t hst hstart
  simp only [decide_eq_true_eq] at hstart ⊢
  exact Nat.lt_of_le_of_lt hst.1 hstart

/-- A chain is as long as its spans together. -/
theorem Chain.add_sum_length {spans : List Span} {a b : Nat} (h : Chain a spans b) :
    a + (spans.map Span.length).sum = b := by
  induction spans generalizing a with
  | nil => exact h
  | cons s spans ih =>
      obtain ⟨rfl, hrest⟩ := h
      have := s.start_le_stop
      rw [List.map_cons, List.sum_cons, ← ih hrest, length]
      omega

/-! ### The span of an offset -/

/-- Nothing in a chain lies before its start. -/
theorem Chain.not_holds {spans : List Span} {a b i : Nat} (h : Chain a spans b)
    (hi : i < a) : ∀ s ∈ spans, ¬ s.holds i = true := by
  induction spans generalizing a with
  | nil => simp
  | cons s spans ih =>
      obtain ⟨rfl, hrest⟩ := h
      intro s' hs'
      rcases List.mem_cons.mp hs' with rfl | hs'
      · simp only [holds_iff]
        omega
      · exact ih hrest (Nat.lt_of_lt_of_le hi s.start_le_stop) s' hs'

/-- **A chain is a partition**: exactly one of its spans holds an offset between
its ends. -/
theorem Chain.filter_holds {spans : List Span} {a b i : Nat} (h : Chain a spans b)
    (ha : a ≤ i) (hb : i < b) : ∃ s, spans.filter (·.holds i) = [s] := by
  induction spans generalizing a with
  | nil =>
      have : a = b := h
      omega
  | cons s spans ih =>
      obtain ⟨rfl, hrest⟩ := h
      by_cases hi : i < s.stop
      · have hnone : spans.filter (·.holds i) = [] :=
          List.filter_eq_nil_iff.mpr (hrest.not_holds hi)
        exact ⟨s, by rw [List.filter_cons_of_pos (by simp [ha, hi]), hnone]⟩
      · obtain ⟨s', hs'⟩ := ih hrest (Nat.le_of_not_lt hi)
        exact ⟨s', by rw [List.filter_cons_of_neg (by simp [hi]), hs']⟩

/-! ### Boundaries -/

/-- A span starts or stops at the offset. -/
def IsBoundary (spans : List Span) (i : Nat) : Prop :=
  ∃ s ∈ spans, s.start = i ∨ s.stop = i

/-- No boundary lies strictly inside the span `s`. -/
def Uncut (spans : List Span) (s : Span) : Prop :=
  ∀ i, IsBoundary spans i → ¬ (s.start < i ∧ i < s.stop)

instance (spans : List Span) (i : Nat) : Decidable (IsBoundary spans i) :=
  inferInstanceAs (Decidable (∃ s ∈ spans, s.start = i ∨ s.stop = i))

theorem uncut_iff {spans : List Span} {s : Span} :
    Uncut spans s ↔ ∀ t ∈ spans, ¬ (s.start < t.start ∧ t.start < s.stop) ∧
      ¬ (s.start < t.stop ∧ t.stop < s.stop) := by
  constructor
  · intro h t ht
    exact ⟨h t.start ⟨t, ht, .inl rfl⟩, h t.stop ⟨t, ht, .inr rfl⟩⟩
  · rintro h i ⟨t, ht, rfl | rfl⟩
    · exact (h t ht).1
    · exact (h t ht).2

instance (spans : List Span) (s : Span) : Decidable (Uncut spans s) :=
  decidable_of_iff _ uncut_iff.symm

theorem IsBoundary.start {spans : List Span} {s : Span} (h : s ∈ spans) :
    IsBoundary spans s.start :=
  ⟨s, h, .inl rfl⟩

theorem IsBoundary.stop {spans : List Span} {s : Span} (h : s ∈ spans) :
    IsBoundary spans s.stop :=
  ⟨s, h, .inr rfl⟩

/-- The spans of a chain do not cut each other. -/
theorem Chain.uncut {spans : List Span} {a b : Nat} (h : Chain a spans b) {s : Span}
    (hs : s ∈ spans) : Uncut spans s := by
  induction spans generalizing a with
  | nil => cases hs
  | cons t spans ih =>
      obtain ⟨-, hrest⟩ := h
      rintro i ⟨u, hu, hi⟩ hinside
      have := u.start_le_stop
      rcases List.mem_cons.mp hs with rfl | hs'
      · rcases List.mem_cons.mp hu with rfl | hu'
        · omega
        · have := hrest.le_start hu'
          omega
      · rcases List.mem_cons.mp hu with rfl | hu'
        · have := hrest.le_start hs'
          omega
        · exact ih hrest hs' i ⟨u, hu', hi⟩ hinside

/-- **What no boundary cuts lies in one span.** -/
theorem Chain.exists_contains {spans : List Span} {a b : Nat} (h : Chain a spans b) {s : Span}
    (hpos : s.start < s.stop) (ha : a ≤ s.start) (hb : s.stop ≤ b) (huncut : Uncut spans s) :
    ∃ t ∈ spans, t.contains s = true := by
  obtain ⟨t, ht⟩ := h.filter_holds ha (Nat.lt_of_lt_of_le hpos hb)
  have hmem : t ∈ spans.filter (·.holds s.start) := by simp [ht]
  obtain ⟨hspan, hholds⟩ := List.mem_filter.mp hmem
  rw [holds_iff] at hholds
  have hstop := huncut t.stop (.stop hspan)
  exact ⟨t, hspan, (contains_iff ..).mpr (by omega)⟩

/-! ### Dealing out -/

theorem filter_or_eq_append {β : Type} {p q : β → Bool} {xs : List β}
    (hdisjoint : ∀ x ∈ xs, p x = true → ¬ q x = true)
    (hsorted : xs.Pairwise fun x y => q x = true → ¬ p y = true) :
    (xs.filter fun x => p x || q x) = xs.filter p ++ xs.filter q := by
  induction xs with
  | nil => rfl
  | cons x xs ih =>
      rw [List.forall_mem_cons] at hdisjoint
      obtain ⟨hx, hxs⟩ := List.pairwise_cons.mp hsorted
      have hrest := ih hdisjoint.2 hxs
      by_cases hp : p x = true
      · simp [hp, hdisjoint.1 hp, hrest]
      by_cases hq : q x = true
      · -- from here on nothing passes `p`
        have hnone : xs.filter p = [] := List.filter_eq_nil_iff.mpr fun y hy => hx y hy hq
        rw [hnone, List.nil_append] at hrest
        simp [hp, hq, hrest, hnone]
      · simp [hp, hq, hrest]

/-- **A chain deals out, in order, all that one of its spans contains**, and nothing
twice. -/
theorem Chain.flatMap_filter {β : Type} {spans : List Span} {a b : Nat} (h : Chain a spans b)
    {xs : List (β × Span)} (hpos : ∀ x ∈ xs, x.2.start < x.2.stop)
    (hsorted : xs.Pairwise fun x y => x.2.stop ≤ y.2.start) :
    spans.flatMap (fun s => xs.filter fun x => s.contains x.2)
      = xs.filter fun x => spans.any (·.contains x.2) := by
  induction spans generalizing a with
  | nil => simp
  | cons s spans ih =>
      obtain ⟨-, hrest⟩ := h
      have hbehind {x : β × Span} (hx : (spans.any fun t => t.contains x.2) = true) :
          s.stop ≤ x.2.start := by
        obtain ⟨t, ht, hcontains⟩ := List.any_eq_true.mp hx
        exact Nat.le_trans (hrest.le_start ht) ((contains_iff ..).mp hcontains).1
      rw [List.flatMap_cons, ih hrest]
      simp only [List.any_cons]
      refine (filter_or_eq_append ?_ (hsorted.imp_of_mem ?_)).symm
      · -- what `s` contains stops before whatever a later span contains
        intro x hx hfirst hlater
        have := hpos x hx
        have := hbehind hlater
        rw [contains_iff] at hfirst
        omega
      · -- and so does not come after it
        intro x y hx hy hxy hlater hfirst
        have := hpos x hx
        have := hpos y hy
        have := hbehind hlater
        rw [contains_iff] at hfirst
        omega

end Span

end TokenAlignment
