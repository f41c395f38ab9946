/-
TokenAlignment/Proofs/Score/CommonRefinement.lean

Two covers of a text, none of whose spans is empty, and the pieces that the boundaries of
both cut it into:

    tokens         |---------|----|-----------|
    syntax tokens  |----|---------|------|----|
    pieces         |----|----|----|------|----|

A token and a syntax token overlap in one piece or not at all, and each piece lies in one
token and in one syntax token.  So there are as many pairs that overlap as there are pieces,
and a piece starts where a token or a syntax token does:

    count  =  |starts of tokens ∪ starts of syntax tokens|  =  T + S − (1 + C),

where T and S are the numbers of spans and C is the number of boundaries that the covers
share inside the text; they also share its start.

Main result: `tokenSpanScore_boundaries`.
-/
import Mathlib.Data.Finset.Card
import Mathlib.Order.Interval.Finset.Nat
import TokenAlignment.Proofs.Score.FloatQuotient
import TokenAlignment.Proofs.Score.Similarity
import TokenAlignment.Proofs.Score.SpanOverlap

namespace TokenAlignment

namespace Span

/-! ### Where spans start -/

/-- The offsets at which spans start. -/
def starts (spans : List Span) : Finset ℕ :=
  (spans.map (·.start)).toFinset

@[simp] theorem mem_starts {spans : List Span} {i : ℕ} :
    i ∈ starts spans ↔ ∃ s ∈ spans, s.start = i := by
  simp [starts]

/-- The spans follow each other without a gap, and none of them is empty. -/
structure Tiling (a : ℕ) (spans : List Span) (b : ℕ) : Prop where
  chain : Chain a spans b
  pos : ∀ s ∈ spans, s.start < s.stop

section Tiling

variable {spans : List Span} {a b i : ℕ}

/-- No two spans start at the same offset. -/
theorem Tiling.card_starts (h : Tiling a spans b) : (starts spans).card = spans.length := by
  have hstrict : (spans.map (·.start)).Pairwise (· < ·) := by
    refine List.pairwise_map.mpr (h.chain.pairwise.imp_of_mem ?_)
    intro s t hs _ hst
    exact Nat.lt_of_lt_of_le (h.pos s hs) hst
  rw [starts, List.toFinset_card_of_nodup (hstrict.imp Nat.ne_of_lt), List.length_map]

theorem Tiling.start_mem (h : Tiling a spans b) (hab : a < b) : a ∈ starts spans := by
  cases spans with
  | nil => exact absurd h.chain (Nat.ne_of_lt hab)
  | cons s spans => exact mem_starts.mpr ⟨s, List.mem_cons_self, h.chain.1⟩

theorem Tiling.bounds_of_mem (h : Tiling a spans b) (hi : i ∈ starts spans) :
    a ≤ i ∧ i < b := by
  obtain ⟨s, hs, rfl⟩ := mem_starts.mp hi
  exact ⟨h.chain.le_start hs, Nat.lt_of_lt_of_le (h.pos s hs) (h.chain.stop_le hs)⟩

/-- A text has no more spans than offsets. -/
theorem Tiling.length_le (h : Tiling 0 spans b) : spans.length ≤ b := by
  rw [← h.card_starts, ← Finset.card_range b]
  exact Finset.card_le_card fun i hi => Finset.mem_range.mpr (h.bounds_of_mem hi).2

/-- A span stops where the next one starts, or where the chain does. -/
theorem Chain.isBoundary_iff (h : Chain a spans b) (hne : spans ≠ []) :
    IsBoundary spans i ↔ i ∈ starts spans ∨ i = b := by
  induction spans generalizing a with
  | nil => exact absurd rfl hne
  | cons s spans ih =>
      obtain ⟨rfl, hrest⟩ := h
      have hcons : IsBoundary (s :: spans) i ↔ (s.start = i ∨ s.stop = i) ∨ IsBoundary spans i := by
        simp [IsBoundary]
      rw [hcons]
      cases spans with
      | nil =>
          obtain rfl : s.stop = b := hrest
          simp [IsBoundary, eq_comm]
      | cons t spans =>
          have hnext : t.start = s.stop := hrest.1
          rw [ih hrest (List.cons_ne_nil _ _)]
          simp only [mem_starts, List.exists_mem_cons_iff, hnext, or_assoc, or_self_left]

/-- Among the starts a span holds only its own. -/
theorem Tiling.eq_start_of_holds (h : Tiling a spans b) {s : Span} (hs : s ∈ spans)
    (hi : i ∈ starts spans) (hholds : s.holds i = true) : i = s.start := by
  obtain ⟨t, ht, rfl⟩ := mem_starts.mp hi
  have huncut := h.chain.uncut hs t.start (.start ht)
  rw [holds_iff] at hholds
  omega

/-- **A chain deals out the offsets between its ends.** -/
theorem Chain.sum_card_filter_holds (h : Chain a spans b) (offsets : Finset ℕ) :
    (spans.map fun s => (offsets.filter fun i => s.holds i = true).card).sum
      = (offsets.filter fun i => a ≤ i ∧ i < b).card := by
  induction spans generalizing a with
  | nil =>
      obtain rfl : a = b := h
      have hnone : (offsets.filter fun i => a ≤ i ∧ i < a) = ∅ := by
        rw [Finset.filter_eq_empty_iff]
        intro i _
        omega
      rw [hnone, Finset.card_empty, List.map_nil, List.sum_nil]
  | cons s spans ih =>
      obtain ⟨rfl, hrest⟩ := h
      have hsplit : (offsets.filter fun i => s.start ≤ i ∧ i < b)
          = (offsets.filter fun i => s.holds i = true)
            ∪ (offsets.filter fun i => s.stop ≤ i ∧ i < b) := by
        rw [← Finset.filter_or]
        refine Finset.filter_congr fun i _ => ?_
        have := s.start_le_stop
        have := hrest.le
        rw [holds_iff]
        omega
      have hapart : Disjoint (offsets.filter fun i => s.holds i = true)
          (offsets.filter fun i => s.stop ≤ i ∧ i < b) := by
        refine Finset.disjoint_filter.mpr fun i _ hholds => ?_
        rw [holds_iff] at hholds
        omega
      rw [List.map_cons, List.sum_cons, ih hrest, hsplit, Finset.card_union_of_disjoint hapart]

end Tiling

/-! ### Shared boundaries -/

/-- The offsets strictly between `0` and `b` that are boundaries of both lists of spans. -/
def sharedBoundaries (b : ℕ) (spans spans' : List Span) : Finset ℕ :=
  (Finset.Ioo 0 b).filter fun i => IsBoundary spans i ∧ IsBoundary spans' i

section Shared

variable {spans spans' : List Span} {b : ℕ}

theorem Tiling.ne_nil {a : ℕ} (h : Tiling a spans b) (hab : a < b) : spans ≠ [] := by
  rintro rfl
  exact absurd h.chain (Nat.ne_of_lt hab)

/-- Two covers also share their start. -/
theorem card_inter_starts (h : Tiling 0 spans b) (h' : Tiling 0 spans' b) (hb : 0 < b) :
    (starts spans ∩ starts spans').card = (sharedBoundaries b spans spans').card + 1 := by
  have hinter : starts spans ∩ starts spans' = insert 0 (sharedBoundaries b spans spans') := by
    ext i
    rw [Finset.mem_inter, Finset.mem_insert, sharedBoundaries, Finset.mem_filter,
      Finset.mem_Ioo, h.chain.isBoundary_iff (h.ne_nil hb),
      h'.chain.isBoundary_iff (h'.ne_nil hb)]
    constructor
    · rintro ⟨hi, hi'⟩
      have := (h.bounds_of_mem hi).2
      rcases Nat.eq_zero_or_pos i with hzero | hpos
      · exact .inl hzero
      · exact .inr ⟨⟨hpos, this⟩, .inl hi, .inl hi'⟩
    · rintro (rfl | ⟨⟨-, hlt⟩, hi, hi'⟩)
      · exact ⟨h.start_mem hb, h'.start_mem hb⟩
      · exact ⟨hi.resolve_right (Nat.ne_of_lt hlt), hi'.resolve_right (Nat.ne_of_lt hlt)⟩
  have hzero : 0 ∉ sharedBoundaries b spans spans' := by
    simp [sharedBoundaries]
  rw [hinter, Finset.card_insert_of_notMem hzero]

/-- **The pieces of two covers**: each start of a span is one, and a start that they share
is only one. -/
theorem card_union_starts (h : Tiling 0 spans b) (h' : Tiling 0 spans' b) (hb : 0 < b) :
    (starts spans ∪ starts spans').card + (sharedBoundaries b spans spans').card + 1
      = spans.length + spans'.length := by
  have hcount := Finset.card_union_add_card_inter (starts spans) (starts spans')
  rwa [card_inter_starts h h' hb, h.card_starts, h'.card_starts, ← Nat.add_assoc] at hcount

/-- A cover has all boundaries of another if it has all its starts. -/
theorem starts_subset_iff (h : Tiling 0 spans b) (h' : Tiling 0 spans' b) (hb : 0 < b) :
    starts spans' ⊆ starts spans ↔ ∀ i, IsBoundary spans' i → IsBoundary spans i := by
  constructor
  · intro hsubset i hi
    rw [h'.chain.isBoundary_iff (h'.ne_nil hb)] at hi
    rw [h.chain.isBoundary_iff (h.ne_nil hb)]
    exact hi.imp_left fun hi => hsubset hi
  · intro hall i hi
    have hlt := (h'.bounds_of_mem hi).2
    have hboundary := hall i ((h'.chain.isBoundary_iff (h'.ne_nil hb)).mpr (.inl hi))
    rw [h.chain.isBoundary_iff (h.ne_nil hb)] at hboundary
    exact hboundary.resolve_right (Nat.ne_of_lt hlt)

end Shared

end Span

/-! ### Overlaps -/

namespace SpanOverlap

open TokenAlignment.Span

variable {syntaxTokens : List SyntaxToken} {tokens : List Span} {len : ℕ}

/-- **A token overlaps one syntax token for each piece of it**: each overlap starts where the
later of the two does. -/
theorem overlapping_eq_card (htokens : Tiling 0 tokens len)
    (hsyn : Tiling 0 (syntaxTokens.map (·.span)) len) {t : Span} (ht : t ∈ tokens) :
    overlapping syntaxTokens t
      = ((starts tokens ∪ starts (syntaxTokens.map (·.span))).filter
          fun i => t.holds i = true).card := by
  have htpos := htokens.pos t ht
  have hspos {s : SyntaxToken} (hs : s ∈ syntaxTokens) : s.span.start < s.span.stop :=
    hsyn.pos s.span (List.mem_map_of_mem hs)
  -- the overlaps start one behind the other
  have hstrict : ((syntaxTokens.filter fun s => t.overlaps s.span).map
      fun s => max t.start s.span.start).Pairwise (· < ·) := by
    have hsorted := List.pairwise_map.mp hsyn.chain.pairwise
    refine List.pairwise_map.mpr ((hsorted.filter _).imp_of_mem ?_)
    intro s u hs _ hsu
    obtain ⟨hmem, hoverlaps⟩ := List.mem_filter.mp hs
    have := hspos hmem
    simp only [Span.overlaps, Bool.and_eq_true, decide_eq_true_eq] at hoverlaps
    omega
  have hpieces : ((syntaxTokens.filter fun s => t.overlaps s.span).map
      fun s => max t.start s.span.start).toFinset
      = (starts tokens ∪ starts (syntaxTokens.map (·.span))).filter
          fun i => t.holds i = true := by
    ext i
    simp only [List.mem_toFinset, List.mem_map, List.mem_filter, Finset.mem_filter,
      Finset.mem_union, Span.overlaps, Bool.and_eq_true, decide_eq_true_eq, holds_iff]
    constructor
    · rintro ⟨s, ⟨hs, hoverlaps⟩, rfl⟩
      have := hspos hs
      refine ⟨?_, by omega⟩
      rcases Nat.le_total s.span.start t.start with hle | hle
      · exact .inl (mem_starts.mpr ⟨t, ht, (Nat.max_eq_left hle).symm⟩)
      · exact .inr (mem_starts.mpr ⟨s.span, List.mem_map_of_mem hs, (Nat.max_eq_right hle).symm⟩)
    · rintro ⟨hi | hi, hholds⟩
      · -- the token starts here, inside the syntax token that holds this offset
        obtain rfl := htokens.eq_start_of_holds ht hi (by rwa [holds_iff])
        obtain ⟨u, hu⟩ := hsyn.chain.filter_holds (Nat.zero_le t.start)
          (Nat.lt_of_lt_of_le htpos (htokens.chain.stop_le ht))
        obtain ⟨hmem, hu⟩ := List.mem_filter.mp (hu ▸ List.mem_singleton_self u)
        obtain ⟨s, hs, rfl⟩ := List.mem_map.mp hmem
        rw [holds_iff] at hu
        exact ⟨s, ⟨hs, by omega⟩, by omega⟩
      · obtain ⟨u, hmem, rfl⟩ := mem_starts.mp hi
        obtain ⟨s, hs, rfl⟩ := List.mem_map.mp hmem
        have := hspos hs
        exact ⟨s, ⟨hs, by omega⟩, by omega⟩
  rw [← hpieces, List.toFinset_card_of_nodup (hstrict.imp Nat.ne_of_lt), List.length_map,
    overlapping]

/-- **As many overlaps as pieces.** -/
theorem count_eq_card_union (htokens : Tiling 0 tokens len)
    (hsyn : Tiling 0 (syntaxTokens.map (·.span)) len) :
    count syntaxTokens tokens
      = (starts tokens ∪ starts (syntaxTokens.map (·.span))).card := by
  have hinside : (starts tokens ∪ starts (syntaxTokens.map (·.span))).filter
      (fun i => 0 ≤ i ∧ i < len) = starts tokens ∪ starts (syntaxTokens.map (·.span)) := by
    refine Finset.filter_true_of_mem fun i hi => ?_
    exact (Finset.mem_union.mp hi).elim htokens.bounds_of_mem hsyn.bounds_of_mem
  rw [count_eq_sum hsyn.chain.ascending htokens.chain.ascending,
    List.map_congr_left fun t ht => overlapping_eq_card htokens hsyn ht,
    htokens.chain.sum_card_filter_holds, hinside]

/-- There are at least as many pieces as tokens ... -/
theorem length_tokens_le_count (htokens : Tiling 0 tokens len)
    (hsyn : Tiling 0 (syntaxTokens.map (·.span)) len) :
    tokens.length ≤ count syntaxTokens tokens := by
  rw [count_eq_card_union htokens hsyn, ← htokens.card_starts]
  exact Finset.card_le_card Finset.subset_union_left

/-- ... and as syntax tokens. -/
theorem length_syntaxTokens_le_count (htokens : Tiling 0 tokens len)
    (hsyn : Tiling 0 (syntaxTokens.map (·.span)) len) :
    syntaxTokens.length ≤ count syntaxTokens tokens := by
  rw [count_eq_card_union htokens hsyn, ← List.length_map (·.span), ← hsyn.card_starts]
  exact Finset.card_le_card Finset.subset_union_right

/-- **Each token is one piece** just if no boundary of a syntax token lies inside it. -/
theorem count_eq_length_iff (htokens : Tiling 0 tokens len)
    (hsyn : Tiling 0 (syntaxTokens.map (·.span)) len) (hlen : 0 < len) :
    count syntaxTokens tokens = tokens.length
      ↔ ∀ i, IsBoundary (syntaxTokens.map (·.span)) i → IsBoundary tokens i := by
  rw [← starts_subset_iff htokens hsyn hlen, ← Finset.union_eq_left,
    count_eq_card_union htokens hsyn, ← htokens.card_starts]
  constructor
  · intro hcard
    exact (Finset.eq_of_subset_of_card_le Finset.subset_union_left (Nat.le_of_eq hcard)).symm
  · exact congrArg Finset.card

end SpanOverlap

open TokenAlignment.Span

/-- **The score measures how boundaries disagree.**  For `T` tokens and `S` syntax tokens that
cover a text, none of them empty, and `C` boundaries inside the text that both covers have, the
score is `(T + S - 1 - C) / T`, in whatever arithmetic.  It is at least one and at least
`S / T`, it is at most `(T + S - 1) / T`, and it is one just if every boundary of a syntax token
is one of a token.  This holds in exact arithmetic, and as well in floating point, where the
quotients are rounded, for a text of up to `2 ^ 52` bytes. -/
theorem tokenSpanScore_boundaries {syntaxTokens : List SyntaxToken} {tokens : List Span}
    {len : ℕ} (hlen : 0 < len) (htokens : Tiling 0 tokens len)
    (hsyn : Tiling 0 (syntaxTokens.map (·.span)) len) :
    (∀ (α : Type) [Scalar α], tokenSpanScore α syntaxTokens tokens .unbounded
      = .ok (Scalar.ofCount (tokens.length + syntaxTokens.length - 1
            - (sharedBoundaries len tokens (syntaxTokens.map (·.span))).card)
          / Scalar.ofCount tokens.length)) ∧
    (∃ score : ℚ, tokenSpanScore ℚ syntaxTokens tokens .unbounded = .ok score ∧
      score = ((tokens.length : ℚ) + syntaxTokens.length - 1
          - (sharedBoundaries len tokens (syntaxTokens.map (·.span))).card)
        / tokens.length ∧
      1 ≤ score ∧
      (syntaxTokens.length : ℚ) / tokens.length ≤ score ∧
      score ≤ ((tokens.length : ℚ) + syntaxTokens.length - 1) / tokens.length ∧
      (score = 1 ↔ ∀ i, IsBoundary (syntaxTokens.map (·.span)) i → IsBoundary tokens i)) ∧
    (len ≤ 2 ^ 52 → ∃ score : Float,
      tokenSpanScore Float syntaxTokens tokens .unbounded = .ok score ∧
      1 ≤ score ∧
      Float.ofNat syntaxTokens.length / Float.ofNat tokens.length ≤ score ∧
      score ≤ Float.ofNat (tokens.length + syntaxTokens.length - 1)
        / Float.ofNat tokens.length ∧
      (score = 1 ↔ ∀ i, IsBoundary (syntaxTokens.map (·.span)) i → IsBoundary tokens i)) := by
  have hne : tokens.length ≠ 0 := mt List.length_eq_zero_iff.mp (htokens.ne_nil hlen)
  have hscore (α : Type) [Scalar α] : tokenSpanScore α syntaxTokens tokens .unbounded
      = .ok (Scalar.ofCount (SpanOverlap.count syntaxTokens tokens)
          / Scalar.ofCount tokens.length) := by
    rw [tokenSpanScore_eq (by decide), Scalar.ratio, if_neg hne]
  have hsum := card_union_starts htokens hsyn hlen
  rw [← SpanOverlap.count_eq_card_union htokens hsyn, List.length_map] at hsum
  have hleTokens := SpanOverlap.length_tokens_le_count htokens hsyn
  have hleSyntax := SpanOverlap.length_syntaxTokens_le_count htokens hsyn
  have hiff := SpanOverlap.count_eq_length_iff htokens hsyn hlen
  refine ⟨?_, ?_, ?_⟩
  · intro α _
    have hexact : tokens.length + syntaxTokens.length - 1
        - (sharedBoundaries len tokens (syntaxTokens.map (·.span))).card
        = SpanOverlap.count syntaxTokens tokens := by
      omega
    rw [hscore, hexact]
  · have hpos : (0 : ℚ) < tokens.length := Nat.cast_pos.mpr (Nat.pos_of_ne_zero hne)
    have hsumq : (SpanOverlap.count syntaxTokens tokens : ℚ)
        + (sharedBoundaries len tokens (syntaxTokens.map (·.span))).card + 1
        = tokens.length + syntaxTokens.length := by
      exact_mod_cast hsum
    refine ⟨(SpanOverlap.count syntaxTokens tokens : ℚ) / tokens.length, hscore ℚ, ?_, ?_, ?_,
      ?_, ?_⟩
    · rw [← hsumq, add_sub_cancel_right, add_sub_cancel_right]
    · rw [le_div_iff₀ hpos, one_mul]
      exact_mod_cast hleTokens
    · refine (div_le_div_iff_of_pos_right hpos).mpr ?_
      exact_mod_cast hleSyntax
    · refine (div_le_div_iff_of_pos_right hpos).mpr ?_
      have hshared : (0 : ℚ) ≤ (sharedBoundaries len tokens (syntaxTokens.map (·.span))).card :=
        Nat.cast_nonneg _
      linarith
    · rw [div_eq_one_iff_eq hpos.ne', Nat.cast_inj, hiff]
  · intro hsmall
    -- every count is a number of the arithmetic
    have hfew := htokens.length_le
    have hfewSyntax := hsyn.length_le
    rw [List.length_map] at hfewSyntax
    have hpos := Nat.pos_of_ne_zero hne
    have hposSyntax : 0 < syntaxTokens.length := by
      rw [← List.length_map (·.span)]
      exact List.length_pos_iff.mpr (hsyn.ne_nil hlen)
    have hone : Float.ofNat tokens.length / Float.ofNat tokens.length = 1 :=
      (FloatCount.ofNat_div_eq_one_iff le_rfl (by omega) hpos).mpr rfl
    refine ⟨Float.ofNat (SpanOverlap.count syntaxTokens tokens) / Float.ofNat tokens.length,
      hscore Float, ?_, ?_, ?_, ?_⟩
    · rw [← hone]
      exact FloatCount.ofNat_div_le hleTokens hpos (by omega) hpos (by omega)
    · exact FloatCount.ofNat_div_le hleSyntax hposSyntax (by omega) hpos (by omega)
    · exact FloatCount.ofNat_div_le (by omega) (by omega) (by omega) hpos (by omega)
    · rw [FloatCount.ofNat_div_eq_one_iff hleTokens (by omega) hpos, hiff]

/-- Tokens of a text of six bytes. -/
def interleavedTokens : List Span :=
  [.wide 0 2, .wide 2 1, .wide 3 3]

/-- Its syntax tokens, with one boundary inside the text that a token has too. -/
def interleavedSyntax : List SyntaxToken :=
  [⟨.wide 0 1, "a"⟩, ⟨.wide 1 2, "b"⟩, ⟨.wide 3 2, "c"⟩, ⟨.wide 5 1, "d"⟩]

theorem tokenSpanScore_boundaries_interleaved :
    0 < 6 ∧ Tiling 0 interleavedTokens 6 ∧ Tiling 0 (interleavedSyntax.map (·.span)) 6 ∧
    (∃ score : ℚ, tokenSpanScore ℚ interleavedSyntax interleavedTokens .unbounded = .ok score ∧
      score = 5 / 3 ∧ score ≠ 1) ∧
    ∃ score : Float,
      tokenSpanScore Float interleavedSyntax interleavedTokens .unbounded = .ok score ∧
      1 ≤ score ∧ score ≠ 1 := by
  have hlen : 0 < 6 := by decide
  have htokens : Tiling 0 interleavedTokens 6 := ⟨⟨rfl, rfl, rfl, rfl⟩, by decide⟩
  have hsyn : Tiling 0 (interleavedSyntax.map (·.span)) 6 :=
    ⟨⟨rfl, rfl, rfl, rfl, rfl⟩, by decide⟩
  have hshared :
      (sharedBoundaries 6 interleavedTokens (interleavedSyntax.map (·.span))).card = 1 := by
    decide
  -- the second syntax token starts inside the first token
  have hinside : ¬ ∀ i, IsBoundary (interleavedSyntax.map (·.span)) i →
      IsBoundary interleavedTokens i :=
    fun hall => absurd (hall 1) (by decide)
  obtain ⟨-, ⟨score, hscore, hvalue, -, -, -, hone⟩, hfloat⟩ :=
    tokenSpanScore_boundaries hlen htokens hsyn
  obtain ⟨rounded, hrounded, hleast, -, -, honeRounded⟩ := hfloat (by decide)
  refine ⟨hlen, htokens, hsyn, ⟨score, hscore, ?_, mt hone.mp hinside⟩, rounded, hrounded,
    hleast, mt honeRounded.mp hinside⟩
  rw [hvalue, hshared]
  norm_num [interleavedTokens, interleavedSyntax]

end TokenAlignment
