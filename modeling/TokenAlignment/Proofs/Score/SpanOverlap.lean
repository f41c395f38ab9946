/-
TokenAlignment/Proofs/Score/SpanOverlap.lean

One sweep finds all overlaps,

    count syntax tokens  =  Σ over tokens t of  |{s ∈ syntax | t overlaps s}|,

where in either list both the starts and the stops go up.  What the sweep leaves behind stops
before the current token starts, and so before any later one does; and where it looks no
further, everything starts behind the current token.  Spans of one list may overlap each
other, and empty ones may lie on or inside those of the other list.

Main results: `count_eq_sum`, and `tokenSpanScore_eq_pairs` for the score itself.
-/
import Mathlib.Data.List.ProdSigma
import Mathlib.Data.Rat.Init
import TokenAlignment.Proofs.SpanChain
import TokenAlignment.Score.SpanOverlap

namespace TokenAlignment

/-! ### Prefixes of a sorted list -/

section Sorted

variable {β : Type} {p : β → Bool} {xs : List β}

/-- Where what passes comes first, leaving out the front leaves out all of it, ... -/
theorem dropWhile_eq_filter (h : xs.Pairwise fun x y => p y = true → p x = true) :
    xs.dropWhile p = xs.filter (!p ·) := by
  induction xs with
  | nil => rfl
  | cons x xs ih =>
      rw [List.pairwise_cons] at h
      by_cases hx : p x = true
      · rw [List.dropWhile_cons_of_pos hx, List.filter_cons_of_neg (by simp [hx]), ih h.2]
      · have hall : ∀ y ∈ x :: xs, (!p y) = true := by
          rw [List.forall_mem_cons]
          exact ⟨by simpa using hx, fun y hy => by simpa using mt (h.1 y hy) hx⟩
        rw [List.dropWhile_cons_of_neg hx, List.filter_eq_self.mpr hall]

/-- ... and keeping the front keeps all of it. -/
theorem takeWhile_eq_filter (h : xs.Pairwise fun x y => p y = true → p x = true) :
    xs.takeWhile p = xs.filter p := by
  induction xs with
  | nil => rfl
  | cons x xs ih =>
      rw [List.pairwise_cons] at h
      by_cases hx : p x = true
      · rw [List.takeWhile_cons_of_pos hx, List.filter_cons_of_pos hx, ih h.2]
      · have hnone : ∀ y ∈ x :: xs, ¬ p y = true := by
          rw [List.forall_mem_cons]
          exact ⟨hx, fun y hy => mt (h.1 y hy) hx⟩
        rw [List.takeWhile_cons_of_neg hx, List.filter_eq_nil_iff.mpr hnone]

end Sorted

namespace SpanOverlap

variable {syntaxTokens : List SyntaxToken} {tokens : List Span}

/-- How many of some syntax tokens a token overlaps. -/
def overlapping (syntaxTokens : List SyntaxToken) (token : Span) : Nat :=
  (syntaxTokens.filter fun t => token.overlaps t.span).length

/-- The pairs that overlap, with every token next to every syntax token. -/
def overlapPairs (syntaxTokens : List SyntaxToken) (tokens : List Span) :
    List (Span × SyntaxToken) :=
  (tokens ×ˢ syntaxTokens).filter fun x => x.1.overlaps x.2.span

theorem length_overlapPairs (syntaxTokens : List SyntaxToken) (tokens : List Span) :
    (overlapPairs syntaxTokens tokens).length
      = (tokens.map (overlapping syntaxTokens)).sum := by
  induction tokens with
  | nil => rfl
  | cons token tokens ih =>
      rw [overlapPairs, List.product_cons, List.filter_append, List.length_append,
        List.filter_map, List.length_map, ← overlapPairs, ih, List.map_cons, List.sum_cons]
      rfl

/-! ### One token -/

section Step

variable {s : Sweep} {token : Span}

theorem ahead_step (h : Span.Ascending (s.ahead.map (·.span))) (token : Span) :
    (s.step token).ahead = s.ahead.filter fun t => !(t.span.stop ≤ token.start : Bool) :=
  dropWhile_eq_filter (List.pairwise_map.mp (h.stop_le token.start))

/-- What is ahead stays in order. -/
theorem ascending_step (h : Span.Ascending (s.ahead.map (·.span))) (token : Span) :
    Span.Ascending ((s.step token).ahead.map (·.span)) := by
  rw [ahead_step h]
  exact List.pairwise_map.mpr ((List.pairwise_map.mp h).filter _)

/-- **One token** adds the syntax tokens ahead that it overlaps. -/
theorem overlaps_step (h : Span.Ascending (s.ahead.map (·.span))) (token : Span) :
    (s.step token).overlaps = s.overlaps + overlapping s.ahead token := by
  have hnear : (s.step token).ahead.takeWhile (fun t => t.span.start < token.stop)
      = (s.step token).ahead.filter fun t => t.span.start < token.stop :=
    takeWhile_eq_filter (List.pairwise_map.mp ((ascending_step h token).start_lt token.stop))
  show s.overlaps + (((s.step token).ahead.takeWhile fun t => t.span.start < token.stop).filter
    fun t => token.overlaps t.span).length = _
  rw [hnear, ahead_step h, List.filter_filter, List.filter_filter, overlapping]
  -- a token that overlaps passes both of the other tests
  refine congrArg (s.overlaps + List.length ·) (List.filter_congr fun t _ => ?_)
  rw [Bool.eq_iff_iff]
  simp only [Span.overlaps, Bool.and_eq_true, decide_eq_true_eq, Bool.not_eq_true',
    decide_eq_false_iff_not]
  omega

/-- What is left behind is overlapped by no later token. -/
theorem overlapping_step (h : Span.Ascending (s.ahead.map (·.span))) {later : Span}
    (hlater : token.start ≤ later.start) :
    overlapping (s.step token).ahead later = overlapping s.ahead later := by
  rw [ahead_step h, overlapping, overlapping, List.filter_filter]
  refine congrArg List.length (List.filter_congr fun t _ => ?_)
  rw [Bool.eq_iff_iff]
  simp only [Span.overlaps, Bool.and_eq_true, decide_eq_true_eq, Bool.not_eq_true',
    decide_eq_false_iff_not]
  omega

end Step

/-! ### All tokens -/

theorem foldl_step_overlaps {s : Sweep} (h : Span.Ascending (s.ahead.map (·.span)))
    (htokens : Span.Ascending tokens) :
    (tokens.foldl Sweep.step s).overlaps
      = s.overlaps + (tokens.map (overlapping s.ahead)).sum := by
  induction tokens generalizing s with
  | nil => rfl
  | cons token tokens ih =>
      obtain ⟨hfirst, hrest⟩ := List.pairwise_cons.mp htokens
      have hlater : tokens.map (overlapping (s.step token).ahead)
          = tokens.map (overlapping s.ahead) :=
        List.map_congr_left fun later hmem => overlapping_step h (hfirst later hmem).1
      rw [List.foldl_cons, ih (ascending_step h token) hrest, overlaps_step h, hlater,
        List.map_cons, List.sum_cons, Nat.add_assoc]

/-- **One sweep finds all overlaps.** -/
theorem count_eq_sum (h : Span.Ascending (syntaxTokens.map (·.span)))
    (htokens : Span.Ascending tokens) :
    count syntaxTokens tokens = (tokens.map (overlapping syntaxTokens)).sum := by
  rw [count, foldl_step_overlaps (s := ⟨syntaxTokens, 0⟩) h htokens, Nat.zero_add]

/-- Tokens that stop where the document starts overlap nothing, in whatever order. -/
theorem count_of_stop_eq_zero (syntaxTokens : List SyntaxToken)
    (h : ∀ token ∈ tokens, token.stop = 0) : count syntaxTokens tokens = 0 := by
  suffices hfold : ∀ s : Sweep, (tokens.foldl Sweep.step s).overlaps = s.overlaps from hfold _
  induction tokens with
  | nil => exact fun _ => rfl
  | cons token tokens ih =>
      rw [List.forall_mem_cons] at h
      intro s
      have hnone (near : List SyntaxToken) :
          near.filter (fun t => token.overlaps t.span) = [] := by
        rw [List.filter_eq_nil_iff]
        intro t _
        simp [Span.overlaps, h.1]
      rw [List.foldl_cons, ih h.2, Sweep.step, hnone]
      rfl

end SpanOverlap

/-! ### The score -/

section Score

variable {α : Type} [Scalar α] {syntaxTokens : List SyntaxToken} {tokens : List Span}
  {deadline : Deadline}

theorem tokenSpanScore_eq (hdeadline : deadline ≠ .expired) :
    tokenSpanScore α syntaxTokens tokens deadline
      = .ok (Scalar.ratio α (SpanOverlap.count syntaxTokens tokens) tokens.length) := by
  rw [tokenSpanScore]
  split
  · rename_i h
    rw [List.isEmpty_iff.mp h, List.length_nil, Scalar.ratio, if_pos rfl]
  · cases deadline with
    | expired => exact absurd rfl hdeadline
    | unbounded => rfl
    | pending => rfl

theorem eq_of_tokenSpanScore_eq_ok {score : α}
    (h : tokenSpanScore α syntaxTokens tokens deadline = .ok score) :
    score = Scalar.ratio α (SpanOverlap.count syntaxTokens tokens) tokens.length := by
  by_cases hdeadline : deadline = .expired
  · -- without tokens nobody looks at the clock
    subst hdeadline
    rw [tokenSpanScore] at h
    split at h
    · rename_i hnil
      cases h
      rw [List.isEmpty_iff.mp hnil, List.length_nil, Scalar.ratio, if_pos rfl]
    · cases h
  · rw [tokenSpanScore_eq hdeadline] at h
    exact (Except.ok.inj h).symm

end Score

/-- **The sweep is the double loop.**  Where starts and stops go up in either list, the score
is the number of pairs of a token and a syntax token that overlap, for each token, and zero
without tokens. -/
theorem tokenSpanScore_eq_pairs (α : Type) [Scalar α] {syntaxTokens : List SyntaxToken}
    {tokens : List Span} (hsyn : Span.Ascending (syntaxTokens.map (·.span)))
    (htokens : Span.Ascending tokens) :
    tokenSpanScore α syntaxTokens tokens .unbounded
      = .ok (if tokens = [] then 0
          else Scalar.ofCount (SpanOverlap.overlapPairs syntaxTokens tokens).length
            / Scalar.ofCount tokens.length) := by
  have hpairs : SpanOverlap.count syntaxTokens tokens
      = (SpanOverlap.overlapPairs syntaxTokens tokens).length := by
    rw [SpanOverlap.count_eq_sum hsyn htokens, SpanOverlap.length_overlapPairs]
  rw [tokenSpanScore_eq (by decide), hpairs, Scalar.ratio]
  simp only [List.length_eq_zero_iff]

/-- Syntax tokens that overlap each other, and an empty one. -/
def crowdedSyntax : List SyntaxToken :=
  [⟨.wide 0 2, "a"⟩, ⟨.wide 1 2, "b"⟩, ⟨.wide 3 0, "c"⟩, ⟨.wide 3 3, "d"⟩]

/-- Tokens that do so too, with an empty one inside a syntax token and one behind all. -/
def crowdedTokens : List Span :=
  [.wide 0 1, .wide 1 0, .wide 1 3, .wide 2 3, .wide 6 0]

theorem tokenSpanScore_eq_pairs_crowded :
    Span.Ascending (crowdedSyntax.map (·.span)) ∧ Span.Ascending crowdedTokens ∧
    tokenSpanScore ℚ crowdedSyntax crowdedTokens .unbounded = .ok (9 / 5) :=
  have hsyn : Span.Ascending (crowdedSyntax.map (·.span)) := by decide
  have htokens : Span.Ascending crowdedTokens := by decide
  ⟨hsyn, htokens, (tokenSpanScore_eq_pairs ℚ hsyn htokens).trans
    (congrArg Except.ok (by decide +kernel))⟩

end TokenAlignment
