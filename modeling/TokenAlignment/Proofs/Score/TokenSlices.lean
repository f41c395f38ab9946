/-
TokenAlignment/Proofs/Score/TokenSlices.lean

Which tokens an identifier is split by.

    raw      the tokens that stop in the identifier: behind its start, not behind its stop
    clipped  the tokens that share a byte with it, cut to those bytes

The halving searches find exactly these, whatever empty tokens stand at the ends of the
identifier, and also where the identifier is empty and one search ends before the other
(`scoreIdentifiers_selects`).

The two selections differ.  A token that starts before the identifier may stop in it, one that
stops behind it may share bytes with it, and an empty token shares none.  If no token lies
across either end of the identifier, only the empty ones are left, and they have no text: the
clipped split is the raw one without underscores and without empty pieces
(`scoreIdentifiers_clipped_eq_raw`).
-/
import TokenAlignment.Proofs.Score.Clipped
import TokenAlignment.Proofs.Score.Similarity

namespace TokenAlignment

namespace Span

/-! ### How two spans lie -/

/-- The span stops behind the start of the other one and not behind its stop. -/
def StopsIn (s other : Span) : Prop :=
  other.start < s.stop ∧ s.stop ≤ other.stop

instance (s other : Span) : Decidable (s.StopsIn other) :=
  inferInstanceAs (Decidable (_ ∧ _))

/-- The spans share a byte. -/
def Meets (s other : Span) : Prop :=
  ∃ i, s.holds i = true ∧ other.holds i = true

theorem meets_iff {s other : Span} :
    s.Meets other ↔ max s.start other.start < min s.stop other.stop := by
  constructor
  · rintro ⟨i, hi, hi'⟩
    rw [holds_iff] at hi hi'
    omega
  · intro hlt
    refine ⟨max s.start other.start, ?_, ?_⟩ <;> rw [holds_iff] <;> omega

instance (s other : Span) : Decidable (s.Meets other) :=
  decidable_of_iff _ meets_iff.symm

/-- The offset lies strictly inside the span. -/
def Straddles (s : Span) (i : Nat) : Prop :=
  s.start < i ∧ i < s.stop

instance (s : Span) (i : Nat) : Decidable (s.Straddles i) :=
  inferInstanceAs (Decidable (_ ∧ _))

/-- The intersection holds the bytes that both spans hold. -/
theorem holds_of_intersect?_eq_some {s bounds cut : Span} (h : s.intersect? bounds = some cut)
    (i : Nat) : cut.holds i = true ↔ s.holds i = true ∧ bounds.holds i = true := by
  obtain ⟨hstart, hstop, -⟩ := intersect?_eq_some_iff.mp h
  rw [holds_iff, holds_iff, holds_iff]
  omega

/-- The spans that meet another one, each next to the bytes that it shares with it. -/
theorem forall₂_intersect? (spans : List Span) (bounds : Span) :
    List.Forall₂
      (fun s cut => ∀ i, cut.holds i = true ↔ s.holds i = true ∧ bounds.holds i = true)
      (spans.filter fun s => s.Meets bounds) (spans.filterMap (·.intersect? bounds)) := by
  induction spans with
  | nil => exact .nil
  | cons s spans ih =>
      rw [List.filterMap_cons, List.filter_cons]
      rcases hcut : s.intersect? bounds with - | cut
      · have hapart : ¬ s.Meets bounds := mt meets_iff.mp (intersect?_eq_none_iff.mp hcut)
        rw [if_neg (by simpa using hapart)]
        exact ih
      · have hmeets : s.Meets bounds := by
          have hshared := intersect?_eq_some_iff.mp hcut
          exact meets_iff.mpr (by omega)
        rw [if_pos (by simpa using hmeets)]
        exact .cons (holds_of_intersect?_eq_some hcut) ih

end Span

namespace Document

/-- The bytes of the span are there, and these are the characters that they decode to. -/
def Shows (d : Document) (span : Span) (text : List Char) : Prop :=
  ∃ bytes, d.bytes span = .ok bytes ∧ Utf8.decodeLossy bytes = text

theorem shows_visibleText {d : Document} {span : Span} (h : span.stop ≤ d.length) :
    d.Shows span (d.visibleText span) := by
  refine ⟨_, bytes_eq_ok h, ?_⟩
  rw [visibleText, bytes_eq_ok h]

theorem forall₂_visibleText {d : Document} {spans : List Span}
    (h : ∀ s ∈ spans, s.stop ≤ d.length) :
    List.Forall₂ d.Shows spans (spans.map d.visibleText) := by
  rw [List.forall₂_map_right_iff, List.forall₂_same]
  exact fun s hs => shows_visibleText (h s hs)

end Document

namespace IdentifierSplits

variable {d : Document} {tokens : List Span} {span : Span} {text : List Char} {a b : Nat}

/-! ### The searches -/

/-- A search for where the tokens of a cover stop late, or start late, ends in the cover. -/
theorem partitionPoint_le_length (h : Span.Chain a tokens b) (offset : Nat) :
    partitionPoint (fun t => t.stop ≤ offset) tokens.toArray ≤ tokens.length ∧
      partitionPoint (fun t => t.start < offset) tokens.toArray ≤ tokens.length := by
  rw [partitionPoint_toArray (h.ascending.stop_le offset),
    partitionPoint_toArray (h.ascending.start_lt offset)]
  exact ⟨List.length_filter_le .., List.length_filter_le ..⟩

theorem endingIn_eq_stopsIn (h : Span.Chain a tokens b) :
    endingIn tokens.toArray span = tokens.filter fun t => t.StopsIn span := by
  rw [endingIn_eq h]
  apply List.filter_congr
  intro t _
  rw [Bool.eq_iff_iff]
  simp only [Bool.and_eq_true, decide_eq_true_eq, Bool.not_eq_true', decide_eq_false_iff_not]
  rw [Span.StopsIn]
  omega

/-! ### What is selected -/

/-- The raw split is that of the tokens that stop in the identifier, the clipped split that of
the tokens that share a byte with it, cut to what they share. -/
structure Selects (d : Document) (tokens : List Span) (s : IdentifierSplits) : Prop where
  raw : List.Forall₂ d.Shows (tokens.filter fun t => t.StopsIn s.identifier.span) s.raw
  clipped : ∃ cuts pieces,
    List.Forall₂
      (fun t cut => ∀ i,
        cut.holds i = true ↔ t.holds i = true ∧ s.identifier.span.holds i = true)
      (tokens.filter fun t => t.Meets s.identifier.span) cuts ∧
    List.Forall₂ d.Shows cuts pieces ∧
    s.clipped = (pieces.map withoutUnderscores).filter (!·.isEmpty)

/-- **The searches select the tokens that they should.** -/
theorem selects_ofIdentifier (h : Span.Chain 0 tokens d.length) (splitter : IdentifierSplitter)
    (identifier : SyntaxToken) (text : List Char) :
    (ofIdentifier d tokens.toArray splitter identifier text).Selects d tokens := by
  have hinside : ∀ t ∈ tokens, t.stop ≤ d.length := fun t ht => h.stop_le ht
  constructor
  · show List.Forall₂ d.Shows _ ((endingIn tokens.toArray identifier.span).map d.visibleText)
    rw [endingIn_eq_stopsIn h]
    exact Document.forall₂_visibleText fun t ht => hinside t (List.mem_of_mem_filter ht)
  · have hcuts := Span.forall₂_intersect? tokens identifier.span
    refine ⟨_, _, hcuts, Document.forall₂_visibleText ?_, ?_⟩
    · intro cut hcut
      obtain ⟨t, ht, hcut⟩ := List.mem_filterMap.mp hcut
      have hstop := (Span.intersect?_eq_some_iff.mp hcut).2.1
      have := hinside t ht
      omega
    · rw [List.map_map, ← filterMap_touching h]
      rfl

/-- **The raw split has a piece for each token that stops in the identifier.** -/
theorem Selects.length_raw {s : IdentifierSplits} (h : s.Selects d tokens) :
    s.raw.length = (tokens.filter fun t => t.StopsIn s.identifier.span).length :=
  h.raw.length_eq.symm

/-! ### Tokens that respect the ends of an identifier -/

/-- No token lies across an end of the span. -/
def Respects (tokens : List Span) (span : Span) : Prop :=
  ∀ t ∈ tokens, ¬ t.Straddles span.start ∧ ¬ t.Straddles span.stop

instance (tokens : List Span) (span : Span) : Decidable (Respects tokens span) :=
  inferInstanceAs (Decidable (∀ t ∈ tokens, _))

/-- What a token that respects the ends holds is its whole text, if it stops in the span, and
nothing otherwise. -/
theorem held_of_not_straddles (htext : d.bytes span = .ok (Utf8.encode text)) {t : Span}
    (hstart : ¬ t.Straddles span.start) (hstop : ¬ t.Straddles span.stop) :
    held span.start text t
      = if t.StopsIn span then withoutUnderscores (d.visibleText t) else [] := by
  rw [Span.Straddles] at hstart hstop
  have := t.start_le_stop
  split
  · rename_i hin
    obtain ⟨hbehind, hbefore⟩ := hin
    have hinside : span.contains t = true := by
      rw [Span.contains_iff]
      omega
    rw [held, Document.visibleText_cut htext hinside]
  · rename_i hout
    rw [Span.StopsIn] at hout
    exact held_of_intersect?_eq_none htext (Span.intersect?_eq_none_iff.mpr (by omega))

/-- Leaving an element out is giving it an empty list, where empty lists are left out. -/
theorem filter_map_ite {β γ : Type} (p : β → Prop) [DecidablePred p] (f : β → List γ)
    (xs : List β) : (xs.map fun x => if p x then f x else []).filter (!·.isEmpty)
      = ((xs.filter fun x => p x).map f).filter (!·.isEmpty) := by
  induction xs with
  | nil => rfl
  | cons x xs ih =>
      by_cases hx : p x
      · have hkept : (x :: xs).filter (fun x => p x) = x :: xs.filter fun x => p x :=
          List.filter_cons_of_pos (by simpa using hx)
        rw [hkept, List.map_cons, List.map_cons, if_pos hx, List.filter_cons, List.filter_cons, ih]
      · rw [List.map_cons, if_neg hx, List.filter_cons_of_neg (by simp),
          List.filter_cons_of_neg (by simpa using hx), ih]

/-- **Raw and clipped splits agree** where no token lies across an end of the identifier. -/
theorem clipped_eq_raw (h : Span.Chain a tokens b) {identifier : SyntaxToken}
    (htext : d.bytes identifier.span = .ok (Utf8.encode text)) (splitter : IdentifierSplitter)
    (hrespects : Respects tokens identifier.span) :
    (ofIdentifier d tokens.toArray splitter identifier text).clipped
      = ((ofIdentifier d tokens.toArray splitter identifier text).raw.map
          withoutUnderscores).filter (!·.isEmpty) := by
  rw [clipped_eq h htext]
  show _ = ((((endingIn tokens.toArray identifier.span).map d.visibleText).map
    withoutUnderscores).filter (!·.isEmpty))
  rw [endingIn_eq_stopsIn h]
  have hheld : tokens.map (held identifier.span.start text) = tokens.map fun t =>
      if t.StopsIn identifier.span then withoutUnderscores (d.visibleText t) else [] :=
    List.map_congr_left fun t ht =>
      held_of_not_straddles htext (hrespects t ht).1 (hrespects t ht).2
  rw [hheld, List.map_map, filter_map_ite]
  rfl

end IdentifierSplits

open IdentifierSplits

/-! ### All identifiers -/

/-- How many tokens stop in some identifiers, a token in several counted for each of them. -/
def stopCount (tokens : List Span) (identifiers : List SyntaxToken) : Nat :=
  (identifiers.map fun identifier =>
    (tokens.filter fun t => t.StopsIn identifier.span).length).sum

section Scores

variable {α : Type} [Scalar α] {d : Document} {tokens : List Span}
  {identifiers : List SyntaxToken} {splitter : IdentifierSplitter} {deadline : Deadline}
  {scores : IdentifierScores α}

theorem map_identifier_splits
    (h : scoreIdentifiers α d identifiers tokens splitter deadline = .ok scores) :
    scores.splits.map (·.identifier)
      = identifiers.filter fun identifier => d.IsText identifier.span := by
  rw [splits_of_scoreIdentifiers_eq_ok h]
  exact map_identifier_filterMap_of? ..

theorem selects_of_mem_splits (hchain : Span.Chain 0 tokens d.length)
    (h : scoreIdentifiers α d identifiers tokens splitter deadline = .ok scores) :
    ∀ s ∈ scores.splits, s.Selects d tokens := by
  intro s hs
  rw [splits_of_scoreIdentifiers_eq_ok h] at hs
  obtain ⟨identifier, text, -, rfl⟩ := exists_of_mem_filterMap_of? hs
  exact selects_ofIdentifier hchain splitter identifier text

/-- **The fertility counts the tokens that stop in identifiers.** -/
theorem fertility_eq (hchain : Span.Chain 0 tokens d.length)
    (h : scoreIdentifiers α d identifiers tokens splitter deadline = .ok scores) :
    scores.fertility = Scalar.ratio α (stopCount tokens (scores.splits.map (·.identifier)))
      scores.splits.length := by
  have hraw : scores.splits.map (fun s => s.raw.length) = scores.splits.map fun s =>
      (tokens.filter fun t => t.StopsIn s.identifier.span).length :=
    List.map_congr_left fun s hs => (selects_of_mem_splits hchain h s hs).length_raw
  have hfertility : scores.fertility
      = Scalar.ratio α ((scores.splits.map fun s => s.raw.length).foldl (· + ·) 0)
          scores.splits.length := by
    rw [splits_of_scoreIdentifiers_eq_ok h]
    rfl
  rw [hfertility, ← List.sum_eq_foldl, hraw, stopCount, List.map_map]
  rfl

end Scores

/-- **The searches select the tokens that they should.**  Every search ends in the list of
tokens.  For each identifier with a text, the raw split has the texts of the tokens that stop
in it, and the clipped split the texts of what tokens share with it, without underscores and
without empty ones, both in order.  The fertility is the number of tokens that stop in
identifiers for each identifier with a text; in exact arithmetic it gives that number back. -/
theorem scoreIdentifiers_selects (α : Type) [Scalar α] {d : Document} {tokens : List Span}
    (hcover : checkCover tokens d.length = .ok ()) (identifiers : List SyntaxToken)
    (splitter : IdentifierSplitter) (deadline : Deadline) :
    (∀ offset,
      partitionPoint (fun t => t.stop ≤ offset) tokens.toArray ≤ tokens.length ∧
      partitionPoint (fun t => t.start < offset) tokens.toArray ≤ tokens.length) ∧
    (deadline ≠ .expired →
      ∃ scores, scoreIdentifiers α d identifiers tokens splitter deadline = .ok scores) ∧
    (∀ scores, scoreIdentifiers α d identifiers tokens splitter deadline = .ok scores →
      scores.splits.map (·.identifier)
        = identifiers.filter (fun identifier => d.IsText identifier.span) ∧
      (∀ s ∈ scores.splits, s.Selects d tokens) ∧
      scores.fertility = Scalar.ratio α (stopCount tokens (scores.splits.map (·.identifier)))
        scores.splits.length) ∧
    ∀ scores, scoreIdentifiers ℚ d identifiers tokens splitter deadline = .ok scores →
      scores.fertility * scores.splits.length
        = stopCount tokens (scores.splits.map (·.identifier)) := by
  have hchain := checkCover_eq_ok_iff.mp hcover
  refine ⟨partitionPoint_le_length hchain,
    exists_scoreIdentifiers_eq_ok α d identifiers tokens splitter, ?_, ?_⟩
  · intro scores hscores
    exact ⟨map_identifier_splits hscores, selects_of_mem_splits hchain hscores,
      fertility_eq hchain hscores⟩
  · intro scores hscores
    rw [fertility_eq hchain hscores, ratio_rat]
    by_cases hnone : scores.splits = []
    · rw [hnone, List.length_nil, Nat.cast_zero, mul_zero]
      rfl
    · exact div_mul_cancel₀ _ (Nat.cast_ne_zero.mpr (mt List.length_eq_zero_iff.mp hnone))

/-- The identifiers of `(a_é)`, and an empty one between its tokens. -/
def accentedWithEmpty : List SyntaxToken :=
  ⟨.wide 2 0, "identifier"⟩ :: accentedIdentifiers

/-- Three tokens stop in the name, the one that starts in front of it and the empty one too;
for the empty identifier the second search ends before the first. -/
theorem scoreIdentifiers_selects_accented :
    checkCover accentedCut accentedName.length = .ok () ∧
    ∃ scores, scoreIdentifiers ℚ accentedName accentedWithEmpty accentedCut (fun t => [t])
        .pending = .ok scores ∧
      scores.splits.map (·.identifier) = accentedWithEmpty.take 2 ∧
      (∀ s ∈ scores.splits, s.Selects accentedName accentedCut) ∧
      scores.fertility * scores.splits.length = 3 := by
  have hcover : checkCover accentedCut accentedName.length = .ok () := by decide
  obtain ⟨-, hexists, hselects, hexact⟩ :=
    scoreIdentifiers_selects ℚ hcover accentedWithEmpty (fun t => [t]) .pending
  obtain ⟨scores, hscores⟩ := hexists (by decide)
  obtain ⟨hrecords, hsplits, -⟩ := hselects scores hscores
  have htwo : accentedWithEmpty.filter (fun identifier => accentedName.IsText identifier.span)
      = accentedWithEmpty.take 2 := by decide +kernel
  rw [htwo] at hrecords
  refine ⟨hcover, scores, hscores, hrecords, hsplits, ?_⟩
  have hthree : stopCount accentedCut (accentedWithEmpty.take 2) = 3 := by decide
  rw [hexact scores hscores, hrecords, hthree]
  rfl

/-- **Raw and clipped splits agree on aligned identifiers.**  If no token lies across an end of
an identifier with a text, the clipped split is the raw one with the underscores removed from
each piece and without the pieces that are empty then. -/
theorem scoreIdentifiers_clipped_eq_raw (α : Type) [Scalar α] {d : Document}
    {tokens : List Span} (hcover : checkCover tokens d.length = .ok ())
    (identifiers : List SyntaxToken) (splitter : IdentifierSplitter) (deadline : Deadline) :
    (deadline ≠ .expired →
      ∃ scores, scoreIdentifiers α d identifiers tokens splitter deadline = .ok scores) ∧
    ∀ scores, scoreIdentifiers α d identifiers tokens splitter deadline = .ok scores →
      scores.splits.map (·.identifier)
        = identifiers.filter (fun identifier => d.IsText identifier.span) ∧
      ∀ s ∈ scores.splits, Respects tokens s.identifier.span →
        s.clipped = (s.raw.map withoutUnderscores).filter (!·.isEmpty) := by
  have hchain := checkCover_eq_ok_iff.mp hcover
  refine ⟨exists_scoreIdentifiers_eq_ok α d identifiers tokens splitter, ?_⟩
  intro scores hscores
  refine ⟨map_identifier_splits hscores, ?_⟩
  intro s hs hrespects
  rw [splits_of_scoreIdentifiers_eq_ok hscores] at hs
  obtain ⟨identifier, text, htext, rfl⟩ := exists_of_mem_filterMap_of? hs
  exact clipped_eq_raw hchain htext splitter hrespects

/-- A cover of `(a_é)` with a boundary at both ends of the name and an empty token at each; it
cuts the `é`. -/
def accentedEnds : List Span :=
  Span.layout 0 [1, 0, 2, 1, 1, 0, 1]

theorem scoreIdentifiers_clipped_eq_raw_accented :
    checkCover accentedEnds accentedName.length = .ok () ∧
    ∃ scores, scoreIdentifiers ℚ accentedName accentedIdentifiers accentedEnds (fun t => [t])
        .pending = .ok scores ∧
      scores.splits.map (·.identifier) = accentedIdentifiers.take 1 ∧
      ∀ s ∈ scores.splits, Respects accentedEnds s.identifier.span ∧
        s.clipped = (s.raw.map withoutUnderscores).filter (!·.isEmpty) := by
  have hcover : checkCover accentedEnds accentedName.length = .ok () := by decide
  obtain ⟨hexists, hagree⟩ :=
    scoreIdentifiers_clipped_eq_raw ℚ hcover accentedIdentifiers (fun t => [t]) .pending
  obtain ⟨scores, hscores⟩ := hexists (by decide)
  obtain ⟨hrecords, hsplits⟩ := hagree scores hscores
  have hone : accentedIdentifiers.filter (fun identifier => accentedName.IsText identifier.span)
      = accentedIdentifiers.take 1 := by decide +kernel
  rw [hone] at hrecords
  refine ⟨hcover, scores, hscores, hrecords, ?_⟩
  intro s hs
  have hidentifier : s.identifier ∈ accentedIdentifiers.take 1 :=
    hrecords ▸ List.mem_map_of_mem hs
  have hrespects : Respects accentedEnds s.identifier.span := by
    rw [List.mem_singleton.mp hidentifier]
    decide
  exact ⟨hrespects, hsplits s hs hrespects⟩

end TokenAlignment
