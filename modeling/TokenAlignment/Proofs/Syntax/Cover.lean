/-
TokenAlignment/Proofs/Syntax/Cover.lean

The tokens of a syntax tree cover the document, for every tree: the leaves may
overlap, stand out of order, be empty or reach behind the end.

The tokens come from a fold over the leaves.  What one leaf does to the cover is
said once (`addNode_cases`): it is dropped, and then it has no byte left, or it is
kept, clipped to the bytes between `reached` and the end.  Along the fold the
tokens stay a chain from offset 0 to `reached`, and every token keeps a *source*:
the leaf that it stems from, or none for a gap.

Main result: `tokens_cover` says when there are no tokens, that only the leaves
count, and that the tokens are a chain over the document whose sources are leaves
in document order, with no two gaps side by side.
-/
import TokenAlignment.Proofs.SpanChain
import TokenAlignment.Proofs.Syntax.Preorder
import TokenAlignment.Syntax.Cover
import Mathlib.Data.List.Chain
import Mathlib.Data.List.ReduceOption

namespace TokenAlignment

namespace SyntaxTree

/-! ### Leaves with a span -/

/-- Whether the reported range is a span: in order, and within the offsets that
a span may reach. -/
def HasSpan (t : SyntaxTree) : Prop :=
  t.start ≤ t.stop ∧ t.stop ≤ maxOffset

instance (t : SyntaxTree) : Decidable t.HasSpan := by
  unfold HasSpan; infer_instance

theorem span?_eq_ok {t : SyntaxTree} (h : t.HasSpan) :
    t.span? = .ok ⟨t.start, t.stop, h.1⟩ :=
  Span.ofRange?_eq_ok h.1 h.2

theorem span?_eq_error {t : SyntaxTree} (h : ¬ t.HasSpan) : ∃ e, t.span? = .error e := by
  unfold HasSpan at h
  unfold span? Span.ofRange?
  split
  · split
    · exact ⟨_, rfl⟩
    · rw [if_pos (by omega)]
      exact ⟨_, rfl⟩
  · exact ⟨_, rfl⟩

end SyntaxTree

namespace SyntaxCover

/-! ### The fold over the leaves -/

/-- Adds a leaf with the range that was reported for it. -/
def addNode (length : Nat) (cover : SyntaxCover) (t : SyntaxTree) : SyntaxCover :=
  if h : t.start ≤ t.stop then cover.addLeaf length t.kind ⟨t.start, t.stop, h⟩ else cover

/-- The cover that some leaves leave behind. -/
def ofLeaves (length : Nat) (leaves : List SyntaxTree) : SyntaxCover :=
  leaves.foldl (addNode length) empty

theorem ofLeaves_concat (length : Nat) (leaves : List SyntaxTree) (t : SyntaxTree) :
    ofLeaves length (leaves ++ [t]) = (ofLeaves length leaves).addNode length t :=
  List.foldl_concat ..

theorem visit_of_not_leaf {t : SyntaxTree} (length : Nat) (cover : SyntaxCover)
    (h : t.isLeaf = false) : visit length cover t = .ok cover := by
  rw [visit, h]
  rfl

theorem visit_leaf_eq_ok {t : SyntaxTree} (length : Nat) (cover : SyntaxCover)
    (hleaf : t.isLeaf = true) (h : t.HasSpan) :
    visit length cover t = .ok (cover.addNode length t) := by
  rw [visit, if_pos hleaf, SyntaxTree.span?_eq_ok h, addNode, dif_pos h.1]

theorem visit_leaf_eq_error {t : SyntaxTree} (length : Nat) (cover : SyntaxCover)
    (hleaf : t.isLeaf = true) (h : ¬ t.HasSpan) :
    ∃ e, visit length cover t = .error (.span e) := by
  obtain ⟨e, he⟩ := SyntaxTree.span?_eq_error h
  exact ⟨e, by rw [visit, if_pos hleaf, he]⟩

theorem foldlM_visit_eq_ok {leaves : List SyntaxTree} (length : Nat) (cover : SyntaxCover)
    (hleaf : ∀ t ∈ leaves, t.isLeaf = true) (h : ∀ t ∈ leaves, t.HasSpan) :
    leaves.foldlM (visit length) cover = .ok (leaves.foldl (addNode length) cover) := by
  induction leaves generalizing cover with
  | nil => rfl
  | cons t leaves ih =>
      rw [List.forall_mem_cons] at hleaf h
      rw [List.foldlM_cons, visit_leaf_eq_ok length cover hleaf.1 h.1]
      exact ih (cover.addNode length t) hleaf.2 h.2

end SyntaxCover

namespace SyntaxTree

open SyntaxCover

theorem tokens_of_large (root : SyntaxTree) {length : Nat} (h : maxOffset < length)
    (deadline : Deadline) : root.tokens length deadline = .error (.span (.endTooLarge length)) := by
  rw [tokens, if_pos h]

theorem tokens_eq_walk (root : SyntaxTree) {length : Nat} (h : length ≤ maxOffset) :
    root.tokens length .unbounded = (root.leaves.foldlM (visit length) empty).map
      fun cover => (cover.fillTo length).tokens.reverse := by
  rw [tokens, if_neg (Nat.not_lt.mpr h),
    walk_eq_foldlM_leaves (fun s t => visit_of_not_leaf length s)]
  rcases root.leaves.foldlM (visit length) empty with e | cover <;> rfl

/-- **The tokens come from the leaves alone**: the clip-and-gap step folded over
them, and the gap that is left at the end. -/
theorem tokens_eq_ok (root : SyntaxTree) {length : Nat} (hlength : length ≤ maxOffset)
    (h : ∀ t ∈ root.leaves, t.HasSpan) :
    root.tokens length .unbounded
      = .ok ((ofLeaves length root.leaves).fillTo length).tokens.reverse := by
  rw [tokens_eq_walk root hlength,
    foldlM_visit_eq_ok length empty (fun _ => isLeaf_of_mem_leaves) h]
  rfl

theorem tokens_eq_error (root : SyntaxTree) {length : Nat} (hlength : length ≤ maxOffset)
    (h : ∃ t ∈ root.leaves, ¬ t.HasSpan) :
    ∃ e, root.tokens length .unbounded = .error (.span e) := by
  have hfold : ∃ e, root.preorder.foldlM (visit length) empty = .error (.span e) := by
    refine foldlM_eq_error (fun t => t.isLeaf = true → t.HasSpan) ?_ ?_ empty ?_
    · intro cover t ht
      by_cases hleaf : t.isLeaf = true
      · exact ⟨_, visit_leaf_eq_ok length cover hleaf (ht hleaf)⟩
      · exact ⟨_, visit_of_not_leaf length cover (Bool.eq_false_iff.mpr hleaf)⟩
    · intro cover t ht
      obtain ⟨hleaf, hspan⟩ := Classical.not_imp.mp ht
      exact visit_leaf_eq_error length cover hleaf hspan
    · obtain ⟨t, ht, hspan⟩ := h
      obtain ⟨hmem, hleaf⟩ := List.mem_filter.mp ht
      exact ⟨t, hmem, fun hpass => hspan (hpass hleaf)⟩
  obtain ⟨e, he⟩ := hfold
  refine ⟨e, ?_⟩
  rw [tokens, if_neg (Nat.not_lt.mpr hlength), walk_eq_foldlM, he]
  rfl

theorem tokens_eq_error_iff (root : SyntaxTree) (length : Nat) :
    (∃ e, root.tokens length .unbounded = .error e)
      ↔ maxOffset < length ∨ ∃ t ∈ root.leaves, ¬ t.HasSpan := by
  constructor
  · rintro ⟨e, he⟩
    by_contra hcon
    simp only [not_or, not_exists, not_and, not_not, Nat.not_lt] at hcon
    rw [tokens_eq_ok root hcon.1 hcon.2] at he
    cases he
  · rintro (h | h)
    · exact ⟨_, tokens_of_large root h .unbounded⟩
    · by_cases hlength : length ≤ maxOffset
      · obtain ⟨e, he⟩ := tokens_eq_error root hlength h
        exact ⟨_, he⟩
      · exact ⟨_, tokens_of_large root (Nat.lt_of_not_le hlength) .unbounded⟩

theorem hasSpan_of_tokens_eq_ok {root : SyntaxTree} {length : Nat} {tokens : List SyntaxToken}
    (h : root.tokens length .unbounded = .ok tokens) :
    length ≤ maxOffset ∧ ∀ t ∈ root.leaves, t.HasSpan := by
  have hok : ¬ ∃ e, root.tokens length .unbounded = .error e := by
    rintro ⟨e, he⟩
    rw [h] at he
    cases he
  rw [tokens_eq_error_iff] at hok
  simpa only [not_or, not_exists, not_and, not_not, Nat.not_lt] using hok

/-- Tokens do not depend on the deadline. -/
theorem tokens_unbounded_of_eq_ok {root : SyntaxTree} {length : Nat} {deadline : Deadline}
    {tokens : List SyntaxToken} (h : root.tokens length deadline = .ok tokens) :
    root.tokens length .unbounded = .ok tokens := by
  cases deadline with
  | unbounded => exact h
  | pending => exact h
  | expired =>
      rw [SyntaxTree.tokens] at h
      split at h <;> cases h

end SyntaxTree

/-! ### What one leaf does to the cover -/

namespace SyntaxCover

theorem fillTo_of_le {cover : SyntaxCover} {offset : Nat} (h : offset ≤ cover.reached) :
    cover.fillTo offset = cover := by
  rw [fillTo, dif_neg (Nat.not_lt.mpr h)]

theorem fillTo_of_lt {cover : SyntaxCover} {offset : Nat} (h : cover.reached < offset) :
    cover.fillTo offset
      = ⟨.unknown ⟨cover.reached, offset, Nat.le_of_lt h⟩ :: cover.tokens, offset⟩ := by
  rw [fillTo, dif_pos h]

/-- The part of a leaf that is not covered yet is `start ≤ i < stop`.  Either it
has no byte and the leaf is dropped, or the leaf is kept with this range, which
then is empty for an empty leaf only. -/
theorem addNode_cases {length : Nat} {cover : SyntaxCover} {t : SyntaxTree}
    (ht : t.start ≤ t.stop) (hreached : cover.reached ≤ length) :
    (min t.stop length ≤ max t.start cover.reached ∧
      cover.addNode length t = cover) ∨
    ∃ (start : Nat) (h : start ≤ min t.stop length),
      start = min (max t.start cover.reached) length ∧
      (start < min t.stop length ∨ t.start = t.stop) ∧
      cover.addNode length t = ⟨⟨⟨start, min t.stop length, h⟩, t.kind⟩
        :: (cover.fillTo start).tokens, min t.stop length⟩ := by
  rw [addNode, dif_pos ht, addLeaf]
  by_cases h : min (max t.start cover.reached) length ≤ min t.stop length
  · by_cases hdrop : min (max t.start cover.reached) length = min t.stop length ∧
        t.start ≠ t.stop
    · left
      refine ⟨by omega, ?_⟩
      rw [dif_pos h, if_pos (by simpa [Span.isEmpty] using hdrop)]
    · right
      refine ⟨_, h, rfl, by omega, ?_⟩
      rw [dif_pos h, if_neg (by simpa [Span.isEmpty] using hdrop)]
  · left
    refine ⟨by omega, ?_⟩
    rw [dif_neg h]

@[simp] theorem reached_fillTo (cover : SyntaxCover) (offset : Nat) :
    (cover.fillTo offset).reached = max cover.reached offset := by
  by_cases h : cover.reached < offset
  · rw [fillTo_of_lt h]
    exact (Nat.max_eq_right (Nat.le_of_lt h)).symm
  · rw [fillTo_of_le (Nat.le_of_not_lt h)]
    omega

/-! ### The chain -/

/-- The tokens are a chain from the first byte to the offset reached, which does
not lie behind the end. -/
structure Reaches (length : Nat) (cover : SyntaxCover) : Prop where
  chain : Span.Chain 0 (cover.tokens.reverse.map (·.span)) cover.reached
  reached_le : cover.reached ≤ length

theorem reaches_empty (length : Nat) : empty.Reaches length :=
  ⟨rfl, Nat.zero_le length⟩

/-- A token goes on where the cover stops. -/
theorem Reaches.cons {length : Nat} {cover : SyntaxCover} (h : cover.Reaches length)
    {t : SyntaxToken} (hstart : t.span.start = cover.reached) (hstop : t.span.stop ≤ length) :
    Reaches length ⟨t :: cover.tokens, t.span.stop⟩ where
  chain := by
    rw [List.reverse_cons, List.map_append, List.map_singleton, Span.chain_concat, hstart]
    exact ⟨h.chain, rfl⟩
  reached_le := hstop

theorem Reaches.fillTo {length : Nat} {cover : SyntaxCover} (h : cover.Reaches length)
    {offset : Nat} (hoffset : offset ≤ length) : (cover.fillTo offset).Reaches length := by
  by_cases hgap : cover.reached < offset
  · rw [fillTo_of_lt hgap]
    exact h.cons (t := .unknown ⟨cover.reached, offset, Nat.le_of_lt hgap⟩) rfl hoffset
  · rw [fillTo_of_le (Nat.le_of_not_lt hgap)]
    exact h

theorem Reaches.addNode {length : Nat} {cover : SyntaxCover} (h : cover.Reaches length)
    (t : SyntaxTree) : (cover.addNode length t).Reaches length := by
  by_cases ht : t.start ≤ t.stop
  · rcases addNode_cases ht h.reached_le with ⟨-, hdrop⟩ | ⟨start, hle, hstart, -, hkeep⟩
    · rw [hdrop]
      exact h
    · rw [hkeep]
      have hfill : (cover.fillTo start).Reaches length := h.fillTo (by omega)
      refine hfill.cons (t := ⟨⟨start, min t.stop length, hle⟩, t.kind⟩) ?_ ?_
      · have := h.reached_le
        simp only [reached_fillTo]
        omega
      · exact Nat.min_le_right ..
  · rw [SyntaxCover.addNode, dif_neg ht]
    exact h

theorem reaches_ofLeaves (length : Nat) (leaves : List SyntaxTree) :
    (ofLeaves length leaves).Reaches length := by
  induction leaves using List.reverseRecOn with
  | nil => exact reaches_empty length
  | append_singleton leaves t ih =>
      rw [ofLeaves_concat]
      exact ih.addNode t

/-- The gap at the end closes the chain. -/
theorem Reaches.chain_fillTo {length : Nat} {cover : SyntaxCover} (h : cover.Reaches length) :
    Span.Chain 0 ((cover.fillTo length).tokens.reverse.map (·.span)) length := by
  have hchain := (h.fillTo (Nat.le_refl length)).chain
  rwa [reached_fillTo, Nat.max_eq_right h.reached_le] at hchain

end SyntaxCover

/-! ### Where the tokens come from -/

/-- Whether a token can stem from a leaf, or for `none` be a gap.  A leaf gives its
kind and bytes of its own; a gap has bytes. -/
def SyntaxToken.StemsFrom (token : SyntaxToken) : Option SyntaxTree → Prop
  | some leaf => token.kind = leaf.kind ∧
      (token.span.start < token.span.stop →
        leaf.start ≤ token.span.start ∧ token.span.stop ≤ leaf.stop)
  | none => token.kind = unknownKind ∧ token.span.start < token.span.stop

/-- `sources` tells for each token the leaf that it stems from, or that it is a
gap: no leaf is used twice, they keep their order, and gaps do not touch. -/
structure SourcedBy (leaves : List SyntaxTree) (tokens : List SyntaxToken)
    (sources : List (Option SyntaxTree)) : Prop where
  stems : List.Forall₂ SyntaxToken.StemsFrom tokens sources
  inOrder : sources.reduceOption.Sublist leaves
  gapsApart : sources.IsChain fun a b => a ≠ none ∨ b ≠ none

namespace SourcedBy

variable {leaves : List SyntaxTree} {tokens : List SyntaxToken}
variable {sources : List (Option SyntaxTree)} {token : SyntaxToken} {t : SyntaxTree}

theorem skip (h : SourcedBy leaves tokens sources) :
    SourcedBy (leaves ++ [t]) tokens sources :=
  ⟨h.stems, h.inOrder.trans (List.sublist_append_left ..), h.gapsApart⟩

theorem concat_leaf (h : SourcedBy leaves tokens sources) (htoken : token.StemsFrom (some t)) :
    SourcedBy (leaves ++ [t]) (tokens ++ [token]) (sources ++ [some t]) where
  stems := List.rel_append h.stems (.cons htoken .nil)
  inOrder := by
    rw [List.reduceOption_append, List.reduceOption_singleton]
    exact h.inOrder.append (List.Sublist.refl _)
  gapsApart := by
    rw [List.isChain_append]
    exact ⟨h.gapsApart, .singleton _, by simp⟩

theorem concat_gap (h : SourcedBy leaves tokens sources) (hlast : sources.getLast? ≠ some none)
    (htoken : token.StemsFrom none) :
    SourcedBy leaves (tokens ++ [token]) (sources ++ [none]) where
  stems := List.rel_append h.stems (.cons htoken .nil)
  inOrder := by
    rw [List.reduceOption_append, List.reduceOption_singleton]
    simpa using h.inOrder
  gapsApart := by
    rw [List.isChain_append]
    refine ⟨h.gapsApart, .singleton _, ?_⟩
    intro source hsource _ _
    left
    rintro rfl
    exact absurd hsource hlast

end SourcedBy

namespace SyntaxCover

/-- A gap is one more token, of no leaf. -/
theorem sourcedBy_fillTo {leaves : List SyntaxTree} {cover : SyntaxCover}
    {sources : List (Option SyntaxTree)} (offset : Nat)
    (h : SourcedBy leaves cover.tokens.reverse sources)
    (hlast : sources.getLast? ≠ some none) :
    ∃ sources', SourcedBy leaves (cover.fillTo offset).tokens.reverse sources' := by
  by_cases hgap : cover.reached < offset
  · rw [fillTo_of_lt hgap, List.reverse_cons]
    exact ⟨_, h.concat_gap hlast ⟨rfl, hgap⟩⟩
  · rw [fillTo_of_le (Nat.le_of_not_lt hgap)]
    exact ⟨sources, h⟩

/-- Between leaves the newest token is never a gap: a gap is only filled in front
of a leaf that is kept. -/
theorem sourcedBy_ofLeaves (length : Nat) (leaves : List SyntaxTree) :
    ∃ sources, SourcedBy leaves (ofLeaves length leaves).tokens.reverse sources ∧
      sources.getLast? ≠ some none := by
  induction leaves using List.reverseRecOn with
  | nil => exact ⟨[], ⟨.nil, .slnil, .nil⟩, by simp⟩
  | append_singleton leaves t ih =>
      obtain ⟨sources, hsources, hlast⟩ := ih
      have hreached := (reaches_ofLeaves length leaves).reached_le
      rw [ofLeaves_concat]
      by_cases ht : t.start ≤ t.stop
      · rcases addNode_cases ht hreached with ⟨-, hdrop⟩ | ⟨start, hle, hstart, -, hkeep⟩
        · rw [hdrop]
          exact ⟨sources, hsources.skip, hlast⟩
        · obtain ⟨sources', hsources'⟩ := sourcedBy_fillTo start hsources hlast
          rw [hkeep, List.reverse_cons]
          refine ⟨sources' ++ [some t], hsources'.concat_leaf ⟨rfl, ?_⟩, by simp⟩
          intro hbytes
          simp only at hbytes ⊢
          omega
      · rw [addNode, dif_neg ht]
        exact ⟨sources, hsources.skip, hlast⟩

end SyntaxCover

/-! ### The cover of a tree -/

namespace SyntaxTree

open SyntaxCover

/-- The tokens follow each other from the first byte to the last. -/
theorem chain_of_tokens_eq_ok {root : SyntaxTree} {length : Nat} {deadline : Deadline}
    {tokens : List SyntaxToken} (h : root.tokens length deadline = .ok tokens) :
    Span.Chain 0 (tokens.map (·.span)) length := by
  have hunbounded := tokens_unbounded_of_eq_ok h
  obtain ⟨hlength, hspan⟩ := hasSpan_of_tokens_eq_ok hunbounded
  rw [tokens_eq_ok root hlength hspan] at hunbounded
  cases hunbounded
  exact (reaches_ofLeaves length root.leaves).chain_fillTo

/-- **The tokens of a tree cover the document**, whatever the leaves are.  There are
none exactly when the document or a leaf leaves the offsets of spans; nothing but
the leaves counts, so the ranges of nodes with children may be anything; and the
tokens follow each other from the first byte to the last, each from a leaf inside
whose range it lies or a gap with bytes, with no two gaps side by side. -/
theorem tokens_cover (root : SyntaxTree) (length : Nat) :
    ((∃ e, root.tokens length .unbounded = .error e)
      ↔ maxOffset < length ∨ ∃ leaf ∈ root.leaves, ¬ leaf.HasSpan) ∧
    (∀ other : SyntaxTree, other.leaves = root.leaves →
      other.tokens length .unbounded = root.tokens length .unbounded) ∧
    ∀ tokens, root.tokens length .unbounded = .ok tokens →
      Span.Chain 0 (tokens.map (·.span)) length ∧ (tokens = [] → length = 0) ∧
      ∃ sources, SourcedBy root.leaves tokens sources := by
  refine ⟨tokens_eq_error_iff root length, ?_, ?_⟩
  · intro other hleaves
    by_cases hlength : length ≤ maxOffset
    · rw [tokens_eq_walk other hlength, tokens_eq_walk root hlength, hleaves]
    · rw [tokens_of_large other (Nat.lt_of_not_le hlength),
        tokens_of_large root (Nat.lt_of_not_le hlength)]
  · intro tokens htokens
    obtain ⟨hlength, hspan⟩ := hasSpan_of_tokens_eq_ok htokens
    rw [tokens_eq_ok root hlength hspan] at htokens
    cases htokens
    have hchain := (reaches_ofLeaves length root.leaves).chain_fillTo
    obtain ⟨sources, hsources, hlast⟩ := sourcedBy_ofLeaves length root.leaves
    refine ⟨hchain, ?_, sourcedBy_fillTo length hsources hlast⟩
    intro hempty
    rw [hempty] at hchain
    exact hchain.symm

end SyntaxTree

end TokenAlignment
