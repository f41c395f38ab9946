/-
TokenAlignment/Proofs/Syntax/CoverKinds.lean

The kind of every byte.  Over leaves with starts in order, the tokens of a tree
label each byte with the first leaf that holds it:

    kind of the token at i  =  kindAt leaves i

and `unknown` where no leaf does (`tokens_kind`).

The cover knows one offset only, so the invariant has to say what that offset tells
about all leaves so far.  Ahead of it no leaf holds a byte.  Behind it a byte that
no leaf holds lies before the start of some leaf, and with starts in order it lies
before the start of every leaf still to come: its label is final.
-/
import TokenAlignment.Proofs.Syntax.Cover

namespace TokenAlignment

namespace SyntaxTree

/-! ### The first leaf of a byte -/

/-- Whether the byte at offset `i` lies in the reported range. -/
def holds (t : SyntaxTree) (i : Nat) : Bool :=
  t.start ≤ i && i < t.stop

@[simp] theorem holds_iff (t : SyntaxTree) (i : Nat) :
    t.holds i = true ↔ t.start ≤ i ∧ i < t.stop := by
  simp [holds]

/-- The kind of the first leaf that holds the byte at offset `i`, the kind of a gap
if none does. -/
def kindAt (leaves : List SyntaxTree) (i : Nat) : String :=
  match leaves.find? (·.holds i) with
  | some leaf => leaf.kind
  | none => unknownKind

variable {leaves : List SyntaxTree} {t : SyntaxTree} {i : Nat}

theorem kindAt_of_none (h : ∀ leaf ∈ leaves, ¬ leaf.holds i = true) :
    kindAt leaves i = unknownKind := by
  rw [kindAt, List.find?_eq_none.mpr h]

/-- A leaf says nothing about a byte that an earlier leaf holds. -/
theorem kindAt_concat_of_held (h : ∃ leaf ∈ leaves, leaf.holds i = true) :
    kindAt (leaves ++ [t]) i = kindAt leaves i := by
  obtain ⟨leaf, hleaf⟩ := Option.isSome_iff_exists.mp (List.find?_isSome.mpr h)
  rw [kindAt, kindAt, List.find?_append, hleaf, Option.some_or]

/-- A leaf says nothing about a byte that it does not hold. -/
theorem kindAt_concat_of_not_holds (h : ¬ t.holds i = true) :
    kindAt (leaves ++ [t]) i = kindAt leaves i := by
  rw [kindAt, kindAt, List.find?_append, List.find?_singleton, if_neg h, Option.or_none]

theorem kindAt_concat_of_holds (hnone : ∀ leaf ∈ leaves, ¬ leaf.holds i = true)
    (h : t.holds i = true) : kindAt (leaves ++ [t]) i = t.kind := by
  rw [kindAt, List.find?_append, List.find?_eq_none.mpr hnone, List.find?_singleton,
    if_pos h, Option.none_or]

end SyntaxTree

namespace SyntaxCover

open SyntaxTree

theorem mem_fillTo {cover : SyntaxCover} {offset : Nat} {token : SyntaxToken}
    (h : token ∈ (cover.fillTo offset).tokens) :
    token ∈ cover.tokens ∨ (token.kind = unknownKind ∧
      token.span.start = cover.reached ∧ token.span.stop = offset) := by
  by_cases hgap : cover.reached < offset
  · rw [fillTo_of_lt hgap] at h
    rcases List.mem_cons.mp h with rfl | h
    · exact .inr ⟨rfl, rfl, rfl⟩
    · exact .inl h
  · rw [fillTo_of_le (Nat.le_of_not_lt hgap)] at h
    exact .inl h

theorem Reaches.stop_le {length : Nat} {cover : SyntaxCover} (h : cover.Reaches length)
    {token : SyntaxToken} (htoken : token ∈ cover.tokens) :
    token.span.stop ≤ cover.reached :=
  h.chain.stop_le (List.mem_map_of_mem (List.mem_reverse.mpr htoken))

/-! ### The invariant -/

/-- The tokens label their bytes with the first of the leaves.  No leaf holds a byte
ahead of the cover, and every byte behind it has got its label for good: a leaf holds
it, or the leaves have started behind it. -/
structure Labels (length : Nat) (leaves : List SyntaxTree) (cover : SyntaxCover) : Prop where
  kinds : ∀ token ∈ cover.tokens, ∀ i, token.span.holds i = true →
    token.kind = kindAt leaves i
  ahead : ∀ leaf ∈ leaves, ∀ i, cover.reached ≤ i → i < length → ¬ leaf.holds i = true
  behind : ∀ i < cover.reached,
    (∃ leaf ∈ leaves, leaf.holds i = true) ∨ ∃ leaf ∈ leaves, i < leaf.start

variable {length : Nat} {leaves : List SyntaxTree} {cover : SyntaxCover} {t : SyntaxTree}

theorem labels_empty (length : Nat) : empty.Labels length [] :=
  ⟨by simp [empty], by simp, by simp [empty]⟩

/-- The bytes behind the cover keep their label when the next leaf comes. -/
theorem Labels.kindAt_concat (h : cover.Labels length leaves)
    (hsorted : ∀ leaf ∈ leaves, leaf.start ≤ t.start) {i : Nat} (hi : i < cover.reached) :
    kindAt (leaves ++ [t]) i = kindAt leaves i := by
  rcases h.behind i hi with hheld | ⟨leaf, hleaf, hbefore⟩
  · exact kindAt_concat_of_held hheld
  · refine kindAt_concat_of_not_holds ?_
    have := hsorted leaf hleaf
    simp only [SyntaxTree.holds_iff]
    omega

/-- The tokens there were keep telling the truth. -/
theorem Labels.kinds_concat (h : cover.Labels length leaves) (hreaches : cover.Reaches length)
    (hsorted : ∀ leaf ∈ leaves, leaf.start ≤ t.start) :
    ∀ token ∈ cover.tokens, ∀ i, token.span.holds i = true →
      token.kind = kindAt (leaves ++ [t]) i := by
  intro token htoken i hi
  have hstop := hreaches.stop_le htoken
  rw [h.kindAt_concat hsorted (Nat.lt_of_lt_of_le ((Span.holds_iff ..).mp hi).2 hstop)]
  exact h.kinds token htoken i hi

/-- One more leaf does not take back what is behind the cover. -/
theorem Labels.behind_concat (h : cover.Labels length leaves) {i : Nat}
    (hi : i < cover.reached) :
    (∃ leaf ∈ leaves ++ [t], leaf.holds i = true) ∨ ∃ leaf ∈ leaves ++ [t], i < leaf.start := by
  rcases h.behind i hi with ⟨leaf, hleaf, hheld⟩ | ⟨leaf, hleaf, hbefore⟩
  · left
    exact ⟨leaf, List.mem_append_left _ hleaf, hheld⟩
  · right
    exact ⟨leaf, List.mem_append_left _ hleaf, hbefore⟩

/-- A leaf that is dropped has no byte ahead of the cover. -/
theorem Labels.drop (h : cover.Labels length leaves) (hreaches : cover.Reaches length)
    (hsorted : ∀ leaf ∈ leaves, leaf.start ≤ t.start)
    (hdrop : min t.stop length ≤ max t.start cover.reached) :
    cover.Labels length (leaves ++ [t]) where
  kinds := h.kinds_concat hreaches hsorted
  ahead := by
    intro leaf hleaf i hi hlength
    rcases List.mem_append.mp hleaf with hleaf | hleaf
    · exact h.ahead leaf hleaf i hi hlength
    · rw [List.mem_singleton.mp hleaf, SyntaxTree.holds_iff]
      omega
  behind _ hi := h.behind_concat hi

/-- A leaf that is kept holds all bytes of its token and none of the gap before it. -/
theorem Labels.keep (h : cover.Labels length leaves) (hreaches : cover.Reaches length)
    (hsorted : ∀ leaf ∈ leaves, leaf.start ≤ t.start) {start : Nat}
    (hle : start ≤ min t.stop length)
    (hstart : start = min (max t.start cover.reached) length) :
    Labels length (leaves ++ [t]) ⟨⟨⟨start, min t.stop length, hle⟩, t.kind⟩
      :: (cover.fillTo start).tokens, min t.stop length⟩ where
  kinds := by
    have hreached := hreaches.reached_le
    have hnone : ∀ i, cover.reached ≤ i → i < length →
        ∀ leaf ∈ leaves, ¬ leaf.holds i = true :=
      fun i hi hlength leaf hleaf => h.ahead leaf hleaf i hi hlength
    intro token htoken i hi
    rw [Span.holds_iff] at hi
    rcases List.mem_cons.mp htoken with rfl | htoken
    · -- the token of the leaf
      simp only at hi ⊢
      rw [kindAt_concat_of_holds (hnone i (by omega) (by omega))]
      rw [SyntaxTree.holds_iff]
      omega
    · rcases mem_fillTo htoken with hold | ⟨hkind, hfrom, hto⟩
      · exact h.kinds_concat hreaches hsorted token hold i ((Span.holds_iff ..).mpr hi)
      · -- the gap before it
        have hnot : ¬ t.holds i = true := by
          rw [SyntaxTree.holds_iff]
          omega
        rw [hkind, kindAt_concat_of_not_holds hnot,
          kindAt_of_none (hnone i (by omega) (by omega))]
  ahead := by
    have hreached := hreaches.reached_le
    intro leaf hleaf i hi hlength
    simp only at hi
    rcases List.mem_append.mp hleaf with hleaf | hleaf
    · exact h.ahead leaf hleaf i (by omega) hlength
    · rw [List.mem_singleton.mp hleaf, SyntaxTree.holds_iff]
      omega
  behind := by
    intro i hi
    simp only at hi
    by_cases hold : i < cover.reached
    · exact h.behind_concat hold
    · -- a byte between the old offset and the new one
      by_cases hgap : i < t.start
      · exact .inr ⟨t, by simp, hgap⟩
      · refine .inl ⟨t, by simp, ?_⟩
        rw [SyntaxTree.holds_iff]
        omega

theorem Labels.addNode (h : cover.Labels length leaves) (hreaches : cover.Reaches length)
    (ht : t.start ≤ t.stop) (hsorted : ∀ leaf ∈ leaves, leaf.start ≤ t.start) :
    (cover.addNode length t).Labels length (leaves ++ [t]) := by
  rcases addNode_cases ht hreaches.reached_le with
    ⟨hnothing, hdrop⟩ | ⟨start, hle, hstart, -, hkeep⟩
  · rw [hdrop]
    exact h.drop hreaches hsorted hnothing
  · rw [hkeep]
    exact h.keep hreaches hsorted hle hstart

theorem labels_ofLeaves (length : Nat) (hspan : ∀ t ∈ leaves, t.HasSpan)
    (hsorted : leaves.Pairwise fun a b => a.start ≤ b.start) :
    (ofLeaves length leaves).Labels length leaves := by
  induction leaves using List.reverseRecOn with
  | nil => exact labels_empty length
  | append_singleton leaves t ih =>
      rw [List.pairwise_append] at hsorted
      rw [List.forall_mem_append] at hspan
      rw [ofLeaves_concat]
      refine (ih hspan.1 hsorted.1).addNode (reaches_ofLeaves length leaves)
        (hspan.2 t (by simp)).1 ?_
      exact fun leaf hleaf => hsorted.2.2 leaf hleaf t (by simp)

end SyntaxCover

/-! ### The kind of a byte of the document -/

namespace SyntaxTree

open SyntaxCover

/-- **Every byte gets the kind of the first leaf that holds it.**  Over leaves with
spans and starts in order, a document that is not too long has tokens, and exactly
one of them holds a given byte: of the kind of the first leaf in document order
whose range holds the byte, and of the kind of a gap if there is no such leaf. -/
theorem tokens_kind (root : SyntaxTree) (length : Nat)
    (hspan : ∀ leaf ∈ root.leaves, leaf.HasSpan)
    (hsorted : root.leaves.Pairwise fun a b => a.start ≤ b.start) :
    (maxOffset < length →
      root.tokens length .unbounded = .error (.span (.endTooLarge length))) ∧
    (length ≤ maxOffset → ∃ tokens, root.tokens length .unbounded = .ok tokens ∧
      ∀ i < length, ∃ token, tokens.filter (·.span.holds i) = [token] ∧
        token.kind = kindAt root.leaves i) := by
  refine ⟨fun h => tokens_of_large root h .unbounded, fun hlength => ?_⟩
  refine ⟨_, tokens_eq_ok root hlength hspan, ?_⟩
  intro i hi
  have hreaches := reaches_ofLeaves length root.leaves
  have hlabels := labels_ofLeaves length hspan hsorted
  obtain ⟨span, hone⟩ := hreaches.chain_fillTo.filter_holds (Nat.zero_le i) hi
  rw [List.filter_map, List.map_eq_singleton_iff] at hone
  obtain ⟨token, htoken, -⟩ := hone
  refine ⟨token, htoken, ?_⟩
  have hmem := List.mem_singleton_self token
  rw [← htoken, List.mem_filter] at hmem
  obtain ⟨htokens, hholds⟩ := hmem
  rcases mem_fillTo (List.mem_reverse.mp htokens) with hold | ⟨hkind, hfrom, -⟩
  · exact hlabels.kinds token hold i hholds
  · have hbytes : token.span.start ≤ i ∧ i < token.span.stop := (Span.holds_iff ..).mp hholds
    rw [hfrom] at hbytes
    rw [hkind, kindAt_of_none]
    exact fun leaf hleaf => hlabels.ahead leaf hleaf i hbytes.1 hi

/-- A tree whose leaves overlap, nest and lie behind the end of ten bytes; the root's
own range is none. -/
def overlapping : SyntaxTree :=
  .node "root" 9 3 [.node "a" 2 5 [], .node "group" 4 9 [.node "b" 4 8 [], .node "c" 5 6 []],
    .node "d" 12 12 []]

theorem tokens_kind_overlapping :
    (∀ leaf ∈ overlapping.leaves, leaf.HasSpan) ∧
    (overlapping.leaves.Pairwise fun a b => a.start ≤ b.start) ∧
    (List.range 10).map (kindAt overlapping.leaves)
      = ["unknown", "unknown", "a", "a", "a", "b", "b", "b", "unknown", "unknown"] ∧
    ∃ tokens, overlapping.tokens 10 .unbounded = .ok tokens ∧
      ∀ i < 10, ∃ token, tokens.filter (·.span.holds i) = [token] ∧
        token.kind = kindAt overlapping.leaves i :=
  ⟨by decide, by decide, by decide,
    (tokens_kind overlapping 10 (by decide) (by decide)).2 (by decide)⟩

end SyntaxTree

end TokenAlignment
