/-
TokenAlignment/Proofs/Syntax/Walks.lean

The two walks over a tree follow its recursive pre-order,

    identifiers  =  the nodes of the listed kinds, or the fault of the first that is no span
    tokens       =  the clip-and-gap step, folded over the leaves,

in this order, for trees of any shape.

Design.  A walk keeps a list of trees still to visit; that it visits the pre-order of all of
them, whatever the visit does, is `walkFrom_eq_foldlM`.  So both results can be read off the list
of nodes.  Which ranges matter is said by a second tree that differs from the first in the ranges
of the other nodes only (`AgreesOn`).

Main result: `walks_follow_preorder`.
-/
import TokenAlignment.Proofs.Syntax.Identifiers

namespace TokenAlignment

namespace SyntaxTree

/-! ### Trees with other ranges -/

mutual

/-- Whether two trees differ in nothing but the ranges of nodes whose kind is not listed. -/
def AgreesOn (kinds : List String) : SyntaxTree → SyntaxTree → Prop
  | node kind start stop children, node kind' start' stop' children' =>
    kind = kind' ∧ (kind ∈ kinds → start = start' ∧ stop = stop') ∧
      ForestAgreesOn kinds children children'

/-- `AgreesOn` for several trees, side by side. -/
def ForestAgreesOn (kinds : List String) : List SyntaxTree → List SyntaxTree → Prop
  | [], [] => True
  | t :: ts, u :: us => AgreesOn kinds t u ∧ ForestAgreesOn kinds ts us
  | _, _ => False

end

variable {kinds : List String}

/-- What the nodes of the listed kinds report, the tree itself before those below it. -/
theorem map_report_ofKinds (t : SyntaxTree) : (t.ofKinds kinds).map report
    = (if t.kind ∈ kinds then [t.report] else []) ++
      ((forestPreorder t.children).filter fun t => kinds.contains t.kind).map report := by
  rw [ofKinds, preorder_eq, List.filter_cons]
  simp only [List.contains_iff_mem]
  split <;> rfl

mutual

/-- Trees that agree on the listed kinds report the same for the nodes of these. -/
theorem AgreesOn.map_report : {t u : SyntaxTree} → AgreesOn kinds t u →
    (t.ofKinds kinds).map report = (u.ofKinds kinds).map report
  | node kind start stop children, node kind' start' stop' children', h => by
    obtain ⟨rfl, hrange, hchildren⟩ := h
    have hreport (hkind : kind ∈ kinds) :
        (node kind start stop children).report = (node kind start' stop' children').report := by
      obtain ⟨rfl, rfl⟩ := hrange hkind
      rfl
    rw [map_report_ofKinds, map_report_ofKinds]
    refine congrArg₂ _ ?_ hchildren.map_report
    exact if_ctx_congr Iff.rfl (fun hkind => by rw [hreport hkind]) fun _ => rfl

theorem ForestAgreesOn.map_report : {ts us : List SyntaxTree} → ForestAgreesOn kinds ts us →
    ((forestPreorder ts).filter fun t => kinds.contains t.kind).map report
      = ((forestPreorder us).filter fun t => kinds.contains t.kind).map report
  | [], [], _ => rfl
  | t :: ts, u :: us, h => by
    obtain ⟨htree, hforest⟩ := h
    rw [forestPreorder, forestPreorder, List.filter_append, List.filter_append, List.map_append,
      List.map_append, hforest.map_report]
    exact congrArg (· ++ _) htree.map_report

end

/-- **The ranges of other nodes do not matter** for the identifiers. -/
theorem AgreesOn.identifiers_eq {t u : SyntaxTree} (h : AgreesOn kinds t u) :
    t.identifiers kinds .unbounded = u.identifiers kinds .unbounded := by
  have hmap (nodes : List SyntaxTree) : nodes.mapM report = (nodes.map report).mapM id := by
    rw [List.mapM_map]
    rfl
  rw [identifiers_eq_mapM, identifiers_eq_mapM, hmap, hmap, h.map_report]

end SyntaxTree

/-! ### The leaves -/

namespace SyntaxCover

/-- The clip-and-gap step: adds a leaf, if its range is a span. -/
def clip (length : Nat) (cover : SyntaxCover) (leaf : SyntaxTree) :
    Except SyntaxError SyntaxCover :=
  match leaf.span? with
  | .ok span => .ok (cover.addLeaf length leaf.kind span)
  | .error e => .error (.span e)

theorem foldlM_visit {leaves : List SyntaxTree} (length : Nat) (cover : SyntaxCover)
    (h : ∀ t ∈ leaves, t.isLeaf = true) :
    leaves.foldlM (visit length) cover = leaves.foldlM (clip length) cover := by
  induction leaves generalizing cover with
  | nil => rfl
  | cons t leaves ih =>
      rw [List.forall_mem_cons] at h
      rw [List.foldlM_cons, List.foldlM_cons, visit, if_pos h.1, clip]
      exact bind_congr fun cover' => ih cover' h.2

end SyntaxCover

namespace SyntaxTree

/-- **The walks are the recursive pre-order.**  The identifiers are one token for each node of a
listed kind, a node before the nodes below it, with the kind and the range of the node; there are
none exactly when such a node has a range that is no span, and then the error is that of the
first; and the ranges of other nodes do not matter.  The tokens are what the clip-and-gap step
makes of the childless nodes, one after the other in the same order. -/
theorem walks_follow_preorder (root : SyntaxTree) (kinds : List String) (length : Nat) :
    (∀ found, root.identifiers kinds .unbounded = .ok found ↔
      (∀ t ∈ root.ofKinds kinds, t.HasSpan) ∧
        List.Forall₂ SyntaxToken.IsOf (root.ofKinds kinds) found) ∧
    ((∃ e, root.identifiers kinds .unbounded = .error e) ↔
      ∃ t ∈ root.ofKinds kinds, ¬ t.HasSpan) ∧
    (∀ e, root.identifiers kinds .unbounded = .error e ↔
      ∃ before t after fault, root.ofKinds kinds = before ++ t :: after ∧
        (∀ u ∈ before, u.HasSpan) ∧ t.span? = .error fault ∧ e = .span fault) ∧
    (∀ other, AgreesOn kinds root other →
      other.identifiers kinds .unbounded = root.identifiers kinds .unbounded) ∧
    root.tokens length .unbounded
      = if maxOffset < length then .error (.span (.endTooLarge length))
        else (root.leaves.foldlM (SyntaxCover.clip length) .empty).map
          fun cover => (cover.fillTo length).tokens.reverse := by
  refine ⟨root.identifiers_eq_ok_iff kinds, ⟨?_, ?_⟩, root.identifiers_eq_error_iff kinds,
    fun other h => h.identifiers_eq.symm, ?_⟩
  · rintro ⟨e, he⟩
    by_contra hspans
    have hall : ∀ t ∈ root.ofKinds kinds, t.HasSpan := by simpa using hspans
    have hok := root.identifiers_eq_ok hall
    rw [he] at hok
    cases hok
  · intro h
    obtain ⟨fault, hfault⟩ := root.identifiers_eq_error h
    exact ⟨_, hfault⟩
  · split
    · rename_i hlength
      exact root.tokens_of_large hlength .unbounded
    · rename_i hlength
      rw [root.tokens_eq_walk (Nat.le_of_not_lt hlength),
        SyntaxCover.foldlM_visit length .empty fun t ht => isLeaf_of_mem_leaves ht]

/-- A name with a name below it. -/
def longName : SyntaxTree :=
  node "name" 0 4 [node "name" 0 2 [], node "." 2 4 []]

/-- Two names, one of them below a node with the given range. -/
def nestedNames (start stop : Nat) : SyntaxTree :=
  node "call" 0 9 [longName, node "argument" start stop [node "name" 5 9 []]]

/-- An inverted range of an argument is in nobody's way, unless arguments are asked for. -/
theorem walks_follow_preorder_nested :
    (nestedNames 7 3).identifiers ["name"] .unbounded
      = .ok [⟨⟨0, 4, by decide⟩, "name"⟩, ⟨⟨0, 2, by decide⟩, "name"⟩,
        ⟨⟨5, 9, by decide⟩, "name"⟩] ∧
    (nestedNames 4 9).identifiers ["name"] .unbounded
      = (nestedNames 7 3).identifiers ["name"] .unbounded ∧
    (nestedNames 7 3).identifiers ["argument", "name"] .unbounded
      = .error (.span (.inverted 7 3)) := by
  obtain ⟨hok, -, -, hother, -⟩ := walks_follow_preorder (nestedNames 7 3) ["name"] 9
  obtain ⟨-, -, herror, -⟩ := walks_follow_preorder (nestedNames 7 3) ["argument", "name"] 9
  refine ⟨(hok _).mpr ⟨by decide +kernel, ?_⟩, hother _ ?_, (herror _).mpr ?_⟩
  · show List.Forall₂ _ [longName, node "name" 0 2 [], node "name" 5 9 []] _
    exact .cons ⟨rfl, rfl, rfl⟩ (.cons ⟨rfl, rfl, rfl⟩ (.cons ⟨rfl, rfl, rfl⟩ .nil))
  · simp [nestedNames, longName, AgreesOn, ForestAgreesOn]
  · exact ⟨[longName, node "name" 0 2 []], node "argument" 7 3 [node "name" 5 9 []],
      [node "name" 5 9 []], _, rfl, by decide +kernel, rfl, rfl⟩

end SyntaxTree

end TokenAlignment
