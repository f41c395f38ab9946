/-
TokenAlignment/Proofs/Syntax/Identifiers.lean

The identifiers of a tree are its nodes of the listed kinds, in pre-order,

    identifiers  =  preorder, of these kinds, as tokens,

as long as the ranges of these nodes are spans (`identifiers_eq_ok`), and an error if one of
them is not (`identifiers_eq_error`); the ranges of other nodes do not matter.

The walk is a traversal of these nodes that reads each of them as a token and stops at the
first that is none (`identifiers_eq_mapM`).
-/
import TokenAlignment.Proofs.Syntax.Cover
import TokenAlignment.Syntax.Identifiers

namespace TokenAlignment

/-! ### Traversals that may fail -/

section Traversal

variable {ε β γ : Type} {f : β → Except ε γ}

/-- A traversal succeeds if every element does, and has their results in order. -/
theorem mapM_eq_ok_iff {xs : List β} {ys : List γ} :
    xs.mapM f = .ok ys ↔ List.Forall₂ (fun x y => f x = .ok y) xs ys := by
  induction xs generalizing ys with
  | nil =>
      rw [List.mapM_nil, List.forall₂_nil_left_iff, eq_comm]
      exact Iff.of_eq (Except.ok.injEq ys [])
  | cons x xs ih =>
      rw [List.mapM_cons, List.forall₂_cons_left_iff]
      rcases hx : f x with e | y
      · simp [bind, Except.bind]
      · rcases hxs : xs.mapM f with e | zs
        · simp [bind, Except.bind, ← ih, hxs]
        · simp [bind, Except.bind, pure, Except.pure, ← ih, hxs, eq_comm]

/-- A traversal fails with the error of the first element that fails. -/
theorem mapM_eq_error_iff {xs : List β} {e : ε} :
    xs.mapM f = .error e ↔ ∃ before x after, xs = before ++ x :: after ∧
      (∀ a ∈ before, ∃ b, f a = .ok b) ∧ f x = .error e := by
  induction xs with
  | nil =>
      rw [List.mapM_nil]
      constructor
      · rintro ⟨⟩
      · rintro ⟨before, x, after, hnil, -⟩
        simp at hnil
  | cons x xs ih =>
      rw [List.mapM_cons]
      constructor
      · intro h
        rcases hx : f x with e' | y
        · rw [hx] at h
          cases h
          exact ⟨[], x, xs, rfl, by simp, hx⟩
        · rcases hxs : xs.mapM f with e' | ys
          · rw [hx, hxs] at h
            cases h
            obtain ⟨before, x', after, rfl, hbefore, hx'⟩ := ih.mp hxs
            refine ⟨x :: before, x', after, rfl, ?_, hx'⟩
            exact List.forall_mem_cons.mpr ⟨⟨y, hx⟩, hbefore⟩
          · rw [hx, hxs] at h
            cases h
      · rintro ⟨_ | ⟨y, before⟩, x', after, hlist, hbefore, hx'⟩
        · obtain ⟨rfl, rfl⟩ := List.cons.inj hlist
          rw [hx']
          rfl
        · obtain ⟨rfl, rfl⟩ := List.cons.inj hlist
          rw [List.forall_mem_cons] at hbefore
          obtain ⟨⟨z, hz⟩, hbefore⟩ := hbefore
          rw [hz, ih.mpr ⟨before, x', after, rfl, hbefore, hx'⟩]
          rfl

end Traversal

/-- Whether a token has the kind and the range of a node. -/
def SyntaxToken.IsOf (t : SyntaxTree) (token : SyntaxToken) : Prop :=
  token.kind = t.kind ∧ token.span.start = t.start ∧ token.span.stop = t.stop

namespace SyntaxTree

variable {kinds : List String}

/-! ### Nodes as tokens -/

/-- The nodes of the listed kinds, a node before the nodes below it. -/
def ofKinds (root : SyntaxTree) (kinds : List String) : List SyntaxTree :=
  root.preorder.filter fun t => kinds.contains t.kind

/-- The node as a token, if its range is in order. -/
def token? (t : SyntaxTree) : Option SyntaxToken :=
  if h : t.start ≤ t.stop then some ⟨⟨t.start, t.stop, h⟩, t.kind⟩ else none

/-- The node as a token, or what is wrong with its range. -/
def report (t : SyntaxTree) : Except SyntaxError SyntaxToken :=
  match t.span? with
  | .ok span => .ok ⟨span, t.kind⟩
  | .error e => .error (.span e)

theorem report_eq_ok {t : SyntaxTree} (h : t.HasSpan) :
    t.report = .ok ⟨⟨t.start, t.stop, h.1⟩, t.kind⟩ := by
  rw [report, span?_eq_ok h]

theorem report_eq_error_iff {t : SyntaxTree} {e : SyntaxError} :
    t.report = .error e ↔ ∃ fault, t.span? = .error fault ∧ e = .span fault := by
  rw [report]
  rcases t.span? with fault | span <;> simp [eq_comm]

theorem exists_report_iff {t : SyntaxTree} : (∃ token, t.report = .ok token) ↔ t.HasSpan := by
  constructor
  · rintro ⟨token, htoken⟩
    by_contra h
    obtain ⟨fault, hfault⟩ := span?_eq_error h
    rw [report_eq_error_iff.mpr ⟨fault, hfault, rfl⟩] at htoken
    cases htoken
  · exact fun h => ⟨_, report_eq_ok h⟩

theorem report_eq_ok_iff {t : SyntaxTree} {token : SyntaxToken} :
    t.report = .ok token ↔ t.HasSpan ∧ token.IsOf t := by
  constructor
  · intro h
    have hspan : t.HasSpan := exists_report_iff.mp ⟨token, h⟩
    rw [report_eq_ok hspan] at h
    cases h
    exact ⟨hspan, rfl, rfl, rfl⟩
  · rintro ⟨hspan, hkind, hstart, hstop⟩
    obtain ⟨⟨start, stop, hle⟩, kind⟩ := token
    obtain rfl : kind = t.kind := hkind
    obtain rfl : start = t.start := hstart
    obtain rfl : stop = t.stop := hstop
    exact report_eq_ok hspan

/-! ### The walk -/

theorem addIdentifier_of_not_listed {t : SyntaxTree} (found : List SyntaxToken)
    (h : kinds.contains t.kind = false) : addIdentifier kinds found t = .ok found := by
  rw [addIdentifier, h]
  rfl

theorem addIdentifier_of_listed {t : SyntaxTree} (found : List SyntaxToken)
    (h : kinds.contains t.kind = true) :
    addIdentifier kinds found t = t.report.map (· :: found) := by
  rw [addIdentifier, if_pos h, report]
  rcases t.span? with e | span <;> rfl

/-- The walk over listed nodes keeps them newest first. -/
theorem foldlM_addIdentifier {nodes : List SyntaxTree} (found : List SyntaxToken)
    (h : ∀ t ∈ nodes, kinds.contains t.kind = true) :
    nodes.foldlM (addIdentifier kinds) found
      = (nodes.mapM report).map fun tokens => tokens.reverse ++ found := by
  induction nodes generalizing found with
  | nil => rfl
  | cons t nodes ih =>
      rw [List.forall_mem_cons] at h
      rw [List.foldlM_cons, List.mapM_cons, addIdentifier_of_listed found h.1]
      rcases t.report with e | token
      · rfl
      · refine (ih (token :: found) h.2).trans ?_
        rcases nodes.mapM report with e | tokens
        · rfl
        · exact congrArg Except.ok (by simp)

/-- **The identifiers are the nodes of the listed kinds**, read one by one. -/
theorem identifiers_eq_mapM (root : SyntaxTree) (kinds : List String) :
    root.identifiers kinds .unbounded = (root.ofKinds kinds).mapM report := by
  have hwalk : root.walk (addIdentifier kinds) []
      = ((root.ofKinds kinds).mapM report).map List.reverse := by
    rw [walk_eq_foldlM, ← foldlM_filter_of_pure (p := fun t => kinds.contains t.kind)
      fun found t => addIdentifier_of_not_listed found]
    refine (foldlM_addIdentifier [] fun t ht => (List.mem_filter.mp ht).2).trans ?_
    simp only [List.append_nil]
    rfl
  rw [identifiers, hwalk]
  rcases (root.ofKinds kinds).mapM report with e | tokens
  · rfl
  · exact congrArg Except.ok (List.reverse_reverse tokens)

/-- Where all of them have spans, each is a token. -/
theorem identifiers_eq_ok (root : SyntaxTree) (h : ∀ t ∈ root.ofKinds kinds, t.HasSpan) :
    root.identifiers kinds .unbounded = .ok ((root.ofKinds kinds).filterMap token?) := by
  rw [identifiers_eq_mapM, mapM_eq_ok_iff]
  generalize root.ofKinds kinds = nodes at h ⊢
  induction nodes with
  | nil => exact .nil
  | cons t nodes ih =>
      rw [List.forall_mem_cons] at h
      rw [List.filterMap_cons_some (dif_pos h.1.1)]
      exact .cons (report_eq_ok h.1) (ih h.2)

/-- The identifiers stand side by side with the nodes that they report. -/
theorem identifiers_eq_ok_iff (root : SyntaxTree) (kinds : List String)
    (found : List SyntaxToken) : root.identifiers kinds .unbounded = .ok found ↔
      (∀ t ∈ root.ofKinds kinds, t.HasSpan) ∧
        List.Forall₂ SyntaxToken.IsOf (root.ofKinds kinds) found := by
  rw [identifiers_eq_mapM, mapM_eq_ok_iff, ← List.forall₂_and_left]
  simp only [report_eq_ok_iff]

theorem identifiers_eq_error_iff (root : SyntaxTree) (kinds : List String) (e : SyntaxError) :
    root.identifiers kinds .unbounded = .error e ↔
      ∃ before t after fault, root.ofKinds kinds = before ++ t :: after ∧
        (∀ u ∈ before, u.HasSpan) ∧ t.span? = .error fault ∧ e = .span fault := by
  rw [identifiers_eq_mapM, mapM_eq_error_iff]
  simp only [exists_report_iff, report_eq_error_iff]
  constructor
  · rintro ⟨before, t, after, hnodes, hbefore, fault, hfault, he⟩
    exact ⟨before, t, after, fault, hnodes, hbefore, hfault, he⟩
  · rintro ⟨before, t, after, fault, hnodes, hbefore, hfault, he⟩
    exact ⟨before, t, after, hnodes, hbefore, fault, hfault, he⟩

theorem identifiers_eq_error (root : SyntaxTree) (h : ∃ t ∈ root.ofKinds kinds, ¬ t.HasSpan) :
    ∃ e, root.identifiers kinds .unbounded = .error (.span e) := by
  rcases hfound : root.identifiers kinds .unbounded with e | found
  · obtain ⟨-, -, -, fault, -, -, -, rfl⟩ := (root.identifiers_eq_error_iff kinds e).mp hfound
    exact ⟨fault, rfl⟩
  · obtain ⟨t, ht, hspan⟩ := h
    exact absurd (((root.identifiers_eq_ok_iff kinds found).mp hfound).1 t ht) hspan

/-! ### The ranges that count -/

/-- Whether the ranges that matter are spans: those of the leaves, and those of the nodes of
the listed kinds. -/
def Spanned (root : SyntaxTree) (kinds : List String) : Prop :=
  ∀ t ∈ root.preorder, t.isLeaf = true ∨ t.kind ∈ kinds → t.HasSpan

theorem spanned_iff {root : SyntaxTree} : root.Spanned kinds ↔
    (∀ t ∈ root.leaves, t.HasSpan) ∧ ∀ t ∈ root.ofKinds kinds, t.HasSpan := by
  simp only [Spanned, leaves, ofKinds, List.mem_filter, List.contains_iff_mem, and_imp,
    or_imp, forall_and]

end SyntaxTree

end TokenAlignment
