/-
TokenAlignment/Proofs/Syntax/Preorder.lean

The walk over a tree is its recursive pre-order: the walk with a stack visits
the nodes in the order that the recursion over the tree gives,

    walk visit s root  =  root.preorder.foldlM visit s,

whatever the visit does and wherever it fails (`walk_eq_foldlM`).  A visit that
passes over the nodes with children is a fold over the leaves
(`walk_eq_foldlM_leaves`).
-/
import TokenAlignment.Syntax.Tree

namespace TokenAlignment

namespace SyntaxTree

/-! ### The order of the nodes -/

mutual

/-- The nodes of a tree, a node before the nodes below it. -/
def preorder : SyntaxTree → List SyntaxTree
  | node kind start stop children =>
      node kind start stop children :: forestPreorder children

/-- The nodes of several trees, one tree after the other. -/
def forestPreorder : List SyntaxTree → List SyntaxTree
  | [] => []
  | t :: ts => preorder t ++ forestPreorder ts

end

/-- The childless nodes of a tree, in document order. -/
def leaves (t : SyntaxTree) : List SyntaxTree :=
  t.preorder.filter isLeaf

theorem preorder_eq (t : SyntaxTree) : t.preorder = t :: forestPreorder t.children := by
  cases t
  rw [preorder, children]

theorem forestPreorder_append (ts us : List SyntaxTree) :
    forestPreorder (ts ++ us) = forestPreorder ts ++ forestPreorder us := by
  induction ts with
  | nil => simp [forestPreorder]
  | cons t ts ih => simp [forestPreorder, ih]

theorem isLeaf_of_mem_leaves {root t : SyntaxTree} (h : t ∈ root.leaves) :
    t.isLeaf = true :=
  (List.mem_filter.mp h).2

/-! ### The walk follows it -/

variable {σ ε : Type} {visit : σ → SyntaxTree → Except ε σ}

/-- The stack holds the trees still to visit, so the walk from any stack is the
fold over the pre-order of all of them. -/
theorem walkFrom_eq_foldlM (visit : σ → SyntaxTree → Except ε σ) (s : σ)
    (stack : List SyntaxTree) :
    walkFrom visit s stack = (forestPreorder stack).foldlM visit s := by
  fun_induction walkFrom visit s stack with
  | case1 s =>
      rw [forestPreorder]
      rfl
  | case2 s t stack e he =>
      rw [forestPreorder, preorder_eq, List.cons_append, List.foldlM_cons, he]
      rfl
  | case3 s t stack s' hs ih =>
      rw [forestPreorder, preorder_eq, List.cons_append, List.foldlM_cons, hs, ih,
        forestPreorder_append]
      rfl

/-- **The walk is the recursive pre-order.** -/
theorem walk_eq_foldlM (visit : σ → SyntaxTree → Except ε σ) (s : σ) (root : SyntaxTree) :
    root.walk visit s = root.preorder.foldlM visit s := by
  rw [walk, walkFrom_eq_foldlM, forestPreorder, forestPreorder, List.append_nil]

/-- Elements without effect can be left out of a fold. -/
theorem foldlM_filter_of_pure {β : Type} {p : β → Bool} {f : σ → β → Except ε σ}
    (h : ∀ s b, p b = false → f s b = .ok s) (s : σ) (bs : List β) :
    (bs.filter p).foldlM f s = bs.foldlM f s := by
  induction bs generalizing s with
  | nil => rfl
  | cons b bs ih =>
      rcases hb : p b with - | -
      · rw [List.filter_cons_of_neg (by simp [hb]), List.foldlM_cons, h s b hb, ih]
        rfl
      · rw [List.filter_cons_of_pos hb, List.foldlM_cons, List.foldlM_cons]
        exact bind_congr ih

/-- A fold fails if there is an element that it cannot get past, with an error of that
element. -/
theorem foldlM_eq_error {β δ : Type} {wrap : δ → ε} {f : σ → β → Except ε σ} (passes : β → Prop)
    (hpass : ∀ s b, passes b → ∃ s', f s b = .ok s')
    (hfail : ∀ s b, ¬ passes b → ∃ e, f s b = .error (wrap e)) (s : σ) {bs : List β}
    (h : ∃ b ∈ bs, ¬ passes b) : ∃ e, bs.foldlM f s = .error (wrap e) := by
  induction bs generalizing s with
  | nil => simp at h
  | cons b bs ih =>
      rw [List.foldlM_cons]
      by_cases hb : passes b
      · obtain ⟨s', hs'⟩ := hpass s b hb
        obtain ⟨b', hmem, hb'⟩ := h
        rw [hs']
        rcases List.mem_cons.mp hmem with rfl | hmem
        · exact absurd hb hb'
        · exact ih s' ⟨b', hmem, hb'⟩
      · obtain ⟨e, he⟩ := hfail s b hb
        exact ⟨e, by rw [he]; rfl⟩

theorem walk_eq_foldlM_leaves (h : ∀ s t, t.isLeaf = false → visit s t = .ok s) (s : σ)
    (root : SyntaxTree) : root.walk visit s = root.leaves.foldlM visit s := by
  rw [walk_eq_foldlM, leaves, foldlM_filter_of_pure h]

end SyntaxTree

end TokenAlignment
