/-
TokenAlignment/Syntax/Tree.lean

Syntax trees as a parser delivers them, and the walk over all their nodes.

A node has a kind, a byte range and children in document order.  The range is
what the parser reported: it may be inverted, and it need not fit a span.

The walk keeps the nodes still to visit on a list, so that a deeply nested tree
needs no deep recursion:

    walkFrom visit s (t :: stack)
      =  visit s t, then  walkFrom visit _ (t.children ++ stack)
-/
import TokenAlignment.Span

namespace TokenAlignment

/-- A node of a syntax tree with everything below it. -/
inductive SyntaxTree where
  | node (kind : String) (start stop : Nat) (children : List SyntaxTree)

namespace SyntaxTree

/-- The grammar's name for the node. -/
def kind : SyntaxTree → String
  | node kind _ _ _ => kind

/-- The reported offset of the first byte. -/
def start : SyntaxTree → Nat
  | node _ start _ _ => start

/-- The reported offset after the last byte. -/
def stop : SyntaxTree → Nat
  | node _ _ stop _ => stop

/-- The nodes directly below, in document order. -/
def children : SyntaxTree → List SyntaxTree
  | node _ _ _ children => children

/-- Whether the node has no children. -/
def isLeaf (t : SyntaxTree) : Bool :=
  t.children.isEmpty

/-- The reported range as a span. -/
def span? (t : SyntaxTree) : Except SpanError Span :=
  Span.ofRange? t.start t.stop

/-! ### Size -/

mutual

/-- The number of nodes of a tree. -/
def size : SyntaxTree → Nat
  | node _ _ _ children => forestSize children + 1

/-- The number of nodes of several trees. -/
def forestSize : List SyntaxTree → Nat
  | [] => 0
  | t :: ts => size t + forestSize ts

end

theorem forestSize_append (ts us : List SyntaxTree) :
    forestSize (ts ++ us) = forestSize ts + forestSize us := by
  induction ts with
  | nil => simp [forestSize]
  | cons t ts ih => simp [forestSize, ih, Nat.add_assoc]

theorem size_eq (t : SyntaxTree) : t.size = forestSize t.children + 1 := by
  cases t; simp [size, children]

/-! ### The walk -/

/-- Visits the trees on the stack, each node before its children and children
from left to right; the first error ends the walk. -/
def walkFrom {σ ε : Type} (visit : σ → SyntaxTree → Except ε σ) (s : σ) :
    (stack : List SyntaxTree) → Except ε σ
  | [] => .ok s
  | t :: stack =>
    match visit s t with
    | .error e => .error e
    | .ok s' => walkFrom visit s' (t.children ++ stack)
termination_by stack => forestSize stack
decreasing_by
  simp only [forestSize, forestSize_append, size_eq]
  omega

/-- Visits every node of a tree, starting from the state `s`. -/
def walk {σ ε : Type} (visit : σ → SyntaxTree → Except ε σ) (s : σ) (root : SyntaxTree) :
    Except ε σ :=
  walkFrom visit s [root]

end SyntaxTree

end TokenAlignment
