/-
TokenAlignment/Score/Jaccard.lean

The similarity of two collections as sets: how many elements they share, out of
all that are in one of them.
-/
import TokenAlignment.Score.Scalar

namespace TokenAlignment

/-- The elements without repetition, each at its last place. -/
def distinct {β : Type} [DecidableEq β] : List β → List β
  | [] => []
  | x :: xs => if x ∈ xs then distinct xs else x :: distinct xs

/-- `|a ∩ b| / |a ∪ b|` of the sets of elements, zero when both are empty. -/
def jaccard (α : Type) [Scalar α] {β : Type} [DecidableEq β] (a b : List β) : α :=
  let a' := distinct a
  let b' := distinct b
  let common := (a'.filter (· ∈ b')).length
  Scalar.ratio α common (a'.length + b'.length - common)

end TokenAlignment
