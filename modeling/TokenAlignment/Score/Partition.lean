/-
TokenAlignment/Score/Partition.lean

Where a sequence stops passing a test.

For a test that some beginning of the sequence passes and nothing after it, the
partition point is the length of that beginning.  The search halves the stretch
left, so a long sequence takes few tests.
-/

namespace TokenAlignment

/-- Whether the element at a position passes; none passes outside. -/
def passesAt {β : Type} (p : β → Bool) (xs : Array β) (i : Nat) : Bool :=
  xs[i]?.any p

/-- The position in the `size` elements from `base` on, behind which nothing
passes, if everything before `base` does. -/
def partitionFrom {β : Type} (p : β → Bool) (xs : Array β) (base size : Nat) : Nat :=
  if 1 < size then
    let half := size / 2
    partitionFrom p xs (if passesAt p xs (base + half) then base + half else base) (size - half)
  else base
termination_by size

/-- The number of elements at the beginning that pass the test. -/
def partitionPoint {β : Type} (p : β → Bool) (xs : Array β) : Nat :=
  let base := partitionFrom p xs 0 xs.size
  if passesAt p xs base then base + 1 else base

end TokenAlignment
