/-
TokenAlignment/Text/RangeTable.lean

Sets of code points, kept as sorted and disjoint closed ranges.

Membership is decided by halving the table:

    t.contains c   looks at  1 + log2 t.ranges.size  ranges at most.

The tables of the Unicode properties stand in the modules beside this one.
Each lists the code points from U+0080 on; the ASCII part of a property is
written as a test on characters, so that it reduces without a table.
-/

namespace TokenAlignment

/-- Closed ranges of code points, sorted and disjoint. -/
structure RangeTable where
  ranges : Array (Nat × Nat)

namespace RangeTable

/-- Whether a range at a position in `lo ≤ i < hi` holds `n`.  Each step halves
the positions left, so `fuel ≥ hi - lo` is enough. -/
def holdsBetween (t : RangeTable) (n : Nat) : (fuel lo hi : Nat) → Bool
  | 0, _, _ => false
  | fuel + 1, lo, hi =>
    if lo < hi then
      let mid := (lo + hi) / 2
      match t.ranges[mid]? with
      | none => false
      | some (least, greatest) =>
        if n < least then t.holdsBetween n fuel lo mid
        else if greatest < n then t.holdsBetween n fuel (mid + 1) hi
        else true
    else false

/-- Whether the table holds the code point of `c`. -/
def contains (t : RangeTable) (c : Char) : Bool :=
  t.holdsBetween c.toNat t.ranges.size 0 t.ranges.size

end RangeTable

end TokenAlignment
