/-
TokenAlignment/Proofs/Identifier/Segments.lean

What the table of cheapest segmentations holds.

A path in the table is a way from offset zero to its own offset in steps over known
words.  Whatever the costs are, even if sums of them make no sense, an entry at an offset
comes from an earlier one by one more step, so

    segment? word = some ranges   only if   the ranges step through all of the word.

Main result: `steps_of_segment?_eq_some`.
-/
import TokenAlignment.Identifier.Lexicon
import Mathlib.Data.List.Basic

namespace TokenAlignment

namespace Lexicon

variable {κ : Type} {lex : Lexicon κ} {word : Array Char}

/-- Ranges, the last first, that lead from offset zero to this one.  Each starts where the
one before it stops and holds a known word; none is empty. -/
inductive Steps (lex : Lexicon κ) (word : Array Char) : Nat → List (Nat × Nat) → Prop
  | start : Steps lex word 0 []
  | step {start stop : Nat} {ranges : List (Nat × Nat)} (before : Steps lex word start ranges)
    (forward : start < stop)
    (known : lex.isKnown (word.extract start stop).toList = true) :
    Steps lex word stop ((start, stop) :: ranges)

/-- Each range starts where the one before it stops, from offset zero on. -/
theorem Steps.starts_eq_stops {stop : Nat} {ranges : List (Nat × Nat)}
    (h : Steps lex word stop ranges) :
    ranges.reverse.map Prod.fst ++ [stop] = 0 :: ranges.reverse.map Prod.snd := by
  induction h with
  | start => rfl
  | step before forward known ih =>
      rw [List.reverse_cons, List.map_append, List.map_append, ← List.cons_append, ← ih]
      rfl

theorem Steps.stop_le {stop : Nat} {ranges : List (Nat × Nat)}
    (h : Steps lex word stop ranges) {range : Nat × Nat} (hrange : range ∈ ranges) :
    range.2 ≤ stop := by
  induction h with
  | start => cases hrange
  | step before forward known ih =>
      rcases List.mem_cons.mp hrange with rfl | hrange
      · exact Nat.le_refl _
      · exact Nat.le_trans (ih hrange) (Nat.le_of_lt forward)

/-- Each range goes forward, over a known word. -/
theorem Steps.of_mem {stop : Nat} {ranges : List (Nat × Nat)} (h : Steps lex word stop ranges)
    {range : Nat × Nat} (hrange : range ∈ ranges) :
    range.1 < range.2 ∧ lex.isKnown (word.extract range.1 range.2).toList = true := by
  induction h with
  | start => cases hrange
  | step before forward known ih =>
      rcases List.mem_cons.mp hrange with rfl | hrange
      · exact ⟨forward, known⟩
      · exact ih hrange

theorem Steps.length_le {stop : Nat} {ranges : List (Nat × Nat)}
    (h : Steps lex word stop ranges) : ranges.length ≤ stop := by
  induction h with
  | start => exact Nat.le_refl _
  | step before forward known ih => exact Nat.lt_of_le_of_lt ih forward

/-- A word that one step leads through is known. -/
theorem Steps.known_of_length_le_one {stop : Nat} {ranges : List (Nat × Nat)}
    (h : Steps lex word stop ranges) (hstop : 0 < stop) (hranges : ranges.length ≤ 1) :
    lex.isKnown (word.extract 0 stop).toList = true := by
  cases h with
  | start => omega
  | step before forward known =>
      cases before with
      | start => exact known
      | step => simp at hranges

/-- Every path in the table leads to the offset where it stands. -/
def Sound (lex : Lexicon κ) (word : Array Char) (table : Array (Option (Path κ))) : Prop :=
  ∀ (stop : Nat) (path : Path κ), table[stop]? = some (some path) →
    Steps lex word stop path.ranges

variable {table : Array (Option (Path κ))}

/-- A table stays sound if the next entry leads to its offset. -/
theorem Sound.push (htable : Sound lex word table) {entry : Option (Path κ)}
    (hentry : ∀ path, entry = some path → Steps lex word table.size path.ranges) :
    Sound lex word (table.push entry) := by
  intro stop path hpath
  rw [Array.getElem?_push] at hpath
  split at hpath
  · rename_i hlast
    rw [hlast]
    exact hentry path (Option.some.inj hpath)
  · exact htable stop path hpath

/-! ### One entry -/

theorem steps_of_extend? [Add κ] (htable : Sound lex word table) {start stop : Nat}
    (hforward : start < stop) {path : Path κ}
    (h : lex.extend? word table stop start = some path) : Steps lex word stop path.ranges := by
  rw [extend?, Option.bind_eq_some_iff] at h
  obtain ⟨before, hbefore, h⟩ := h
  obtain ⟨cost, hcost, rfl⟩ := Option.map_eq_some_iff.mp h
  have hknown : lex.isKnown (word.extract start stop).toList = true := by
    rw [isKnown, Std.HashMap.contains_eq_isSome_getElem?, hcost]
    rfl
  exact .step (htable start before (Option.join_eq_some_iff.mp hbefore)) hforward hknown

theorem cheaper_eq_some [LT κ] [DecidableLT κ] {best other : Option (Path κ)} {path : Path κ}
    (h : cheaper best other = some path) : best = some path ∨ other = some path := by
  rcases best with - | b
  · exact .inr h
  rcases other with - | o
  · exact .inl h
  rw [cheaper] at h
  split at h
  · exact .inr h
  · exact .inl h

/-- The cheapest of some candidates is one of them. -/
theorem foldl_cheaper_eq_some [LT κ] [DecidableLT κ] {candidate : Nat → Option (Path κ)}
    {starts : List Nat} {best : Option (Path κ)} {path : Path κ}
    (h : starts.foldl (fun best start => cheaper best (candidate start)) best = some path) :
    best = some path ∨ ∃ start ∈ starts, candidate start = some path := by
  induction starts generalizing best with
  | nil => exact .inl h
  | cons start starts ih =>
      rcases ih h with hbest | ⟨start', hmem, hcandidate⟩
      · rcases cheaper_eq_some hbest with hbest | hcandidate
        · exact .inl hbest
        · exact .inr ⟨start, List.mem_cons_self .., hcandidate⟩
      · exact .inr ⟨start', List.mem_cons_of_mem _ hmem, hcandidate⟩

variable [Add κ] [LT κ] [DecidableLT κ]

theorem steps_of_bestTo (htable : Sound lex word table) {stop : Nat} {path : Path κ}
    (h : lex.bestTo word table stop = some path) : Steps lex word stop path.ranges := by
  rcases foldl_cheaper_eq_some h with hnone | ⟨start, hstart, hextend⟩
  · cases hnone
  · -- the look back ends before `stop`, however long the known words are
    have hforward : start < stop := by
      have := List.mem_range'_1.mp hstart
      omega
    exact steps_of_extend? htable hforward hextend

/-! ### The whole table -/

variable [OfNat κ 0]

/-- The table of a word after the entries up to some offset. -/
theorem sound_foldl_bestTo (lex : Lexicon κ) (word : Array Char) (size : Nat) :
    let table := (List.range' 1 size).foldl
      (fun table stop => table.push (lex.bestTo word table stop)) #[some ⟨0, []⟩]
    table.size = size + 1 ∧ Sound lex word table := by
  induction size with
  | zero =>
      refine ⟨rfl, ?_⟩
      -- the only entry is the empty path at offset zero
      intro stop path hpath
      rcases stop with - | stop
      · cases hpath
        exact .start
      · cases hpath
  | succ size ih =>
      obtain ⟨hsize, hsound⟩ := ih
      dsimp only at hsize hsound ⊢
      rw [List.range'_1_concat, List.foldl_append, List.foldl_cons, List.foldl_nil]
      refine ⟨by rw [Array.size_push, hsize], ?_⟩
      apply hsound.push
      intro path hpath
      rw [hsize, Nat.add_comm]
      exact steps_of_bestTo hsound hpath

/-- **A segmentation steps through the whole word**, one known word after another. -/
theorem steps_of_segment?_eq_some {word : List Char} {ranges : List (Nat × Nat)}
    (h : lex.segment? word = some ranges) :
    Steps lex word.toArray word.length ranges.reverse := by
  obtain ⟨path, hpath, rfl⟩ := Option.map_eq_some_iff.mp h
  rw [List.reverse_reverse]
  exact (sound_foldl_bestTo lex word.toArray _).2 _ path (Option.join_eq_some_iff.mp hpath)

end Lexicon

end TokenAlignment
