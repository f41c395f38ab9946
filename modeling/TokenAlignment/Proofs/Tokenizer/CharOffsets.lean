/-
TokenAlignment/Proofs/Tokenizer/CharOffsets.lean

The tokens of an encoder that reports ranges of characters.

Let Mᵢ be the furthest character that the first i ranges reach, the largest of 0 and
their ends.  Token i takes the characters between two of them,

    byteAt Mᵢ₋₁  ..  byteAt Mᵢ,

so it starts where the one before it stops, whatever the ranges are: repeated,
overlapping, out of order, inverted, or with characters left out.

Design.  The walk keeps two offsets, one in characters and one in bytes, and adds
widths to the second.  It is the byte offset of the first all along, which is all that
`spansOnto_eq_ok` has to carry.

Main results: `spans_eq_ok_iff`, and token by token `spans_follow_furthest`.
-/
import TokenAlignment.Proofs.Text.Slice
import TokenAlignment.Tokenizer.CharOffsets
import Mathlib.Data.List.Induction

namespace TokenAlignment

namespace CharOffsets

/-! ### The boundaries of characters -/

/-- The byte offset behind the first `n` characters. -/
def byteAt (text : List Char) (n : Nat) : Nat :=
  (Utf8.encode (text.take n)).length

@[simp] theorem byteAt_zero (text : List Char) : byteAt text 0 = 0 := rfl

@[simp] theorem byteAt_length (text : List Char) :
    byteAt text text.length = (Utf8.encode text).length := by
  rw [byteAt, List.take_length]

theorem byteAt_le (text : List Char) {m n : Nat} (h : m ≤ n) :
    byteAt text m ≤ byteAt text n := by
  obtain ⟨more, rfl⟩ := Nat.exists_eq_add_of_le h
  rw [byteAt, byteAt, List.take_add, Utf8.encode_append, List.length_append]
  exact Nat.le_add_right ..

/-- Every character takes bytes. -/
theorem byteAt_lt {text : List Char} {m n : Nat} (h : m < n) (hn : n ≤ text.length) :
    byteAt text m < byteAt text n := by
  obtain ⟨more, rfl⟩ := Nat.exists_eq_add_of_le (Nat.le_of_lt h)
  have hmore := Utf8.length_le_length_encode ((text.drop m).take more)
  rw [List.length_take, List.length_drop, Nat.min_eq_left (by omega)] at hmore
  rw [byteAt, byteAt, List.take_add, Utf8.encode_append, List.length_append]
  omega

theorem byteAt_eq_iff {text : List Char} {n : Nat} (hn : n ≤ text.length) :
    byteAt text n = (Utf8.encode text).length ↔ n = text.length := by
  constructor
  · intro h
    rw [← byteAt_length] at h
    by_contra hne
    exact Nat.ne_of_lt (byteAt_lt (by omega) (Nat.le_refl _)) h
  · rintro rfl
    exact byteAt_length text

theorem byteAt_concat {text : List Char} {n : Nat} (c : Char) (hn : n ≤ text.length) :
    byteAt (text ++ [c]) n = byteAt text n := by
  rw [byteAt, byteAt, List.take_append_of_le_length hn]

/-- **The table of boundaries** holds the offset of each. -/
theorem boundaries_eq (text : List Char) :
    boundaries text = ((List.range (text.length + 1)).map (byteAt text)).toArray := by
  induction text using List.reverseRecOn with
  | nil => rfl
  | append_singleton text c ih =>
      have hlast : (boundaries text).back?.getD 0 = (Utf8.encode text).length := by
        rw [ih, List.range_succ]
        simp
      have hold : (List.range (text.length + 1)).map (byteAt (text ++ [c]))
          = (List.range (text.length + 1)).map (byteAt text) := by
        apply List.map_congr_left
        intro n hn
        have := List.mem_range.mp hn
        exact byteAt_concat c (by omega)
      have hnew : byteAt (text ++ [c]) (text.length + 1)
          = (Utf8.encode text).length + (Utf8.encodeChar c).length := by
        rw [byteAt, List.take_of_length_le (by simp), Utf8.encode_append, List.length_append]
        simp [Utf8.encode]
      rw [boundaries, List.foldl_append, List.foldl_cons, List.foldl_nil]
      change (boundaries text).push ((boundaries text).back?.getD 0 + _) = _
      rw [hlast, ih, List.length_append, List.length_singleton,
        List.range_succ (n := text.length + 1), List.map_append, hold, List.map_singleton, hnew]
      simp

theorem getElem?_boundaries {text : List Char} {n : Nat} (hn : n ≤ text.length) :
    (boundaries text)[n]? = some (byteAt text n) := by
  rw [boundaries_eq, List.getElem?_toArray, List.getElem?_map,
    List.getElem?_range (Nat.lt_succ_of_le hn)]
  rfl

theorem getElem?_boundaries_eq_none {text : List Char} {n : Nat} (hn : text.length < n) :
    (boundaries text)[n]? = none := by
  rw [boundaries_eq, List.getElem?_toArray, List.getElem?_map,
    List.getElem?_eq_none (by simp; omega)]
  rfl

theorem back?_boundaries (text : List Char) :
    (boundaries text).back?.getD 0 = (Utf8.encode text).length := by
  rw [boundaries_eq, List.range_succ]
  simp

/-! ### The furthest character -/

/-- The furthest of the first `used` characters and those that the ranges reach. -/
def furthest (used : Nat) (ranges : List (Nat × Nat)) : Nat :=
  ranges.foldl (fun used range => max used range.2) used

/-- A range whose ends are characters of the text, or its end. -/
def InText (text : List Char) (range : Nat × Nat) : Prop :=
  range.1 ≤ text.length ∧ range.2 ≤ text.length

theorem furthest_le {text : List Char} {ranges : List (Nat × Nat)} {used : Nat}
    (hused : used ≤ text.length) (h : ∀ range ∈ ranges, InText text range) :
    furthest used ranges ≤ text.length := by
  induction ranges generalizing used with
  | nil => exact hused
  | cons range ranges ih =>
      rw [List.forall_mem_cons] at h
      exact ih (Nat.max_le.mpr ⟨hused, h.1.2⟩) h.2

/-- From the start it is the largest end of a range, and zero without ranges. -/
theorem furthest_zero (ranges : List (Nat × Nat)) :
    furthest 0 ranges = (ranges.map Prod.snd).max?.getD 0 := by
  have hfold : furthest 0 ranges = (ranges.map Prod.snd).foldl max 0 := by
    rw [furthest, List.foldl_map]
  rcases ranges with - | ⟨range, ranges⟩
  · rfl
  · rw [hfold, List.map_cons, List.max?_cons', Option.getD_some, List.foldl_cons,
      Nat.zero_max]

/-- One more range reaches as far as those before it, or to its own end. -/
theorem furthest_take_succ {used i : Nat} {ranges : List (Nat × Nat)} {range : Nat × Nat}
    (h : ranges[i]? = some range) :
    furthest used (ranges.take (i + 1)) = max (furthest used (ranges.take i)) range.2 := by
  rw [List.take_add_one, h, Option.toList_some]
  show List.foldl _ used _ = max (List.foldl _ used _) range.2
  rw [List.foldl_append]
  rfl

/-! ### The tokens -/

/-- The tokens of ranges behind the first `used` characters. -/
def spansFrom (text : List Char) (used : Nat) : List (Nat × Nat) → List Span
  | [] => []
  | range :: ranges =>
    ⟨byteAt text used, byteAt text (max used range.2), byteAt_le text (Nat.le_max_left ..)⟩ ::
      spansFrom text (max used range.2) ranges

/-- The tokens are a chain, up to the furthest character. -/
theorem chain_spansFrom (text : List Char) (used : Nat) (ranges : List (Nat × Nat)) :
    Span.Chain (byteAt text used) (spansFrom text used ranges)
      (byteAt text (furthest used ranges)) := by
  induction ranges generalizing used with
  | nil => rfl
  | cons range ranges ih => exact ⟨rfl, ih (max used range.2)⟩

theorem length_spansFrom (text : List Char) (used : Nat) (ranges : List (Nat × Nat)) :
    (spansFrom text used ranges).length = ranges.length := by
  induction ranges generalizing used with
  | nil => rfl
  | cons range ranges ih => simp [spansFrom, ih]

/-- **A token runs from the furthest character before its range to the furthest one with
it.** -/
theorem ends_of_getElem?_spansFrom {text : List Char} {used i : Nat}
    {ranges : List (Nat × Nat)} {token : Span}
    (h : (spansFrom text used ranges)[i]? = some token) :
    token.start = byteAt text (furthest used (ranges.take i)) ∧
      token.stop = byteAt text (furthest used (ranges.take (i + 1))) := by
  induction ranges generalizing used i with
  | nil => simp [spansFrom] at h
  | cons range ranges ih =>
      rcases i with - | i
      · -- the first token starts behind what is used up
        simp only [spansFrom, List.getElem?_cons_zero, Option.some.injEq] at h
        subst h
        exact ⟨rfl, rfl⟩
      · rw [spansFrom, List.getElem?_cons_succ] at h
        exact ih h

/-- A range that ends in what is used up adds no byte, and no other does so. -/
theorem byteAt_eq_byteAt_max_iff {text : List Char} {used stop : Nat}
    (hstop : stop ≤ text.length) :
    byteAt text used = byteAt text (max used stop) ↔ stop ≤ used := by
  constructor
  · intro h
    apply Nat.le_of_not_lt
    intro hlt
    have hbytes := byteAt_lt hlt hstop
    rw [Nat.max_eq_right (Nat.le_of_lt hlt)] at h
    omega
  · intro h
    rw [Nat.max_eq_left h]

/-- What one range adds, whether or not it reaches a new character. -/
theorem byteAt_max {text : List Char} {used stop : Nat} (hused : used ≤ text.length) :
    byteAt text used
        + (if used < stop then byteAt text stop - (boundaries text).getD used 0 else 0)
      = byteAt text (max used stop) := by
  split
  · rename_i hlt
    have hle := byteAt_le text (Nat.le_of_lt hlt)
    have hbound : (boundaries text).getD used 0 = byteAt text used := by
      rw [Array.getD_eq_getD_getElem?, getElem?_boundaries hused, Option.getD_some]
    rw [hbound, Nat.max_eq_right (Nat.le_of_lt hlt)]
    omega
  · rename_i hge
    rw [Nat.max_eq_left (Nat.le_of_not_lt hge), Nat.add_zero]

theorem spansOnto_eq_ok {text : List Char} (hfits : (Utf8.encode text).length ≤ maxOffset)
    (done : List Span) {used : Nat} (hused : used ≤ text.length)
    {ranges : List (Nat × Nat)} (h : ∀ range ∈ ranges, InText text range) :
    spansOnto (boundaries text) done used (byteAt text used) ranges
      = .ok (done.reverse ++ spansFrom text used ranges, byteAt text (furthest used ranges)) := by
  induction ranges generalizing done used with
  | nil => simp [spansOnto, spansFrom, furthest]
  | cons range ranges ih =>
      obtain ⟨⟨hstart, hstop⟩, hranges⟩ := List.forall_mem_cons.mp h
      have hmax : max used range.2 ≤ text.length := Nat.max_le.mpr ⟨hused, hstop⟩
      have hspan := Span.ofRange?_eq_ok (byteAt_le text (Nat.le_max_left used range.2))
        (Nat.le_trans (byteAt_le text hmax) (byteAt_length text ▸ hfits))
      simp only [spansOnto, getElem?_boundaries hstart, getElem?_boundaries hstop,
        byteAt_max hused, hspan]
      rw [ih _ hmax hranges, List.reverse_cons, List.append_assoc]
      rfl

/-- A range that leaves the text is refused, wherever it stands. -/
theorem inText_of_spansOnto_eq_ok {text : List Char} {done : List Span} {used byteEnd : Nat}
    {ranges : List (Nat × Nat)} {found : List Span × Nat}
    (h : spansOnto (boundaries text) done used byteEnd ranges = .ok found) :
    ∀ range ∈ ranges, InText text range := by
  induction ranges generalizing done used byteEnd with
  | nil => exact fun range hrange => nomatch hrange
  | cons range ranges ih =>
      rw [spansOnto] at h
      rcases Nat.lt_or_ge text.length range.1 with hstart | hstart
      · rw [getElem?_boundaries_eq_none hstart] at h
        cases h
      rcases Nat.lt_or_ge text.length range.2 with hstop | hstop
      · rw [getElem?_boundaries hstart, getElem?_boundaries_eq_none hstop] at h
        cases h
      rw [getElem?_boundaries hstart, getElem?_boundaries hstop] at h
      dsimp only at h
      split at h
      · cases h
      · exact List.forall_mem_cons.mpr ⟨⟨hstart, hstop⟩, ih h⟩

/-- **When ranges have tokens, and which**: all lie in the text, and the furthest
character reached is its last. -/
theorem spans_eq_ok_iff {text : List Char} (hfits : (Utf8.encode text).length ≤ maxOffset)
    {ranges : List (Nat × Nat)} {tokens : List Span} :
    spans text ranges = .ok tokens
      ↔ (∀ range ∈ ranges, InText text range) ∧ furthest 0 ranges = text.length ∧
        tokens = spansFrom text 0 ranges := by
  by_cases hin : ∀ range ∈ ranges, InText text range
  · -- the tokens end behind the furthest character, which may be the last or not
    have honto := spansOnto_eq_ok hfits [] (Nat.zero_le _) hin
    rw [byteAt_zero] at honto
    rw [spans]
    dsimp only
    rw [honto, back?_boundaries]
    dsimp only
    have hend := byteAt_eq_iff (furthest_le (Nat.zero_le _) hin)
    split
    · rename_i hreach
      rw [hend] at hreach
      rw [Except.ok.injEq]
      constructor
      · intro htokens
        exact ⟨hin, hreach, htokens.symm⟩
      · intro hall
        exact hall.2.2.symm
    · rename_i hreach
      rw [hend] at hreach
      constructor
      · intro htokens
        cases htokens
      · intro hall
        exact absurd hall.2.1 hreach
  · constructor
    · intro htokens
      rw [spans] at htokens
      dsimp only at htokens
      rcases honto : spansOnto (boundaries text) [] 0 0 ranges with e | found
      · rw [honto] at htokens
        cases htokens
      · exact absurd (inText_of_spansOnto_eq_ok honto) hin
    · intro hall
      exact absurd hall.1 hin

/-- **Tokens follow the furthest character.**  Let `reach i` be the furthest character that
the first `i` ranges reach.  The ranges have tokens just if all of them lie in the text and
they reach its end; and then there is one token for each range, from `reach i` to
`reach (i + 1)`.  So both its ends are boundaries of characters, the tokens are a chain over
all of the text, and a token is empty just if its range ends in what is used up. -/
theorem spans_follow_furthest {text : List Char}
    (hfits : (Utf8.encode text).length ≤ maxOffset) (ranges : List (Nat × Nat)) :
    let reach (i : Nat) := furthest 0 (ranges.take i)
    ((∃ tokens, spans text ranges = .ok tokens)
      ↔ (∀ range ∈ ranges, range.1 ≤ text.length ∧ range.2 ≤ text.length) ∧
        reach ranges.length = text.length) ∧
    ∀ tokens, spans text ranges = .ok tokens →
      tokens.length = ranges.length ∧
      (∀ (i : Nat) (token : Span), tokens[i]? = some token →
        token.start = byteAt text (reach i) ∧ reach i ≤ text.length ∧
        token.stop = byteAt text (reach (i + 1)) ∧ reach (i + 1) ≤ text.length) ∧
      Span.Chain 0 tokens (Utf8.encode text).length ∧
      ∀ (i : Nat) (token : Span) (range : Nat × Nat), tokens[i]? = some token →
        ranges[i]? = some range → (token.isEmpty = true ↔ range.2 ≤ reach i) := by
  intro reach
  have hall : reach ranges.length = furthest 0 ranges := by
    show furthest 0 (ranges.take ranges.length) = _
    rw [List.take_length]
  refine ⟨⟨?_, ?_⟩, ?_⟩
  · rintro ⟨tokens, htokens⟩
    obtain ⟨hin, hreach, -⟩ := (spans_eq_ok_iff hfits).mp htokens
    exact ⟨hin, hall.trans hreach⟩
  · rintro ⟨hin, hreach⟩
    exact ⟨_, (spans_eq_ok_iff hfits).mpr ⟨hin, hall.symm.trans hreach, rfl⟩⟩
  · intro tokens htokens
    obtain ⟨hin, hreach, rfl⟩ := (spans_eq_ok_iff hfits).mp htokens
    have hle (i : Nat) : reach i ≤ text.length := by
      apply furthest_le (Nat.zero_le _)
      intro range hrange
      exact hin range (List.mem_of_mem_take hrange)
    refine ⟨length_spansFrom text 0 ranges, ?_, ?_, ?_⟩
    · intro i token htoken
      obtain ⟨hstart, hstop⟩ := ends_of_getElem?_spansFrom htoken
      exact ⟨hstart, hle i, hstop, hle (i + 1)⟩
    · have hchain := chain_spansFrom text 0 ranges
      rwa [hreach, byteAt_length] at hchain
    · intro i token range htoken hrange
      obtain ⟨hstart, hstop⟩ := ends_of_getElem?_spansFrom htoken
      rw [furthest_take_succ hrange] at hstop
      rw [Span.isEmpty, decide_eq_true_iff, hstart, hstop]
      exact byteAt_eq_byteAt_max_iff (hin range (List.mem_of_getElem? hrange)).2

/-- The first range is inverted, and the last one ends in what the others use up. -/
theorem spans_follow_furthest_inverted :
    (Utf8.encode ['a', '€']).length ≤ maxOffset ∧
    spans ['a', '€'] [(2, 1), (1, 2), (0, 1)]
      = .ok [⟨0, 1, by decide⟩, ⟨1, 4, by decide⟩, ⟨4, 4, by decide⟩] ∧
    Span.Chain 0 [⟨0, 1, by decide⟩, ⟨1, 4, by decide⟩, ⟨4, 4, by decide⟩]
      (Utf8.encode ['a', '€']).length ∧
    (Span.isEmpty ⟨4, 4, by decide⟩ = true ↔ 1 ≤ furthest 0 [(2, 1), (1, 2)]) := by
  have hfits : (Utf8.encode ['a', '€']).length ≤ maxOffset := by decide
  have htokens : spans ['a', '€'] [(2, 1), (1, 2), (0, 1)]
      = .ok [⟨0, 1, by decide⟩, ⟨1, 4, by decide⟩, ⟨4, 4, by decide⟩] := rfl
  obtain ⟨-, hshape⟩ := spans_follow_furthest hfits [(2, 1), (1, 2), (0, 1)]
  obtain ⟨-, -, hchain, hempty⟩ := hshape _ htokens
  exact ⟨hfits, htokens, hchain, hempty 2 _ (0, 1) rfl rfl⟩

end CharOffsets

end TokenAlignment
