/-
TokenAlignment/Proofs/Identifier/Spelling.lean

Known words that spell a word, and the cheapest of them.

Known words spell a word if they make it up when put together.  Some do just if the word
has a segmentation,

    segment? word ≠ none   iff   parts.flatten = word for some known parts,

the segmentation is one of these spellings, and no other one is cheaper.  That no spelling
is missed is shown along its last part: what stands before spells an earlier beginning of
the word, which has an entry in the table, and the last part is a step from there.

Design.  "Cheaper" makes sense for costs with exact sums.  They may be taken in any
commutative monoid with an order that sums respect, and what does not speak of costs is
stated without one, so that it holds of floating-point numbers too.

Main result: `segment?_cheapest`.
-/
import TokenAlignment.Proofs.Identifier.Conservation
import TokenAlignment.Proofs.Identifier.PathTable
import Mathlib.Algebra.BigOperators.Group.List.Basic
import Mathlib.Algebra.Order.Monoid.Defs
import Mathlib.Algebra.Order.Group.Nat

namespace TokenAlignment

namespace Lexicon

variable {κ : Type}

/-! ### Sizes of known words -/

/-- No known word is empty, or longer than the longest. -/
structure Sized (lex : Lexicon κ) : Prop where
  ne_nil : ∀ word, lex.isKnown word = true → word ≠ []
  length_le : ∀ word, lex.isKnown word = true → word.length ≤ lex.longest

theorem longest_foldl_addWord (cost : Nat → κ) (lex : Lexicon κ)
    (entries : List (List Char × Nat)) :
    let filled := entries.foldl (fun lex entry => lex.addWord cost entry.1 entry.2) lex
    lex.longest ≤ filled.longest ∧ ∀ entry ∈ entries, entry.1.length ≤ filled.longest := by
  induction entries generalizing lex with
  | nil => simp
  | cons entry entries ih =>
      obtain ⟨hlongest, hentries⟩ := ih (lex.addWord cost entry.1 entry.2)
      have hadded : (lex.addWord cost entry.1 entry.2).longest
          = max lex.longest entry.1.length := rfl
      rw [hadded, Nat.max_le] at hlongest
      exact ⟨hlongest.1, List.forall_mem_cons.mpr ⟨hlongest.2, hentries⟩⟩

theorem nil_notMem_ranked (extra : List (List Char)) : [] ∉ ranked extra := by
  rw [ranked, List.mem_append]
  rintro (hcommon | hextra)
  · obtain ⟨word, hword, hnil⟩ := List.mem_map.mp hcommon
    rw [String.toList_eq_nil_iff] at hnil
    subst hnil
    exact absurd hword (by decide +kernel)
  · obtain ⟨word, -, hword⟩ := List.mem_filterMap.mp hextra
    rw [normalize?] at hword
    split at hword
    · rename_i hlong
      rw [Option.some.inj hword] at hlong
      exact absurd hlong.1 (by decide)
    · cases hword

/-- **What a lexicon is built from has the sizes that its table counts on**, whichever
words are added and however often. -/
theorem sized_withWords (cost : Nat → Nat → κ) (extra : List (List Char)) :
    (withWords cost extra).Sized where
  ne_nil word hword := by
    rintro rfl
    rw [withWords, isKnown_ofRanked] at hword
    exact nil_notMem_ranked extra hword
  length_le word hword := by
    rw [withWords, isKnown_ofRanked] at hword
    obtain ⟨rank, hrank, rfl⟩ := List.getElem_of_mem hword
    obtain ⟨-, hentries⟩ := longest_foldl_addWord (cost (ranked extra).length) ⟨∅, 0⟩
      (ranked extra).zipIdx
    exact hentries ((ranked extra)[rank], rank) (List.mem_zipIdx_iff_getElem?.mpr (by simp))

/-! ### Spellings -/

/-- The parts are known words, and put together they are the word. -/
structure Spells (lex : Lexicon κ) (parts : List (List Char)) (word : List Char) : Prop where
  known : ∀ part ∈ parts, lex.isKnown part = true
  flatten_eq : parts.flatten = word

variable {lex : Lexicon κ} {word : List Char}

/-- The parts before the last one spell an earlier beginning of the word. -/
theorem Spells.exists_start {parts : List (List Char)} {part : List Char} {stop : Nat}
    (h : lex.Spells (parts ++ [part]) (word.take stop)) (hpart : part ≠ [])
    (hstop : stop ≤ word.length) :
    ∃ start < stop, lex.Spells parts (word.take start) ∧
      (word.toArray.extract start stop).toList = part := by
  have hword := h.flatten_eq
  rw [List.flatten_append, List.flatten_singleton] at hword
  have hlength := congrArg List.length hword
  rw [List.length_append, List.length_take, Nat.min_eq_left hstop] at hlength
  have hpos := List.length_pos_iff.mpr hpart
  have hlt : parts.flatten.length < stop := by omega
  refine ⟨parts.flatten.length, hlt, ⟨?_, ?_⟩, ?_⟩
  · intro p hp
    exact h.known p (List.mem_append_left _ hp)
  · rw [← Nat.min_eq_left (Nat.le_of_lt hlt), ← List.take_take, ← hword, List.take_left]
  · rw [List.extract_toArray, List.extract_eq_take_drop, ← List.drop_take, ← hword,
      List.drop_left]

/-- Only the empty beginning is spelled by no words. -/
theorem Spells.stop_eq_zero {stop : Nat} (h : lex.Spells [] (word.take stop))
    (hstop : stop ≤ word.length) : stop = 0 := by
  have hlength := congrArg List.length h.flatten_eq
  rw [List.length_take, List.flatten_nil, List.length_nil] at hlength
  omega

theorem exists_cost_of_isKnown {w : List Char} (h : lex.isKnown w = true) :
    ∃ cost, lex.costs[String.ofList w]? = some cost := by
  rw [isKnown, Std.HashMap.contains_eq_isSome_getElem?] at h
  exact Option.isSome_iff_exists.mp h

section Table

variable [Add κ] [LT κ] [DecidableLT κ] [OfNat κ 0]

/-- **No spelling is missed**: what known words spell has an entry in the table. -/
theorem Spells.isSome_best (hsized : lex.Sized) {parts : List (List Char)} {stop : Nat}
    (h : lex.Spells parts (word.take stop)) (hstop : stop ≤ word.length) :
    (lex.best word.toArray stop).isSome = true := by
  induction parts using List.reverseRecOn generalizing stop with
  | nil =>
      rw [h.stop_eq_zero hstop, best_zero]
      rfl
  | append_singleton parts part ih =>
      have hknown := h.known part (by simp)
      obtain ⟨start, hlt, hspells, hextract⟩ := h.exists_start (hsized.ne_nil _ hknown) hstop
      obtain ⟨before, hbefore⟩ := Option.isSome_iff_exists.mp (ih hspells (by omega))
      obtain ⟨cost, hcost⟩ := exists_cost_of_isKnown hknown
      rw [best_eq (by omega) hstop, bestTo_eq_foldl_range hsized.length_le _ hstop,
        isSome_foldl_cheaper]
      refine .inr ⟨start, List.mem_range.mpr hlt, ?_⟩
      rw [extend?_eq_some_of_best hbefore (hextract ▸ hcost)]
      rfl

theorem spells_of_segment?_eq_some {ranges : List (Nat × Nat)}
    (h : lex.segment? word = some ranges) :
    lex.Spells (ranges.map fun range => word.extract range.1 range.2) word where
  known part hpart := by
    obtain ⟨range, hrange, rfl⟩ := List.mem_map.mp hpart
    have hknown := ((steps_of_segment?_eq_some h).of_mem (List.mem_reverse.mpr hrange)).2
    rwa [List.extract_toArray] at hknown
  flatten_eq := by
    have hcut := WordSplitter.isCut_of_steps (steps_of_segment?_eq_some h) (Nat.le_refl _)
    rw [List.reverse_reverse, List.take_length] at hcut
    exact hcut.2

/-- **A word has a segmentation just if known words spell it.** -/
theorem isSome_segment?_iff (hsized : lex.Sized) :
    (lex.segment? word).isSome = true ↔ ∃ parts, lex.Spells parts word := by
  constructor
  · intro h
    obtain ⟨ranges, hranges⟩ := Option.isSome_iff_exists.mp h
    exact ⟨_, spells_of_segment?_eq_some hranges⟩
  · rintro ⟨parts, hparts⟩
    rw [← List.take_length (l := word)] at hparts
    show (Option.map _ (lex.best word.toArray word.length)).isSome = true
    rw [Option.isSome_map]
    exact hparts.isSome_best hsized (Nat.le_refl _)

end Table

/-! ### The cheapest spelling -/

/-- The cost of a known word. -/
def wordCost [Zero κ] (lex : Lexicon κ) (w : List Char) : κ :=
  lex.costs[String.ofList w]?.getD 0

/-- The cost of a spelling, that of its parts together. -/
def spellingCost [AddCommMonoid κ] (lex : Lexicon κ) (parts : List (List Char)) : κ :=
  (parts.map lex.wordCost).sum

section Exact

variable [AddCommMonoid κ]

@[simp] theorem spellingCost_nil : lex.spellingCost [] = 0 := rfl

@[simp] theorem spellingCost_concat (parts : List (List Char)) (part : List Char) :
    lex.spellingCost (parts ++ [part]) = lex.spellingCost parts + lex.wordCost part := by
  simp [spellingCost]

variable [LinearOrder κ]

omit [AddCommMonoid κ] in
/-- The cheaper of two paths costs no more than either. -/
theorem exists_cheaper (best other : Option (Path κ)) :
    (∀ b, best = some b → ∃ c, cheaper best other = some c ∧ c.cost ≤ b.cost) ∧
      ∀ o, other = some o → ∃ c, cheaper best other = some c ∧ c.cost ≤ o.cost := by
  rcases best with - | b
  · exact ⟨nofun, fun o ho => ⟨o, ho, le_refl _⟩⟩
  rcases other with - | o
  · refine ⟨?_, nofun⟩
    rintro b' ⟨⟩
    exact ⟨b, rfl, le_refl _⟩
  · rw [cheaper]
    split
    · rename_i hlt
      refine ⟨?_, ?_⟩
      · rintro b' ⟨⟩
        exact ⟨o, rfl, le_of_lt hlt⟩
      · rintro o' ⟨⟩
        exact ⟨o, rfl, le_refl _⟩
    · rename_i hle
      refine ⟨?_, ?_⟩
      · rintro b' ⟨⟩
        exact ⟨b, rfl, le_refl _⟩
      · rintro o' ⟨⟩
        exact ⟨b, rfl, le_of_not_gt hle⟩

omit [AddCommMonoid κ] in
/-- The cheapest candidate costs no more than any of them. -/
theorem cost_foldl_cheaper_le {candidate : Nat → Option (Path κ)} {starts : List Nat}
    {best : Option (Path κ)} {path : Path κ}
    (h : starts.foldl (fun best start => cheaper best (candidate start)) best = some path) :
    (∀ b, best = some b → path.cost ≤ b.cost) ∧
      ∀ start ∈ starts, ∀ o, candidate start = some o → path.cost ≤ o.cost := by
  induction starts generalizing best with
  | nil =>
      refine ⟨fun b hb => ?_, fun start hstart => nomatch hstart⟩
      rw [Option.some.inj (hb.symm.trans h)]
  | cons start starts ih =>
      obtain ⟨hfirst, hlater⟩ := ih h
      obtain ⟨hbest, hother⟩ := exists_cheaper best (candidate start)
      rw [List.forall_mem_cons]
      refine ⟨?_, ?_, hlater⟩
      · intro b hb
        obtain ⟨c, hc, hle⟩ := hbest b hb
        exact le_trans (hfirst c hc) hle
      · intro o ho
        obtain ⟨c, hc, hle⟩ := hother o ho
        exact le_trans (hfirst c hc) hle

/-- What a path costs is what its words cost. -/
theorem cost_best {stop : Nat} {path : Path κ}
    (h : lex.best word.toArray stop = some path) :
    path.cost
      = lex.spellingCost (path.ranges.reverse.map fun range => word.extract range.1 range.2) := by
  induction stop using Nat.strongRecOn generalizing path with
  | ind stop ih =>
      rcases best_cases h with ⟨-, rfl⟩ | ⟨start, before, cost, hlt, hbefore, hcost, rfl⟩
      · rfl
      · have hlast : lex.wordCost (word.extract start stop) = cost := by
          rw [List.extract_toArray] at hcost
          rw [wordCost, hcost]
          rfl
        simp only [List.reverse_cons, List.map_append, List.map_singleton,
          spellingCost_concat]
        rw [hlast, ← ih start hlt hbefore]

variable [IsOrderedAddMonoid κ]

/-- **No spelling is cheaper than the path in the table.** -/
theorem Spells.cost_best_le (hsized : lex.Sized) {parts : List (List Char)} {stop : Nat}
    (h : lex.Spells parts (word.take stop)) (hstop : stop ≤ word.length) {path : Path κ}
    (hpath : lex.best word.toArray stop = some path) :
    path.cost ≤ lex.spellingCost parts := by
  induction parts using List.reverseRecOn generalizing stop path with
  | nil =>
      rw [h.stop_eq_zero hstop, best_zero, Option.some.injEq] at hpath
      rw [← hpath]
      exact le_refl _
  | append_singleton parts part ih =>
      have hknown := h.known part (by simp)
      obtain ⟨start, hlt, hspells, hextract⟩ := h.exists_start (hsized.ne_nil _ hknown) hstop
      have hsome := hspells.isSome_best hsized (by omega)
      obtain ⟨before, hbefore⟩ := Option.isSome_iff_exists.mp hsome
      obtain ⟨cost, hcost⟩ := exists_cost_of_isKnown hknown
      have hcandidate := extend?_eq_some_of_best hbefore (hextract ▸ hcost)
      rw [best_eq (by omega) hstop, bestTo_eq_foldl_range hsized.length_le _ hstop] at hpath
      have hpart : lex.wordCost part = cost := by
        rw [wordCost, hcost]
        rfl
      calc path.cost
          ≤ before.cost + cost :=
            (cost_foldl_cheaper_le hpath).2 start (List.mem_range.mpr hlt) _ hcandidate
        _ ≤ lex.spellingCost parts + cost := by
            gcongr
            exact ih hspells (by omega) hbefore
        _ = lex.spellingCost (parts ++ [part]) := by rw [spellingCost_concat, hpart]

end Exact

/-- **Segmentation is sound, complete and cheapest**, for the common words and any that are
added.

Whatever costs are and however they add up: a word has a segmentation just if known words
spell it.  The ranges of a segmentation go from the start of the word to its end, each from
where the one before it stops; none is empty, and each holds a known word.  No known word is
longer than the longest, so looking back over that many offsets is as good as looking back
over all of them.  Going back from the end over the starts of last words never goes forward
and stays where known words lead, and it arrives at the start within as many turns as the
word has characters, with the ranges of the segmentation.

If sums of costs are exact, no known words that spell the word cost less together. -/
theorem segment?_cheapest (extra : List (List Char)) (word : List Char) :
    (∀ {κ : Type} [Add κ] [LT κ] [DecidableLT κ] [OfNat κ 0] (cost : Nat → Nat → κ),
      let lex := withWords cost extra
      ((lex.segment? word).isSome = true ↔ ∃ parts, lex.Spells parts word) ∧
      (∀ ranges, lex.segment? word = some ranges →
        ranges.map Prod.fst ++ [word.length] = 0 :: ranges.map Prod.snd ∧
        ∀ range ∈ ranges, range.1 < range.2 ∧
          lex.isKnown (word.extract range.1 range.2) = true) ∧
      (∀ known, lex.isKnown known = true → known.length ≤ lex.longest) ∧
      (∀ table stop, stop ≤ word.length →
        lex.bestTo word.toArray table stop
          = (List.range stop).foldl
              (fun best start => cheaper best (lex.extend? word.toArray table stop start))
              none) ∧
      (∀ stop start, lex.back word.toArray stop = some start →
        start < stop ∧ (lex.best word.toArray start).isSome = true) ∧
      follow (lex.back word.toArray) word.length word.length [] = lex.segment? word) ∧
    ∀ {κ : Type} [AddCommMonoid κ] [LinearOrder κ] [IsOrderedAddMonoid κ]
      (cost : Nat → Nat → κ),
      let lex := withWords cost extra
      ∀ ranges, lex.segment? word = some ranges → ∀ parts, lex.Spells parts word →
        lex.spellingCost (ranges.map fun range => word.extract range.1 range.2)
          ≤ lex.spellingCost parts := by
  refine ⟨?_, ?_⟩
  · intro κ _ _ _ _ cost lex
    have hsized : lex.Sized := sized_withWords cost extra
    refine ⟨isSome_segment?_iff hsized, ?_, hsized.length_le, ?_, ?_, ?_⟩
    · intro ranges hranges
      have hsteps := steps_of_segment?_eq_some hranges
      have htile := hsteps.starts_eq_stops
      rw [List.reverse_reverse] at htile
      refine ⟨htile, fun range hrange => ?_⟩
      obtain ⟨hforward, hknown⟩ := hsteps.of_mem (List.mem_reverse.mpr hrange)
      rw [List.extract_toArray] at hknown
      exact ⟨hforward, hknown⟩
    · intro table stop hstop
      exact bestTo_eq_foldl_range hsized.length_le table hstop
    · intro stop start
      exact lt_of_back_eq_some
    · exact (lex.segment?_eq_follow word).symm
  · intro κ _ _ _ cost lex ranges hranges parts hparts
    have hsized : lex.Sized := sized_withWords cost extra
    obtain ⟨path, hpath, rfl⟩ := Option.map_eq_some_iff.mp hranges
    rw [← List.take_length (l := word)] at hparts
    have hbest : lex.best word.toArray word.length = some path := hpath
    rw [← cost_best hbest]
    exact hparts.cost_best_le hsized (Nat.le_refl _) hbest

/-- The text is one of the words added, and two of them spell it. -/
theorem segment?_cheapest_zigzag :
    let lex := withWords (fun _ rank => rank)
      [['z', 'i', 'g'], ['z', 'a', 'g'], ['Z', 'i', 'g', 'Z', 'a', 'g']]
    ∃ ranges, lex.segment? ['z', 'i', 'g', 'z', 'a', 'g'] = some ranges ∧
      lex.Spells [['z', 'i', 'g'], ['z', 'a', 'g']] ['z', 'i', 'g', 'z', 'a', 'g'] ∧
      lex.spellingCost (ranges.map fun range =>
          ['z', 'i', 'g', 'z', 'a', 'g'].extract range.1 range.2)
        ≤ lex.spellingCost [['z', 'i', 'g'], ['z', 'a', 'g']] := by
  intro lex
  have hparts : lex.Spells [['z', 'i', 'g'], ['z', 'a', 'g']]
      ['z', 'i', 'g', 'z', 'a', 'g'] := by
    refine ⟨?_, rfl⟩
    intro part hpart
    apply (isKnown_ofRanked _ _ part).mpr
    apply List.mem_append_right
    revert part
    decide +kernel
  obtain ⟨hall, hcheapest⟩ := segment?_cheapest
    [['z', 'i', 'g'], ['z', 'a', 'g'], ['Z', 'i', 'g', 'Z', 'a', 'g']]
    ['z', 'i', 'g', 'z', 'a', 'g']
  obtain ⟨hspelled, -⟩ := hall fun _ rank => rank
  obtain ⟨ranges, hranges⟩ := Option.isSome_iff_exists.mp (hspelled.mpr ⟨_, hparts⟩)
  exact ⟨ranges, hranges, hparts, hcheapest (fun _ rank => rank) ranges hranges _ hparts⟩

end Lexicon

end TokenAlignment
