/-
TokenAlignment/Proofs/Tokenizer/Patterns.lean

The six patterns of pre-token pieces, and the longest match.

`Match` says which texts a pattern matches, as the patterns are written:

    contraction   '[sStTdDmM]   '[rR][eE]   '[vV][eE]   '[lL][lL]
    letters       one character or none, letters
    digits        one to three numbers
    punctuation   a space or none, symbols, line breaks
    newline       white space with a line break in it
    whitespace    white space without one

The lengths that the lexer computes are those of the longest matches, the longest over all
patterns that is:

    text.take (matchLength text)  matches,   and no beginning that matches is longer

A contraction is never longer than the apostrophe and the letters after it, so the pattern
of letters always takes it.

Main results: `length_le_matchLength`, `match_take`.
-/
import TokenAlignment.Proofs.Text.CharClasses
import TokenAlignment.Tokenizer.Pretoken

namespace TokenAlignment

namespace PieceClass

/-! ### Classes -/

variable {c : Char}

theorem of_eq_lineBreak_iff : of c = lineBreak ↔ c = '\r' ∨ c = '\n' := by
  rw [of]
  split_ifs with hbreak hletter hnumber hblank
  · simp [hbreak]
  all_goals simp [hbreak]

theorem of_eq_letter_iff : of c = letter ↔ isLetter c = true := by
  rw [of]
  split_ifs with hbreak hletter hnumber hblank
  · have hcontrol : ¬ isLetter c = true := by
      rcases hbreak with rfl | rfl
      · decide
      · decide
    simp [hcontrol]
  · simp [hletter]
  all_goals simp [hletter]

theorem of_eq_number_iff : of c = number ↔ isNumber c = true := by
  rw [of]
  split_ifs with hbreak hletter hnumber hblank
  · have hcontrol : ¬ isNumber c = true := by
      rcases hbreak with rfl | rfl
      · decide
      · decide
    simp [hcontrol]
  · simp [not_isNumber_of_isLetter hletter]
  · simp [hnumber]
  all_goals simp [hnumber]

/-- A line break and a blank are white space. -/
theorem isBlank_of_mem (h : of c ∈ [lineBreak, blank]) : isBlank c = true := by
  rw [of] at h
  split_ifs at h with hbreak hletter hnumber hblank
  · rcases hbreak with rfl | rfl
    · decide
    · decide
  · simp at h
  · simp at h
  · exact hblank
  · simp at h

end PieceClass

namespace Pretoken

/-! ### The patterns as they are written -/

/-- What stands behind the apostrophe of a contraction, in lower case. -/
def contractionTails : List (List Char) :=
  [['s'], ['t'], ['d'], ['m'], ['r', 'e'], ['v', 'e'], ['l', 'l']]

/-- The texts that a pattern matches. -/
inductive Match : List Char → Prop
  | contraction {tail : List Char}
    (rest : tail.map Char.toLower ∈ contractionTails) : Match ('\'' :: tail)
  | letters {lead letters : List Char} (one : lead.length ≤ 1)
    (other : ∀ c ∈ lead, PieceClass.of c ∉ [.letter, .number, .lineBreak])
    (nonempty : letters ≠ []) (all : ∀ c ∈ letters, PieceClass.of c = .letter) :
    Match (lead ++ letters)
  | digits {numbers : List Char} (nonempty : numbers ≠ []) (three : numbers.length ≤ 3)
    (all : ∀ c ∈ numbers, PieceClass.of c = .number) : Match numbers
  | punctuation {lead symbols breaks : List Char} (space : lead = [] ∨ lead = [' '])
    (nonempty : symbols ≠ []) (all : ∀ c ∈ symbols, PieceClass.of c = .symbol)
    (behind : ∀ c ∈ breaks, PieceClass.of c = .lineBreak) : Match (lead ++ symbols ++ breaks)
  | newline {space : List Char} (all : ∀ c ∈ space, PieceClass.of c ∈ [.lineBreak, .blank])
    (some : ∃ c ∈ space, PieceClass.of c = .lineBreak) : Match space
  | whitespace {space : List Char} (nonempty : space ≠ [])
    (all : ∀ c ∈ space, PieceClass.of c = .blank) : Match space

/-! ### Runs -/

section Runs

variable {k : PieceClass} {run text : List Char}

theorem runLength_append (hrun : ∀ c ∈ run, PieceClass.of c = k) :
    runLength k (run ++ text) = run.length + runLength k text := by
  rw [runLength, runLength, List.takeWhile_append_of_pos, List.length_append]
  exact fun c hc => decide_eq_true (hrun c hc)

/-- A run of the class at the start of a text is no longer than the longest one. -/
theorem length_le_runLength (hrun : ∀ c ∈ run, PieceClass.of c = k) (h : run <+: text) :
    run.length ≤ runLength k text := by
  obtain ⟨rest, rfl⟩ := h
  rw [runLength_append hrun]
  exact Nat.le_add_right ..

theorem runLength_eq_zero (h : ∀ c ∈ text.head?, PieceClass.of c ≠ k) :
    runLength k text = 0 := by
  rcases text with - | ⟨c, text⟩
  · rfl
  · rw [runLength, List.takeWhile_cons_of_neg (by simpa using h c rfl), List.length_nil]

theorem take_runLength (k : PieceClass) (text : List Char) :
    text.take (runLength k text) = text.takeWhile fun c => PieceClass.of c = k :=
  (List.prefix_iff_eq_take.mp (List.takeWhile_prefix _)).symm

theorem of_mem_take_runLength {c : Char} (h : c ∈ text.take (runLength k text)) :
    PieceClass.of c = k := by
  rw [take_runLength] at h
  exact of_decide_eq_true (List.all_eq_true.mp List.all_takeWhile c h)

theorem take_runLength_ne_nil (h : 0 < runLength k text) :
    text.take (runLength k text) ≠ [] := by
  rw [take_runLength]
  exact List.length_pos_iff.mp h

end Runs

/-! ### Letters -/

section Letters

variable {c : Char} {cs text : List Char}

theorem letters_of_letter (h : PieceClass.of c = .letter) :
    letters (c :: cs) = runLength .letter (c :: cs) := by
  rw [letters.eq_def]
  simp only [h]

theorem letters_of_other (h : PieceClass.of c ∉ [.letter, .number, .lineBreak]) :
    letters (c :: cs) = if runLength .letter cs = 0 then 0 else runLength .letter cs + 1 := by
  rw [letters.eq_def]
  rcases hc : PieceClass.of c <;> simp_all

theorem letters_of_none (h : PieceClass.of c ∈ [.number, .lineBreak]) :
    letters (c :: cs) = 0 := by
  rw [letters.eq_def]
  rcases hc : PieceClass.of c <;> simp_all

/-- Letters with at most one other character before them are no longer than the match. -/
theorem length_le_letters {lead run : List Char} (one : lead.length ≤ 1)
    (other : ∀ c ∈ lead, PieceClass.of c ∉ [.letter, .number, .lineBreak])
    (nonempty : run ≠ []) (all : ∀ c ∈ run, PieceClass.of c = .letter)
    (h : lead ++ run <+: text) : (lead ++ run).length ≤ letters text := by
  obtain ⟨rest, rfl⟩ := h
  have hrun := length_le_runLength all (List.prefix_append run rest)
  have hpos := List.length_pos_iff.mpr nonempty
  rcases lead with - | ⟨c, lead⟩
  · obtain ⟨c, cs, rfl⟩ := List.exists_cons_of_ne_nil nonempty
    rw [List.nil_append, List.cons_append, letters_of_letter (all c (List.mem_cons_self ..))]
    exact hrun
  · obtain rfl : lead = [] := by simpa using one
    rw [List.append_assoc, List.singleton_append, List.singleton_append,
      letters_of_other (other c (List.mem_cons_self ..)), if_neg (by omega), List.length_cons]
    omega

theorem match_letters (h : 0 < letters text) : Match (text.take (letters text)) := by
  rcases text with - | ⟨c, cs⟩
  · simp [letters] at h
  by_cases hletter : PieceClass.of c = .letter
  · rw [letters_of_letter hletter] at h ⊢
    exact @Match.letters [] _ (Nat.zero_le _) (by simp) (take_runLength_ne_nil h)
      fun x hx => of_mem_take_runLength hx
  by_cases hnone : PieceClass.of c ∈ [.number, .lineBreak]
  · rw [letters_of_none hnone] at h
    cases h
  -- some other character, with letters behind it
  have hother : PieceClass.of c ∉ [.letter, .number, .lineBreak] := by
    rw [List.mem_cons, not_or]
    exact ⟨hletter, hnone⟩
  rw [letters_of_other hother] at h ⊢
  split at h
  · cases h
  · rename_i hrun
    rw [if_neg hrun, List.take_succ_cons]
    exact @Match.letters [c] _ (Nat.le_refl _) (by simpa using hother)
      (take_runLength_ne_nil (Nat.pos_of_ne_zero hrun)) fun x hx => of_mem_take_runLength hx

end Letters

/-! ### Numbers -/

section Digits

variable {text : List Char}

theorem length_le_digits {run : List Char} (three : run.length ≤ 3)
    (all : ∀ c ∈ run, PieceClass.of c = .number) (h : run <+: text) :
    run.length ≤ digits text :=
  length_le_runLength all (List.prefix_take_iff.mpr ⟨h, three⟩)

theorem match_digits (h : 0 < digits text) : Match (text.take (digits text)) := by
  have hthree : digits text ≤ 3 := by
    have hlength := (List.takeWhile_prefix
      (fun c => decide (PieceClass.of c = .number)) (l := text.take 3)).length_le
    rw [List.length_take] at hlength
    exact hlength.trans (Nat.min_le_left ..)
  have htake : text.take (digits text) = (text.take 3).take (digits text) := by
    rw [List.take_take, Nat.min_eq_left hthree]
  rw [htake]
  refine .digits (take_runLength_ne_nil h) ?_ fun x hx => of_mem_take_runLength hx
  rw [List.length_take]
  omega

end Digits

/-! ### Symbols -/

section Symbols

variable {text : List Char}

theorem length_le_symbols {run breaks : List Char} (nonempty : run ≠ [])
    (all : ∀ c ∈ run, PieceClass.of c = .symbol)
    (behind : ∀ c ∈ breaks, PieceClass.of c = .lineBreak) (h : run ++ breaks <+: text) :
    (run ++ breaks).length ≤ symbols text := by
  obtain ⟨rest, rfl⟩ := h
  have hpos := List.length_pos_iff.mpr nonempty
  rw [symbols, List.append_assoc, runLength_append all]
  rw [if_neg (by omega)]
  rcases breaks with - | ⟨b, breaks⟩
  · rw [List.append_nil]
    omega
  · -- the symbols end where the line breaks begin
    have hend : runLength .symbol (b :: breaks ++ rest) = 0 := by
      apply runLength_eq_zero
      intro c hc
      cases hc
      rw [behind b (List.mem_cons_self ..)]
      decide
    rw [hend, Nat.add_zero, List.drop_left, runLength_append behind, List.length_append]
    omega

theorem exists_take_symbols (h : 0 < symbols text) :
    ∃ run breaks, text.take (symbols text) = run ++ breaks ∧ run ≠ [] ∧
      (∀ c ∈ run, PieceClass.of c = .symbol) ∧
      ∀ c ∈ breaks, PieceClass.of c = .lineBreak := by
  rw [symbols] at h ⊢
  split at h
  · cases h
  · rename_i hrun
    rw [if_neg hrun, List.take_add]
    exact ⟨_, _, rfl, take_runLength_ne_nil (Nat.pos_of_ne_zero hrun),
      fun c hc => of_mem_take_runLength hc, fun c hc => of_mem_take_runLength hc⟩

theorem punctuation_space (cs : List Char) :
    punctuation (' ' :: cs) = if symbols cs = 0 then 0 else symbols cs + 1 :=
  rfl

theorem punctuation_of_ne (h : ∀ c ∈ text.head?, c ≠ ' ') : punctuation text = symbols text := by
  unfold punctuation
  split
  · exact absurd rfl (h ' ' rfl)
  · rfl

theorem length_le_punctuation {lead run breaks : List Char} (space : lead = [] ∨ lead = [' '])
    (nonempty : run ≠ []) (all : ∀ c ∈ run, PieceClass.of c = .symbol)
    (behind : ∀ c ∈ breaks, PieceClass.of c = .lineBreak)
    (h : lead ++ run ++ breaks <+: text) : (lead ++ run ++ breaks).length ≤ punctuation text := by
  rw [List.append_assoc] at h ⊢
  rcases space with rfl | rfl
  · rw [List.nil_append] at h ⊢
    rw [punctuation_of_ne]
    · exact length_le_symbols nonempty all behind h
    · intro c hc
      obtain ⟨x, xs, rfl⟩ := List.exists_cons_of_ne_nil nonempty
      obtain ⟨rest, rfl⟩ := h
      cases hc
      rintro rfl
      exact absurd (all ' ' (List.mem_cons_self ..)) (by decide)
  · obtain ⟨rest, rfl⟩ := h
    have hsymbols := length_le_symbols nonempty all behind
      (List.prefix_append (run ++ breaks) rest)
    have hpos := List.length_pos_iff.mpr nonempty
    rw [List.length_append] at hsymbols
    show (' ' :: (run ++ breaks)).length ≤ punctuation (' ' :: (run ++ breaks ++ rest))
    rw [punctuation_space, if_neg (by omega), List.length_cons, List.length_append]
    omega

theorem match_punctuation (h : 0 < punctuation text) :
    Match (text.take (punctuation text)) := by
  by_cases hspace : ∀ c ∈ text.head?, c ≠ ' '
  · rw [punctuation_of_ne hspace] at h ⊢
    obtain ⟨run, breaks, htake, hne, hall, hbehind⟩ := exists_take_symbols h
    rw [htake]
    exact @Match.punctuation [] _ _ (.inl rfl) hne hall hbehind
  · rcases text with - | ⟨c, cs⟩
    · simp at hspace
    obtain rfl : c = ' ' := by simpa using hspace
    rw [punctuation_space] at h ⊢
    split at h
    · cases h
    · rename_i hsymbols
      obtain ⟨run, breaks, htake, hne, hall, hbehind⟩ :=
        exists_take_symbols (Nat.pos_of_ne_zero hsymbols)
      rw [if_neg hsymbols, List.take_succ_cons, htake]
      exact @Match.punctuation [' '] _ _ (.inr rfl) hne hall hbehind

end Symbols

/-! ### White space -/

section Space

variable {text : List Char}

theorem length_le_newline {space : List Char}
    (all : ∀ c ∈ space, PieceClass.of c ∈ [.lineBreak, .blank])
    (some : ∃ c ∈ space, PieceClass.of c = .lineBreak) (h : space <+: text) :
    space.length ≤ newline text := by
  obtain ⟨rest, rfl⟩ := h
  have hrun : (space ++ rest).takeWhile (fun c => PieceClass.of c ∈ [.lineBreak, .blank])
      = space ++ rest.takeWhile fun c => PieceClass.of c ∈ [.lineBreak, .blank] :=
    List.takeWhile_append_of_pos fun c hc => decide_eq_true (all c hc)
  obtain ⟨b, hb, hbreak⟩ := some
  rw [newline]
  simp only [hrun]
  rw [if_pos]
  · rw [List.length_append]
    exact Nat.le_add_right ..
  · rw [List.any_eq_true]
    exact ⟨b, List.mem_append_left _ hb, decide_eq_true hbreak⟩

theorem match_newline (h : 0 < newline text) : Match (text.take (newline text)) := by
  rw [newline] at h ⊢
  split at h
  · rename_i hbreak
    rw [if_pos hbreak, ← List.prefix_iff_eq_take.mp (List.takeWhile_prefix _)]
    rw [List.any_eq_true] at hbreak
    obtain ⟨b, hb, hbreak⟩ := hbreak
    refine .newline (fun c hc => ?_) ⟨b, hb, of_decide_eq_true hbreak⟩
    exact of_decide_eq_true (List.all_eq_true.mp List.all_takeWhile c hc)
  · cases h

theorem match_whitespace (h : 0 < whitespace text) : Match (text.take (whitespace text)) :=
  .whitespace (take_runLength_ne_nil h) fun _ hc => of_mem_take_runLength hc

end Space

/-! ### The longest match -/

theorem contraction_letters {tail : List Char}
    (h : tail.map Char.toLower ∈ contractionTails) :
    tail ≠ [] ∧ ∀ c ∈ tail, PieceClass.of c = .letter := by
  have hletters : (contractionTails.all fun l => !l.isEmpty && l.all Char.isAlpha) = true := by
    decide
  have htail := List.all_eq_true.mp hletters _ h
  rw [Bool.and_eq_true, List.all_eq_true] at htail
  refine ⟨by simpa using htail.1, fun c hc => ?_⟩
  rw [PieceClass.of_eq_letter_iff]
  apply isLetter_of_isAlpha
  apply isAlpha_of_isAlpha_toLower
  exact htail.2 _ (List.mem_map_of_mem hc)

theorem matchLength_eq (text : List Char) :
    matchLength text = max (max (max (max (max (contraction text) (letters text)) (digits text))
      (punctuation text)) (newline text)) (whitespace text) := by
  rw [matchLength]
  simp only [List.foldl_cons, List.foldl_nil, Nat.zero_max]

theorem length_contraction_le {tail rest : List Char}
    (h : tail.map Char.toLower ∈ contractionTails) :
    ('\'' :: tail).length ≤ letters ('\'' :: (tail ++ rest)) := by
  obtain ⟨hne, hall⟩ := contraction_letters h
  have hprefix : ['\''] ++ tail <+: '\'' :: (tail ++ rest) := List.prefix_append ..
  have hother : ∀ c ∈ ['\''], PieceClass.of c ∉ [.letter, .number, .lineBreak] :=
    List.forall_mem_singleton.mpr (by decide)
  exact length_le_letters (Nat.le_refl _) hother hne hall hprefix

/-- A contraction is no longer than the apostrophe and the letters behind it. -/
theorem contraction_le_letters (text : List Char) : contraction text ≤ letters text := by
  unfold contraction
  split
  · rename_i a cs
    split
    · rename_i hone
      have hrest : [a].map Char.toLower ∈ contractionTails := by
        simp_all [contractionTails]
      exact @length_contraction_le [a] cs hrest
    · split
      · rename_i b cs
        split
        · rename_i htwo
          have hrest : [a, b].map Char.toLower ∈ contractionTails := by
            simp_all [contractionTails]
          exact @length_contraction_le [a, b] cs hrest
        · exact Nat.zero_le _
      · exact Nat.zero_le _
  · exact Nat.zero_le _

/-- **No match is longer.** -/
theorem length_le_matchLength {text piece : List Char} (hmatch : Match piece)
    (h : piece <+: text) : piece.length ≤ matchLength text := by
  rw [matchLength_eq]
  cases hmatch with
  | contraction rest =>
      obtain ⟨more, rfl⟩ := h
      have hletters := @length_contraction_le _ more rest
      rw [List.cons_append]
      omega
  | letters one other nonempty all =>
      have hletters := length_le_letters one other nonempty all h
      omega
  | digits nonempty three all =>
      have hdigits := length_le_digits three all h
      omega
  | punctuation space nonempty all behind =>
      have hpunctuation := length_le_punctuation space nonempty all behind h
      omega
  | newline all some =>
      have hnewline := length_le_newline all some h
      omega
  | whitespace nonempty all =>
      have hwhitespace : _ ≤ whitespace text := length_le_runLength all h
      omega

/-- Some pattern matches the first character. -/
theorem match_singleton (c : Char) : Match [c] := by
  have hone (k : PieceClass) (h : PieceClass.of c = k) : ∀ x ∈ [c], PieceClass.of x = k := by
    simpa using h
  have hne : [c] ≠ [] := List.cons_ne_nil c []
  rcases h : PieceClass.of c
  · exact @Match.letters [] [c] (Nat.zero_le _) (by simp) hne (hone _ h)
  · exact .digits hne (by simp) (hone _ h)
  · exact .newline (by simp [h]) ⟨c, List.mem_cons_self .., h⟩
  · exact .whitespace hne (hone _ h)
  · exact @Match.punctuation [] [c] [] (.inl rfl) hne (hone _ h) (by simp)

theorem matchLength_pos (c : Char) (cs : List Char) : 0 < matchLength (c :: cs) :=
  length_le_matchLength (match_singleton c) (List.prefix_append [c] cs)

/-- **The longest match is one.** -/
theorem match_take (c : Char) (cs : List Char) :
    Match ((c :: cs).take (matchLength (c :: cs))) := by
  have hpos := matchLength_pos c cs
  have hletters := contraction_le_letters (c :: cs)
  have hlength : matchLength (c :: cs) = letters (c :: cs) ∨
      matchLength (c :: cs) = digits (c :: cs) ∨ matchLength (c :: cs) = punctuation (c :: cs) ∨
      matchLength (c :: cs) = newline (c :: cs) ∨
      matchLength (c :: cs) = whitespace (c :: cs) := by
    rw [matchLength_eq]
    omega
  rcases hlength with h | h | h | h | h
  · rw [h] at hpos ⊢
    exact match_letters hpos
  · rw [h] at hpos ⊢
    exact match_digits hpos
  · rw [h] at hpos ⊢
    exact match_punctuation hpos
  · rw [h] at hpos ⊢
    exact match_newline hpos
  · rw [h] at hpos ⊢
    exact match_whitespace hpos

end Pretoken

end TokenAlignment
