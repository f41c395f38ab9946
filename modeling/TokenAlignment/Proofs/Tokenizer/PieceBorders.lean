/-
TokenAlignment/Proofs/Tokenizer/PieceBorders.lean

Where the pieces of a text end.

Each piece is the longest match at its place (`Munched`), and that is all that is used of
the lexer.  What a match may hold follows from the patterns, what must stand behind it from
its being the longest:

    letters   more letters would be a longer match, so no piece ends between two letters
    numbers   match in a piece of their own, three or up to the last one, so a run of them is
              cut after every third
    breaks    only line breaks follow one in a piece, and other white space

A run of numbers is followed piece by piece, from the border before its first number.

Main result: `pieces_respect_classes`.
-/
import TokenAlignment.Proofs.Text.Pieces
import TokenAlignment.Proofs.Tokenizer.LexerSpans

namespace TokenAlignment

namespace Pretoken

/-! ### What a match holds -/

/-- The classes of the characters of a match. -/
inductive Shape : List Char → Prop
  | word {lead letters : List Char} (one : lead.length ≤ 1)
    (other : ∀ c ∈ lead, PieceClass.of c ∉ [.letter, .number, .lineBreak])
    (nonempty : letters ≠ []) (all : ∀ c ∈ letters, PieceClass.of c = .letter) :
    Shape (lead ++ letters)
  | number {numbers : List Char} (three : numbers.length ≤ 3)
    (all : ∀ c ∈ numbers, PieceClass.of c = .number) : Shape numbers
  | symbols {front breaks : List Char} (all : ∀ c ∈ front, PieceClass.of c ∈ [.blank, .symbol])
    (behind : ∀ c ∈ breaks, PieceClass.of c = .lineBreak) : Shape (front ++ breaks)
  | space {space : List Char} (all : ∀ c ∈ space, PieceClass.of c ∈ [.lineBreak, .blank]) :
    Shape space

theorem Match.shape {piece : List Char} (h : Match piece) : Shape piece := by
  cases h with
  | @contraction tail rest =>
      obtain ⟨hne, hall⟩ := contraction_letters rest
      exact @Shape.word ['\''] tail (Nat.le_refl _) (List.forall_mem_singleton.mpr (by decide))
        hne hall
  | letters one other nonempty all => exact .word one other nonempty all
  | digits nonempty three all => exact .number three all
  | @punctuation lead run breaks space nonempty all behind =>
      refine .symbols ?_ behind
      rw [List.forall_mem_append]
      refine ⟨?_, fun c hc => by simp [all c hc]⟩
      rcases space with rfl | rfl
      · simp
      · exact List.forall_mem_singleton.mpr (by decide)
  | newline all some => exact .space all
  | whitespace nonempty all => exact .space fun c hc => by simp [all c hc]

/-- A match with a letter in it may take one more letter. -/
theorem Match.append_letter {piece : List Char} (h : Match piece) {x y : Char} (hx : x ∈ piece)
    (hletter : PieceClass.of x = .letter) (hy : PieceClass.of y = .letter) :
    Match (piece ++ [y]) := by
  cases h.shape with
  | word one other nonempty all =>
      rw [List.append_assoc]
      refine .letters one other (by simp) ?_
      rw [List.forall_mem_append]
      exact ⟨all, by simpa using hy⟩
  | number three all => exact absurd (all x hx) (by simp [hletter])
  | symbols all behind =>
      rcases List.mem_append.mp hx with hx | hx
      · exact absurd (all x hx) (by simp [hletter])
      · exact absurd (behind x hx) (by simp [hletter])
  | space all => exact absurd (all x hx) (by simp [hletter])

/-- A match with a number in it is numbers only, three at most. -/
theorem Match.numbers {piece : List Char} (h : Match piece) {x : Char} (hx : x ∈ piece)
    (hnumber : PieceClass.of x = .number) :
    (∀ c ∈ piece, PieceClass.of c = .number) ∧ piece.length ≤ 3 := by
  cases h.shape with
  | word one other nonempty all =>
      rcases List.mem_append.mp hx with hx | hx
      · exact absurd hnumber (by have := other x hx; simp_all)
      · exact absurd (all x hx) (by simp [hnumber])
  | number three all => exact ⟨all, three⟩
  | symbols all behind =>
      rcases List.mem_append.mp hx with hx | hx
      · exact absurd (all x hx) (by simp [hnumber])
      · exact absurd (behind x hx) (by simp [hnumber])
  | space all => exact absurd (all x hx) (by simp [hnumber])

/-- In a match nothing but white space follows a line break. -/
theorem Match.blank_of_lineBreak {piece : List Char} (h : Match piece) {x y : Char}
    (hxy : [x, y] <:+: piece) (hbreak : PieceClass.of x = .lineBreak) :
    PieceClass.of y ∈ [.lineBreak, .blank] := by
  have hx : x ∈ piece := hxy.subset (by simp)
  have hy : y ∈ piece := hxy.subset (by simp)
  cases h.shape with
  | word one other nonempty all =>
      rcases List.mem_append.mp hx with hx | hx
      · exact absurd hbreak (by have := other x hx; simp_all)
      · exact absurd (all x hx) (by simp [hbreak])
  | number three all => exact absurd (all x hx) (by simp [hbreak])
  | @symbols front breaks all behind =>
      -- the first one is a line break behind the symbols, and so is the second one
      obtain ⟨l, r, hsplit⟩ := hxy
      rw [List.append_assoc] at hsplit
      rcases List.append_eq_append_iff.mp hsplit with ⟨mid, rfl, hmid⟩ | ⟨mid, rfl, rfl⟩
      · rcases mid with - | ⟨z, mid⟩
        · rw [List.nil_append] at hmid
          simp [behind y (by simp [← hmid])]
        · obtain ⟨rfl, -⟩ := List.cons.inj hmid
          exact absurd (all x (by simp)) (by simp [hbreak])
      · simp [behind y (by simp)]
  | space all => exact all y hy

/-! ### What stands behind a piece -/

/-- No piece ends between two letters. -/
theorem Longest.not_letter {front rest : List Char} {x y : Char}
    (h : Longest (front ++ [x]) (y :: rest)) (hx : PieceClass.of x = .letter) :
    ¬ PieceClass.of y = .letter := by
  intro hy
  have hmatch := h.isMatch.append_letter (by simp) hx hy
  have hle := h.length_le _ hmatch ⟨rest, by simp⟩
  rw [List.length_append, List.length_singleton] at hle
  omega

/-- Numbers are taken three at a time, or up to the last one. -/
theorem Longest.numbers {piece rest : List Char} (h : Longest piece rest) {x : Char}
    (hx : x ∈ piece) (hnumber : isNumber x = true) :
    (∀ c ∈ piece, isNumber c = true) ∧
      (piece.length = 3 ∨ piece.length < 3 ∧ Text.BeginsOutside isNumber rest) := by
  simp only [← PieceClass.of_eq_number_iff] at hnumber ⊢
  obtain ⟨hall, hthree⟩ := h.isMatch.numbers hx hnumber
  refine ⟨hall, ?_⟩
  by_cases hlength : piece.length = 3
  · exact .inl hlength
  · have hshort : piece.length < 3 := by omega
    refine .inr ⟨hshort, fun y hy hnumber' => ?_⟩
    obtain ⟨rest, rfl⟩ := List.head?_eq_some_iff.mp hy
    -- one more number would be a longer match
    have hmatch : Match (piece ++ [y]) := by
      refine .digits (by simp) ?_ ?_
      · rw [List.length_append, List.length_singleton]
        omega
      · rw [List.forall_mem_append]
        exact ⟨hall, by simpa using PieceClass.of_eq_number_iff.mpr hnumber'⟩
    have hle := h.length_le _ hmatch ⟨rest, by simp⟩
    rw [List.length_append, List.length_singleton] at hle
    omega

/-! ### Borders -/

/-- The text is cut between `left` and `right`. -/
def Border (ps : List (List Char)) (left right : List Char) : Prop :=
  ∃ before after, ps = before ++ after ∧ before.flatten = left ∧ after.flatten = right

theorem border_nil (ps : List (List Char)) : Border ps [] ps.flatten :=
  ⟨[], ps, rfl, rfl, rfl⟩

/-- Behind some pieces the borders are those of the pieces left. -/
theorem border_append {before after : List (List Char)} (hne : [] ∉ before)
    (left right : List Char) :
    Border (before ++ after) (before.flatten ++ left) right ↔ Border after left right := by
  constructor
  · rintro ⟨first, more, hps, hfirst, hmore⟩
    obtain ⟨mid, -, hafter, hmid⟩ := exists_append_of_flatten hps hne hfirst
    exact ⟨mid, more, hafter, hmid, hmore⟩
  · rintro ⟨first, more, rfl, hfirst, hmore⟩
    exact ⟨before ++ first, more, by simp, by simp [hfirst], hmore⟩

theorem border_cons {piece : List Char} (hne : piece ≠ []) (rest : List (List Char))
    (left right : List Char) :
    Border (piece :: rest) (piece ++ left) right ↔ Border rest left right := by
  have hone : [] ∉ [piece] := by simpa using hne.symm
  have hborder := @border_append [piece] rest hone left right
  rwa [List.flatten_singleton] at hborder

/-- No border lies inside the first piece. -/
theorem not_border_of_length_lt {piece left : List Char} (rest : List (List Char))
    (right : List Char) (hpos : 0 < left.length) (hlt : left.length < piece.length) :
    ¬ Border (piece :: rest) left right := by
  rintro ⟨before, after, hps, rfl, -⟩
  rcases before with - | ⟨first, before⟩
  · simp at hpos
  · obtain ⟨rfl, -⟩ := List.cons.inj hps
    rw [List.flatten_cons, List.length_append] at hlt
    omega

/-- A border lies before the first number of a run. -/
theorem Munched.border_of_isNumber {ps : List (List Char)} (h : Munched ps)
    {left right : List Char} {x : Char} (htext : ps.flatten = left ++ x :: right)
    (hx : isNumber x = true) (hleft : Text.EndsOutside isNumber left) :
    Border ps left (x :: right) := by
  induction h generalizing left with
  | nil => simp at htext
  | @cons piece rest longest more ih =>
      have hne := longest.isMatch.ne_nil
      rw [List.flatten_cons] at htext
      rcases List.append_eq_append_iff.mp htext with ⟨mid, rfl, hrest⟩ | ⟨mid, rfl, hrest⟩
      · -- the piece stands on the left
        exact (border_cons hne rest mid (x :: right)).mpr (ih hrest hleft.of_append)
      · rcases mid with - | ⟨z, mid⟩
        · exact ⟨[left ++ []], rest, rfl, by simp, hrest.symm⟩
        · -- the piece has the number in it, so nothing of it is on the left
          obtain ⟨rfl, -⟩ := List.cons.inj hrest
          obtain ⟨hall, -⟩ := longest.numbers (by simp) hx
          rcases List.eq_nil_or_concat left with rfl | ⟨front, w, rfl⟩
          · rw [hrest]
            exact border_nil _
          · exact absurd (hall w (by simp)) (hleft w (by simp))

/-- A text of numbers that begins another one is all of it, or the other goes on. -/
theorem exists_append_of_numbers {piece rest run right : List Char}
    (h : piece ++ rest = run ++ right) (hpiece : ∀ c ∈ piece, isNumber c = true)
    (hright : Text.BeginsOutside isNumber right) :
    ∃ more, run = piece ++ more ∧ rest = more ++ right := by
  rcases List.append_eq_append_iff.mp h with hmore | ⟨mid, rfl, hmid⟩
  · exact hmore
  · rcases mid with - | ⟨z, mid⟩
    · exact ⟨[], by simp, hmid.symm⟩
    · exact absurd (hpiece z (by simp)) (hright z (by simp [hmid]))

/-- **A run of numbers is cut after every third**, and behind the last one. -/
theorem Munched.border_iff {ps : List (List Char)} (h : Munched ps) {run right : List Char}
    (htext : ps.flatten = run ++ right) (hrun : ∀ c ∈ run, isNumber c = true)
    (hright : Text.BeginsOutside isNumber right) {k : Nat} (hk : k ≤ run.length) :
    Border ps (run.take k) (run.drop k ++ right) ↔ 3 ∣ k ∨ k = run.length := by
  have hstart : Border ps (run.take 0) (run.drop 0 ++ right) := htext ▸ border_nil ps
  induction h generalizing run k with
  | nil =>
      obtain ⟨rfl, -⟩ := List.append_eq_nil_iff.mp htext.symm
      obtain rfl : k = 0 := by simpa using hk
      simpa using hstart
  | @cons piece rest longest more ih =>
      rcases Nat.eq_zero_or_pos k with rfl | hpos
      · simpa using hstart
      -- the first piece begins with a number, so it is numbers only
      have hne := longest.isMatch.ne_nil
      obtain ⟨x, hx⟩ : ∃ x, x ∈ piece ∧ isNumber x = true := by
        obtain ⟨x, piece', rfl⟩ := List.exists_cons_of_ne_nil hne
        obtain ⟨y, run', rfl⟩ := List.exists_cons_of_length_pos (Nat.lt_of_lt_of_le hpos hk)
        obtain ⟨rfl, -⟩ := List.cons.inj htext
        exact ⟨x, by simp, hrun x (by simp)⟩
      obtain ⟨hall, hthree⟩ := longest.numbers hx.1 hx.2
      obtain ⟨tail, rfl, hrest⟩ := exists_append_of_numbers htext hall hright
      rw [List.forall_mem_append] at hrun
      rw [List.length_append] at hk ⊢
      by_cases hlt : k < piece.length
      · have hlength : ((piece ++ tail).take k).length = k := by
          rw [List.length_take, List.length_append]
          omega
        have hinside := not_border_of_length_lt rest ((piece ++ tail).drop k ++ right)
          (hlength.symm ▸ hpos) (hlength.symm ▸ hlt)
        constructor
        · exact fun hborder => absurd hborder hinside
        · omega
      · obtain ⟨j, rfl⟩ := Nat.exists_eq_add_of_le (Nat.le_of_not_lt hlt)
        have hj : j ≤ tail.length := by omega
        have hlater := ih hrest hrun.2 hj (hrest ▸ border_nil rest)
        rw [List.take_length_add_append, List.drop_length_add_append, border_cons hne]
        refine hlater.trans ?_
        rcases hthree with hlength | ⟨-, hbehind⟩
        · omega
        · -- no number is left
          rcases tail with - | ⟨z, tail⟩
          · simp at hk ⊢
            omega
          · rw [hrest] at hbehind
            exact absurd (hrun.2 z (by simp)) (hbehind z rfl)

/-- **Pieces respect the classes of characters.**  They are what is read off the spans of a
lexer that takes the longest match wherever it stands.  They are not empty and put together
they are the text, as from any spans in order; and each is the longest match of a pattern at
its place.  No border lies between two letters.  A run of numbers begins and ends at borders, and
has one inside after every third number.  In a piece nothing but white space follows a line
break. -/
theorem pieces_respect_classes (text : List Char) :
    ((∃ spans, Lexed 0 text spans) ∧
      ∀ spans, Lexed 0 text spans → collect 0 text spans = pieces text) ∧
    (∀ spans, InOrder 0 spans →
      [] ∉ collect 0 text spans ∧ (collect 0 text spans).flatten = text) ∧
    ([] ∉ pieces text ∧ (pieces text).flatten = text) ∧
    (∀ before piece after, pieces text = before ++ piece :: after →
      Match piece ∧ ∀ other, Match other → other <+: piece ++ after.flatten →
        other.length ≤ piece.length) ∧
    (∀ left x y right, text = left ++ x :: y :: right → isLetter x = true →
      isLetter y = true → ¬ Border (pieces text) (left ++ [x]) (y :: right)) ∧
    (∀ left run right, text = left ++ run ++ right → run ≠ [] →
      (∀ c ∈ run, isNumber c = true) → Text.EndsOutside isNumber left →
      Text.BeginsOutside isNumber right → ∀ k ≤ run.length,
      (Border (pieces text) (left ++ run.take k) (run.drop k ++ right) ↔
        3 ∣ k ∨ k = run.length)) ∧
    ∀ piece ∈ pieces text, ∀ x y, [x, y] <:+: piece → x = '\r' ∨ x = '\n' →
      isBlank y = true := by
  have hmunched := munched_pieces text
  refine ⟨⟨exists_lexed 0 text, fun spans => collect_eq_pieces⟩,
    fun spans hspans => collect_cuts hspans text, ⟨hmunched.nil_notMem, flatten_pieces text⟩,
    ?_, ?_, ?_, ?_⟩
  · intro before piece after h
    rw [h] at hmunched
    exact ⟨hmunched.longest.isMatch, hmunched.longest.length_le⟩
  · rintro left x y right - hx hy ⟨before, after, h, hleft, hright⟩
    rcases List.eq_nil_or_concat before with rfl | ⟨before, piece, rfl⟩
    · simp at hleft
    -- the last piece on the left ends with the first letter
    rw [h, List.concat_eq_append, List.append_assoc] at hmunched
    have hlongest : Longest piece after.flatten := hmunched.longest
    obtain ⟨front, z, rfl⟩ := (List.eq_nil_or_concat piece).resolve_left hlongest.isMatch.ne_nil
    rw [List.concat_eq_append, List.concat_eq_append, List.flatten_append, List.flatten_singleton,
      ← List.append_assoc] at hleft
    obtain ⟨-, hlast⟩ := List.append_inj' hleft rfl
    obtain rfl : z = x := by simpa using hlast
    rw [List.concat_eq_append, hright] at hlongest
    exact hlongest.not_letter (PieceClass.of_eq_letter_iff.mpr hx)
      (PieceClass.of_eq_letter_iff.mpr hy)
  · intro left run right htext hne hrun hleft hright k hk
    obtain ⟨x, xs, hxs⟩ := List.exists_cons_of_ne_nil hne
    have hflatten : (pieces text).flatten = left ++ x :: (xs ++ right) := by
      rw [flatten_pieces, htext, hxs, List.append_assoc]
      rfl
    obtain ⟨before, after, h, rfl, hafter⟩ :=
      hmunched.border_of_isNumber hflatten (hrun x (by simp [hxs])) hleft
    have hbefore : [] ∉ before := by
      intro hnil
      apply hmunched.nil_notMem
      rw [h]
      exact List.mem_append_left _ hnil
    rw [h] at hmunched ⊢
    rw [border_append hbefore]
    apply hmunched.of_append.border_iff _ hrun hright hk
    rw [hafter, hxs]
    rfl
  · intro piece hpiece x y hxy hbreak
    obtain ⟨before, after, h⟩ := List.append_of_mem hpiece
    rw [h] at hmunched
    exact PieceClass.isBlank_of_mem
      (hmunched.longest.isMatch.blank_of_lineBreak hxy (PieceClass.of_eq_lineBreak_iff.mpr hbreak))

/-- Two letters, four numbers, white space and a letter. -/
def mixed : List Char := ['a', 'b', '1', '2', '3', '4', '\n', ' ', 'c']

theorem pieces_mixed :
    pieces mixed = [['a', 'b'], ['1', '2', '3'], ['4'], ['\n', ' '], ['c']] := by
  have hword : matchLength mixed = 2 := by decide +kernel
  have hthree : matchLength ['1', '2', '3', '4', '\n', ' ', 'c'] = 3 := by decide +kernel
  have hone : matchLength ['4', '\n', ' ', 'c'] = 1 := by decide +kernel
  have hspace : matchLength ['\n', ' ', 'c'] = 2 := by decide +kernel
  have hlast : matchLength ['c'] = 1 := by decide +kernel
  rw [mixed] at hword ⊢
  simp [pieces_cons, pieces_nil, hword, hthree, hone, hspace, hlast]

theorem pieces_respect_classes_mixed :
    pieces mixed = [['a', 'b'], ['1', '2', '3'], ['4'], ['\n', ' '], ['c']] ∧
    ¬ Border (pieces mixed) ['a'] ['b', '1', '2', '3', '4', '\n', ' ', 'c'] ∧
    Border (pieces mixed) ['a', 'b', '1', '2', '3'] ['4', '\n', ' ', 'c'] ∧
    ¬ Border (pieces mixed) ['a', 'b', '1', '2'] ['3', '4', '\n', ' ', 'c'] ∧
    isBlank ' ' = true := by
  obtain ⟨-, -, -, -, hletters, hnumbers, hbreaks⟩ := pieces_respect_classes mixed
  have hleft : Text.EndsOutside isNumber ['a', 'b'] := by
    rintro c ⟨⟩
    decide +kernel
  have hright : Text.BeginsOutside isNumber ['\n', ' ', 'c'] := by
    rintro c ⟨⟩
    decide +kernel
  have hall : ∀ c ∈ ['1', '2', '3', '4'], isNumber c = true :=
    List.all_eq_true.mp (by decide +kernel)
  have hrun := hnumbers ['a', 'b'] ['1', '2', '3', '4'] ['\n', ' ', 'c'] rfl (by decide) hall
    hleft hright
  refine ⟨pieces_mixed, ?_, (hrun 3 (by decide)).mpr (by decide), ?_, ?_⟩
  · exact hletters [] 'a' 'b' _ rfl (by decide +kernel) (by decide +kernel)
  · exact fun hborder => absurd ((hrun 2 (by decide)).mp hborder) (by decide)
  · exact hbreaks ['\n', ' '] (by simp [pieces_mixed]) '\n' ' ' List.infix_rfl (.inr rfl)

end Pretoken

end TokenAlignment
