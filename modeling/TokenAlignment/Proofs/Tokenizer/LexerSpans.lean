/-
TokenAlignment/Proofs/Tokenizer/LexerSpans.lean

Pieces from the spans of a lexer.

A lexer tells where its matches stand, and where nothing matched, in bytes.  The pieces are
read off these spans one after the other: a span that ends inside a character is left to the
next one, and text between two spans is a piece of its own.  So for any spans in order the
pieces are a cut of the text (`nil_notMem_collect`, `flatten_collect`).

A lexer that takes the longest match wherever it stands matches everywhere.  Then nothing is
left over, and

    collect 0 text spans  =  pieces text

for its spans, because two longest matches at one place are the same.

Main results: `munched_pieces`, `collect_eq_pieces`.
-/
import TokenAlignment.Proofs.Text.Slice
import TokenAlignment.Proofs.Tokenizer.Patterns
import TokenAlignment.Proofs.Tokenizer.PieceTable

namespace TokenAlignment

namespace Pretoken

/-! ### The pieces, one after the other -/

/-- The pieces found so far stay in front. -/
theorem piecesOnto_append (done found : List (List Char)) (text : List Char) :
    piecesOnto (done ++ found) text = found.reverse ++ piecesOnto done text := by
  fun_induction piecesOnto done text with
  | case1 done => rw [piecesOnto, List.reverse_append]
  | case2 done c cs more ih =>
      rw [piecesOnto]
      exact ih

theorem pieces_nil : pieces [] = [] := by
  rw [pieces, piecesOnto, List.reverse_nil]

/-- The first piece is the longest match. -/
theorem pieces_cons (c : Char) (cs : List Char) :
    pieces (c :: cs) = (c :: cs).take (matchLength (c :: cs)) ::
      pieces ((c :: cs).drop (matchLength (c :: cs))) := by
  obtain ⟨more, hmore⟩ := Nat.exists_eq_succ_of_ne_zero (Nat.ne_of_gt (matchLength_pos c cs))
  rw [pieces, piecesOnto, hmore, Nat.succ_sub_one, List.take_succ_cons, List.drop_succ_cons]
  exact piecesOnto_append [] [c :: cs.take more] (cs.drop more)

theorem Match.ne_nil {piece : List Char} (h : Match piece) : piece ≠ [] := by
  cases h with
  | contraction rest => exact List.cons_ne_nil _ _
  | letters one other nonempty all => simp [nonempty]
  | digits nonempty three all => exact nonempty
  | punctuation space nonempty all behind => simp [nonempty]
  | newline all some =>
      obtain ⟨c, hc, -⟩ := some
      exact List.ne_nil_of_mem hc
  | whitespace nonempty all => exact nonempty

/-- A match than which none is longer at its place. -/
structure Longest (piece rest : List Char) : Prop where
  isMatch : Match piece
  length_le : ∀ other, Match other → other <+: piece ++ rest → other.length ≤ piece.length

theorem longest_take (c : Char) (cs : List Char) :
    Longest ((c :: cs).take (matchLength (c :: cs))) ((c :: cs).drop (matchLength (c :: cs))) := by
  refine ⟨match_take c cs, fun other hother hprefix => ?_⟩
  rw [List.take_append_drop] at hprefix
  rw [List.length_take]
  exact Nat.le_min.mpr ⟨length_le_matchLength hother hprefix, hprefix.length_le⟩

/-- Two longest matches at one place are the same. -/
theorem Longest.unique {piece piece' rest rest' : List Char} (h : Longest piece rest)
    (h' : Longest piece' rest') (htext : piece ++ rest = piece' ++ rest') :
    piece = piece' ∧ rest = rest' := by
  have hle : piece'.length ≤ piece.length := by
    apply h.length_le _ h'.isMatch
    rw [htext]
    exact List.prefix_append ..
  have hle' : piece.length ≤ piece'.length := by
    apply h'.length_le _ h.isMatch
    rw [← htext]
    exact List.prefix_append ..
  exact List.append_inj htext (Nat.le_antisymm hle' hle)

/-- The longest match is the first piece. -/
theorem Longest.pieces_append {piece rest : List Char} (h : Longest piece rest) :
    pieces (piece ++ rest) = piece :: pieces rest := by
  obtain ⟨c, cs, htext⟩ : ∃ c cs, piece ++ rest = c :: cs :=
    List.exists_cons_of_ne_nil (by simp [h.isMatch.ne_nil])
  rw [htext, pieces_cons]
  obtain ⟨htake, hdrop⟩ := (longest_take c cs).unique h (by rw [List.take_append_drop, htext])
  rw [htake, hdrop]

/-- Every piece is the longest match where it starts. -/
inductive Munched : List (List Char) → Prop
  | nil : Munched []
  | cons {piece : List Char} {rest : List (List Char)} (longest : Longest piece rest.flatten)
    (more : Munched rest) : Munched (piece :: rest)

/-- **The pieces of a text are the longest matches.** -/
theorem munched_pieces (text : List Char) : Munched (pieces text) := by
  rcases text with - | ⟨c, cs⟩
  · rw [pieces_nil]
    exact .nil
  · have hpos := matchLength_pos c cs
    rw [pieces_cons]
    refine .cons ?_ (munched_pieces _)
    rw [flatten_pieces]
    exact longest_take c cs
termination_by text.length
decreasing_by
  rw [List.length_drop, List.length_cons]
  omega

theorem Munched.of_append {before after : List (List Char)} (h : Munched (before ++ after)) :
    Munched after := by
  induction before with
  | nil => exact h
  | cons piece before ih =>
      cases h with
      | cons longest more => exact ih more

/-- A piece of the text is the longest match. -/
theorem Munched.longest {before after : List (List Char)} {piece : List Char}
    (h : Munched (before ++ piece :: after)) : Longest piece after.flatten := by
  cases h.of_append with
  | cons longest more => exact longest

theorem Munched.nil_notMem {ps : List (List Char)} (h : Munched ps) : [] ∉ ps := by
  intro hnil
  obtain ⟨before, after, rfl⟩ := List.append_of_mem hnil
  exact h.longest.isMatch.ne_nil rfl

/-! ### Spans -/

/-- The text cut behind its first `n` bytes, if no character is cut there. -/
def cutAt? (n : Nat) : List Char → Option (List Char × List Char)
  | [] => if n = 0 then some ([], []) else none
  | c :: cs =>
    if n = 0 then some ([], c :: cs)
    else if n < Utf8.width c then none
    else (cutAt? (n - Utf8.width c) cs).map fun cut => (c :: cut.1, cut.2)

/-- The pieces of the text `rest`, which begins at the byte `last`, from spans that a lexer
gives for it: each from its first byte to behind its last. -/
def collect (last : Nat) (rest : List Char) : (spans : List (Nat × Nat)) → List (List Char)
  | [] => if rest.isEmpty then [] else [rest]
  | (start, stop) :: spans =>
    match cutAt? (stop - last) rest with
    | none => collect last rest spans
    | some (front, back) =>
      match if last < start then cutAt? (start - last) front else none with
      | some (skipped, piece) => skipped :: piece :: collect stop back spans
      | none => front :: collect stop back spans

theorem cutAt?_append (front back : List Char) :
    cutAt? (Utf8.encode front).length (front ++ back) = some (front, back) := by
  induction front with
  | nil =>
      cases back with
      | nil => rfl
      | cons c cs => rfl
  | cons c front ih =>
      have hpos := Utf8.width_pos c
      rw [Utf8.length_encode_cons, List.cons_append, cutAt?, if_neg (by omega),
        if_neg (by omega), Nat.add_sub_cancel_left, ih]
      rfl

theorem cutAt?_eq_some {n : Nat} {text front back : List Char}
    (h : cutAt? n text = some (front, back)) :
    text = front ++ back ∧ (Utf8.encode front).length = n := by
  induction text generalizing n front with
  | nil =>
      rw [cutAt?] at h
      split at h
      · rename_i hzero
        cases h
        exact ⟨rfl, hzero.symm⟩
      · cases h
  | cons c cs ih =>
      rw [cutAt?] at h
      split at h
      · rename_i hzero
        cases h
        exact ⟨rfl, hzero.symm⟩
      split at h
      · cases h
      · obtain ⟨⟨front', back'⟩, hcut, heq⟩ := Option.map_eq_some_iff.mp h
        cases heq
        obtain ⟨rfl, hlength⟩ := ih hcut
        refine ⟨rfl, ?_⟩
        rw [Utf8.length_encode_cons, hlength]
        omega

/-- The spans are in order and not empty, and none begins before the byte `last`. -/
inductive InOrder : Nat → List (Nat × Nat) → Prop
  | nil {last : Nat} : InOrder last []
  | cons {last start stop : Nat} {spans : List (Nat × Nat)} (behind : last ≤ start)
    (nonempty : start < stop) (rest : InOrder stop spans) :
    InOrder last ((start, stop) :: spans)

theorem InOrder.of_le {last last' : Nat} {spans : List (Nat × Nat)} (h : InOrder last spans)
    (hle : last' ≤ last) : InOrder last' spans := by
  cases h with
  | nil => exact .nil
  | cons behind nonempty rest => exact .cons (hle.trans behind) nonempty rest

theorem ne_nil_of_length_encode_pos {text : List Char} (h : 0 < (Utf8.encode text).length) :
    text ≠ [] := by
  rintro rfl
  cases h

/-- **Whatever a lexer finds**, the pieces are not empty, and put together they are the
text. -/
theorem collect_cuts {last : Nat} {spans : List (Nat × Nat)} (h : InOrder last spans)
    (rest : List Char) :
    [] ∉ collect last rest spans ∧ (collect last rest spans).flatten = rest := by
  induction spans generalizing last rest with
  | nil =>
      rw [collect]
      split
      · rename_i hempty
        rw [List.isEmpty_iff.mp hempty]
        exact ⟨by simp, rfl⟩
      · rename_i hne
        have hne' : rest ≠ [] := mt List.isEmpty_iff.mpr hne
        exact ⟨by simp [hne'.symm], by simp⟩
  | cons span spans ih =>
      cases h with
      | @cons _ start stop _ behind nonempty more =>
          rw [collect]
          rcases hcut : cutAt? (stop - last) rest with - | ⟨front, back⟩
          · -- the span is left to the next one
            exact ih (more.of_le (behind.trans (Nat.le_of_lt nonempty))) rest
          obtain ⟨rfl, hfront⟩ := cutAt?_eq_some hcut
          obtain ⟨hnil, hflatten⟩ := ih more back
          dsimp only
          split
          · -- something before the span did not match
            rename_i skipped piece hskip
            split at hskip
            · obtain ⟨rfl, hskipped⟩ := cutAt?_eq_some hskip
              rw [Utf8.encode_append, List.length_append] at hfront
              have hne : skipped ≠ [] := ne_nil_of_length_encode_pos (by omega)
              have hne' : piece ≠ [] := ne_nil_of_length_encode_pos (by omega)
              exact ⟨by simp [hne.symm, hne'.symm, hnil], by simp [hflatten]⟩
            · cases hskip
          · have hne : front ≠ [] := ne_nil_of_length_encode_pos (by omega)
            exact ⟨by simp [hne.symm, hnil], by simp [hflatten]⟩

/-- The spans of a lexer that takes the longest match wherever it stands. -/
inductive Lexed : Nat → List Char → List (Nat × Nat) → Prop
  | done {offset : Nat} : Lexed offset [] []
  | step {offset : Nat} {piece rest : List Char} {spans : List (Nat × Nat)}
    (longest : Longest piece rest)
    (more : Lexed (offset + (Utf8.encode piece).length) rest spans) :
    Lexed offset (piece ++ rest) ((offset, offset + (Utf8.encode piece).length) :: spans)

/-- **A lexer that takes the longest match wherever it stands gives the pieces.** -/
theorem collect_eq_pieces {offset : Nat} {text : List Char} {spans : List (Nat × Nat)}
    (h : Lexed offset text spans) : collect offset text spans = pieces text := by
  induction h with
  | done =>
      rw [collect, pieces_nil]
      rfl
  | @step offset piece rest spans longest more ih =>
      -- the span begins where the last one ended, and cuts no character
      rw [collect, Nat.add_sub_cancel_left, cutAt?_append]
      dsimp only
      rw [if_neg (Nat.lt_irrefl offset), longest.pieces_append, ih]

/-- There is such a lexer. -/
theorem exists_lexed (offset : Nat) (text : List Char) : ∃ spans, Lexed offset text spans := by
  have hmunched := munched_pieces text
  rw [← flatten_pieces text]
  generalize pieces text = ps at hmunched
  induction hmunched generalizing offset with
  | nil => exact ⟨[], .done⟩
  | @cons piece rest longest more ih =>
      obtain ⟨spans, hspans⟩ := ih (offset + (Utf8.encode piece).length)
      exact ⟨_, .step longest hspans⟩

end Pretoken

end TokenAlignment
