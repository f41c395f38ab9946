/-
TokenAlignment/Proofs/Identifier/Conservation.lean

The splitter conserves text.

A cut of a text is a list of nonempty pieces that give the text when put together.  Both
passes of the splitter cut: the one by case whatever its offsets are, the one by known
words because a segmentation steps through the whole word.  So the pieces of an identifier
stand in it, in order and side by side, with nothing between them but characters that are
neither letters nor numbers (`Placed`), and

    (split text).flatten  =  the letters and numbers of the text.

Main results: `exists_placed_split`, `flatten_split`, and with the offsets of all cuts
`split_conserves`.
-/
import TokenAlignment.Proofs.Identifier.CaseCuts
import TokenAlignment.Proofs.Identifier.KnownWords
import TokenAlignment.Proofs.Identifier.Segments
import TokenAlignment.Proofs.Text.Slice

namespace TokenAlignment

/-! ### Cuts -/

/-- The pieces are not empty and put together give the text. -/
def IsCut (pieces : List (List Char)) (text : List Char) : Prop :=
  [] ∉ pieces ∧ pieces.flatten = text

namespace IsCut

theorem nil : IsCut [] [] :=
  ⟨by simp, rfl⟩

theorem singleton {text : List Char} (h : text ≠ []) : IsCut [text] text :=
  ⟨by simpa using h.symm, by simp⟩

theorem append {p q : List (List Char)} {a b : List Char} (hp : IsCut p a) (hq : IsCut q b) :
    IsCut (p ++ q) (a ++ b) := by
  refine ⟨?_, by rw [List.flatten_append, hp.2, hq.2]⟩
  rw [List.mem_append]
  rintro (hmem | hmem)
  · exact hp.1 hmem
  · exact hq.1 hmem

/-- The pieces of a cut may be cut further. -/
theorem flatMap {pieces : List (List Char)} {text : List Char} (h : IsCut pieces text)
    {cut : List Char → List (List Char)} (hcut : ∀ piece ≠ [], IsCut (cut piece) piece) :
    IsCut (pieces.flatMap cut) text := by
  obtain ⟨hne, rfl⟩ := h
  induction pieces with
  | nil => exact .nil
  | cons piece pieces ih =>
      rw [List.mem_cons, not_or] at hne
      rw [List.flatMap_cons, List.flatten_cons]
      exact (hcut piece (Ne.symm hne.1)).append (ih hne.2)

end IsCut

/-! ### Runs -/

namespace Text

variable {p : Char → Bool}

theorem runsOnto_eq (p : Char → Bool) (done : List (List Char)) (run text : List Char) :
    runsOnto p done run text = done.reverse ++ runsOnto p [] run text := by
  have hpush (done : List (List Char)) (run : List Char) :
      pushPiece done run = pushPiece [] run ++ done := by
    cases run <;> rfl
  induction text generalizing done run with
  | nil => rw [runsOnto, runsOnto, hpush, List.reverse_append]
  | cons c text ih =>
      rw [runsOnto, runsOnto]
      split
      · exact ih done (c :: run)
      · rw [ih (pushPiece done run), ih (pushPiece [] run), hpush, List.reverse_append,
          List.append_assoc]

theorem runsOnto_append_cons (run a : List Char) {c : Char} (hc : ¬ p c = true) (b : List Char) :
    runsOnto p [] run (a ++ c :: b) = runsOnto p [] run a ++ runs p b := by
  induction a generalizing run with
  | nil =>
      simp only [List.nil_append, runsOnto, if_neg hc]
      exact runsOnto_eq p (pushPiece [] run) [] b
  | cons x a ih =>
      rw [List.cons_append, runsOnto, runsOnto]
      split
      · exact ih (x :: run)
      · rw [runsOnto_eq, runsOnto_eq p (pushPiece [] run), ih, List.append_assoc]

/-- A character outside the class separates runs. -/
theorem runs_append_cons (a : List Char) {c : Char} (hc : ¬ p c = true) (b : List Char) :
    runs p (a ++ c :: b) = runs p a ++ runs p b :=
  runsOnto_append_cons [] a hc b

/-- A text of one class is its own run. -/
theorem runs_of_all {text : List Char} (hne : text ≠ []) (h : ∀ c ∈ text, p c = true) :
    runs p text = [text] := by
  have honto (run : List Char) :
      runsOnto p [] run text = (pushPiece [] (text.reverse ++ run)).reverse := by
    clear hne
    induction text generalizing run with
    | nil => rfl
    | cons c text ih =>
        rw [List.forall_mem_cons] at h
        rw [runsOnto, if_pos h.1, ih h.2, List.reverse_cons, List.append_assoc]
        rfl
  rw [runs, honto, List.append_nil, pushPiece, if_neg (by simpa using hne),
    List.reverse_reverse]
  rfl

theorem isCut_runs_of_all {text : List Char} (h : ∀ c ∈ text, p c = true) :
    IsCut (runs p text) text := by
  rcases text with - | ⟨c, text⟩
  · exact .nil
  · rw [runs_of_all (List.cons_ne_nil c text) h]
    exact .singleton (List.cons_ne_nil c text)

end Text

/-! ### The two passes -/

namespace WordSplitter

variable {κ : Type}

theorem isCut_piecesAt (start : Nat) (text : List Char) (cuts : List Nat) :
    IsCut (piecesAt start text cuts) text := by
  induction cuts generalizing start text with
  | nil =>
      rw [piecesAt]
      split
      · rename_i hempty
        rw [List.isEmpty_iff.mp hempty]
        exact .nil
      · rename_i hne
        exact .singleton (mt List.isEmpty_iff.mpr hne)
  | cons cut cuts ih =>
      have hrest := ih cut (text.drop (cut - start))
      have htext := List.take_append_drop (cut - start) text
      rw [piecesAt]
      split
      · -- the cut lies at the start of the text or before it, and takes nothing
        rename_i hempty
        rw [List.isEmpty_iff.mp hempty, List.nil_append] at htext
        rw [htext] at hrest ⊢
        exact hrest
      · rename_i hne
        have hpiece := IsCut.singleton (mt List.isEmpty_iff.mpr hne)
        have hall := hpiece.append hrest
        rwa [List.singleton_append, htext] at hall

/-- The ranges of steps cut the word up to the offset that they lead to. -/
theorem isCut_of_steps {lex : Lexicon κ} {lower : Array Char} {word : List Char} {stop : Nat}
    {ranges : List (Nat × Nat)} (h : lex.Steps lower stop ranges) (hstop : stop ≤ word.length) :
    IsCut (ranges.reverse.map fun range => word.extract range.1 range.2) (word.take stop) := by
  induction h with
  | start => exact .nil
  | @step start stop ranges before forward known ih =>
      have hword : word.take stop = word.take start ++ word.extract start stop := by
        rw [List.extract_eq_take_drop, ← List.take_add, Nat.add_sub_of_le (Nat.le_of_lt forward)]
      have hne : word.extract start stop ≠ [] := by
        rw [List.extract_eq_take_drop]
        simp only [ne_eq, List.take_eq_nil_iff, List.drop_eq_nil_iff]
        omega
      rw [List.reverse_cons, List.map_append, hword]
      exact (ih (by omega)).append (.singleton hne)

variable [Add κ] [LT κ] [DecidableLT κ] [OfNat κ 0] (s : WordSplitter κ)

theorem isCut_refine {word : List Char} (hne : word ≠ []) : IsCut (s.refine word) word := by
  rw [refine]
  split
  · exact .singleton hne
  · split
    · rename_i ranges hsome
      have hsteps := Lexicon.steps_of_segment?_eq_some hsome
      rw [List.length_map] at hsteps
      have hcut := isCut_of_steps hsteps (Nat.le_refl word.length)
      rwa [List.reverse_reverse, List.take_length] at hcut
    · exact .singleton hne

theorem isCut_split_of_all {text : List Char} (h : ∀ c ∈ text, s.tests.isWord c = true) :
    IsCut (s.split text) text := by
  apply (Text.isCut_runs_of_all h).flatMap
  intro run _
  apply (isCut_piecesAt 0 run _).flatMap
  intro word hword
  exact s.isCut_refine hword

/-- A separator separates words. -/
theorem split_append_cons (a : List Char) {c : Char} (hc : ¬ s.tests.isWord c = true)
    (b : List Char) : s.split (a ++ c :: b) = s.split a ++ s.split b := by
  rw [split, Text.runs_append_cons a hc, List.flatMap_append]
  rfl

end WordSplitter

/-! ### Where the pieces stand -/

/-- Pieces of the text that begins at `offset`, each with its bytes: they stand in order,
are not empty, and hold all characters of the class and no other. -/
inductive Placed (isWord : Char → Bool) : Nat → List Char → List (List Char × Span) → Prop
  | done {offset : Nat} : Placed isWord offset [] []
  | skip {offset : Nat} {c : Char} {text : List Char} {placed : List (List Char × Span)}
    (separator : ¬ isWord c = true)
    (rest : Placed isWord (offset + Utf8.width c) text placed) :
    Placed isWord offset (c :: text) placed
  | piece {offset : Nat} {piece text : List Char} {placed : List (List Char × Span)}
    (nonempty : piece ≠ []) (word : ∀ c ∈ piece, isWord c = true)
    (rest : Placed isWord (offset + (Utf8.encode piece).length) text placed) :
    Placed isWord offset (piece ++ text)
      ((piece, ⟨offset, offset + (Utf8.encode piece).length, Nat.le_add_right ..⟩) :: placed)

namespace Placed

variable {isWord : Char → Bool} {offset : Nat} {text : List Char}
  {placed : List (List Char × Span)}

/-- The pieces are the text without what is outside the class. -/
theorem flatten (h : Placed isWord offset text placed) :
    (placed.map Prod.fst).flatten = text.filter isWord := by
  induction h with
  | done => rfl
  | skip separator rest ih => rw [ih, List.filter_cons_of_neg separator]
  | piece nonempty word rest ih =>
      rw [List.map_cons, List.flatten_cons, ih, List.filter_append,
        List.filter_eq_self.mpr word]

theorem ne_nil (h : Placed isWord offset text placed) {x : List Char × Span}
    (hx : x ∈ placed) : x.1 ≠ [] := by
  induction h with
  | done => cases hx
  | skip separator rest ih => exact ih hx
  | piece nonempty word rest ih =>
      rcases List.mem_cons.mp hx with rfl | hx
      · exact nonempty
      · exact ih hx

/-- Every piece takes bytes, all of them in the text. -/
theorem bounds (h : Placed isWord offset text placed) {x : List Char × Span}
    (hx : x ∈ placed) :
    offset ≤ x.2.start ∧ x.2.start < x.2.stop ∧
      x.2.stop ≤ offset + (Utf8.encode text).length := by
  induction h with
  | done => cases hx
  | skip separator rest ih =>
      have := ih hx
      rw [Utf8.length_encode_cons]
      omega
  | @piece offset piece text placed nonempty word rest ih =>
      rw [Utf8.encode_append, List.length_append]
      rcases List.mem_cons.mp hx with rfl | hx
      · have := List.length_pos_iff.mpr nonempty
        have := Utf8.length_le_length_encode piece
        dsimp only
        omega
      · have := ih hx
        omega

theorem length_le (h : Placed isWord offset text placed) : placed.length ≤ text.length := by
  induction h with
  | done => exact Nat.le_refl _
  | skip separator rest ih => exact Nat.le_succ_of_le ih
  | piece nonempty word rest ih =>
      have := List.length_pos_iff.mpr nonempty
      rw [List.length_cons, List.length_append]
      omega

/-- The pieces are in order. -/
theorem pairwise (h : Placed isWord offset text placed) :
    placed.Pairwise fun x y => x.2.stop ≤ y.2.start := by
  induction h with
  | done => exact .nil
  | skip separator rest ih => exact ih
  | piece nonempty word rest ih =>
      exact List.pairwise_cons.mpr ⟨fun x hx => (rest.bounds hx).1, ih⟩

/-- The pieces of a cut stand side by side. -/
theorem cut_append {pieces : List (List Char)} {run : List Char} (h : IsCut pieces run)
    (hrun : ∀ c ∈ run, isWord c = true)
    (hrest : Placed isWord (offset + (Utf8.encode run).length) text placed) :
    ∃ more, Placed isWord offset (run ++ text) more ∧
      more.map Prod.fst = pieces ++ placed.map Prod.fst := by
  obtain ⟨hne, rfl⟩ := h
  induction pieces generalizing offset with
  | nil => exact ⟨placed, hrest, rfl⟩
  | cons piece pieces ih =>
      rw [List.mem_cons, not_or] at hne
      rw [List.flatten_cons, List.forall_mem_append] at hrun
      rw [List.flatten_cons, Utf8.encode_append, List.length_append, ← Nat.add_assoc] at hrest
      obtain ⟨more, hmore, hpieces⟩ := ih hne.2 hrun.2 hrest
      have hall := Placed.piece (Ne.symm hne.1) hrun.1 hmore
      rw [← List.append_assoc, ← List.flatten_cons] at hall
      exact ⟨_, hall, by rw [List.map_cons, hpieces]; rfl⟩

end Placed

namespace WordSplitter

variable {κ : Type} [Add κ] [LT κ] [DecidableLT κ] [OfNat κ 0] (s : WordSplitter κ)

/-- **The pieces of a text stand in it**, with separators between them. -/
theorem exists_placed_split (offset : Nat) (text : List Char) :
    ∃ placed, Placed s.tests.isWord offset text placed ∧
      placed.map Prod.fst = s.split text := by
  have hword : ∀ c ∈ text.takeWhile s.tests.isWord, s.tests.isWord c = true :=
    List.all_eq_true.mp List.all_takeWhile
  have hrun := s.isCut_split_of_all hword
  have htext := List.takeWhile_append_dropWhile (p := s.tests.isWord) (l := text)
  rcases hdrop : text.dropWhile s.tests.isWord with - | ⟨c, rest⟩
  · -- the text is one run
    rw [hdrop, List.append_nil] at htext
    rw [htext] at hrun hword
    have hdone : Placed s.tests.isWord (offset + (Utf8.encode text).length) [] [] := .done
    obtain ⟨placed, hplaced, hpieces⟩ := Placed.cut_append hrun hword hdone
    rw [List.append_nil] at hplaced
    rw [List.map_nil, List.append_nil] at hpieces
    exact ⟨placed, hplaced, hpieces⟩
  · -- a separator ends the run
    have hc : ¬ s.tests.isWord c = true := by
      have := List.head?_dropWhile_not s.tests.isWord text
      simpa [hdrop] using this
    rw [hdrop] at htext
    have hshort : rest.length < text.length := by
      rw [← htext, List.length_append, List.length_cons]
      omega
    obtain ⟨behind, hbehind, hlater⟩ := exists_placed_split
      (offset + (Utf8.encode (text.takeWhile s.tests.isWord)).length + Utf8.width c) rest
    obtain ⟨placed, hplaced, hpieces⟩ := Placed.cut_append hrun hword (.skip hc hbehind)
    rw [htext] at hplaced
    refine ⟨placed, hplaced, ?_⟩
    rw [hpieces, hlater, ← s.split_append_cons _ hc, htext]
termination_by text.length
decreasing_by exact hshort

/-- **The splitter conserves text.** -/
theorem flatten_split (text : List Char) :
    (s.split text).flatten = text.filter s.tests.isWord := by
  obtain ⟨placed, hplaced, hpieces⟩ := s.exists_placed_split 0 text
  rw [← hpieces, hplaced.flatten]

theorem length_split_le (text : List Char) : (s.split text).length ≤ text.length := by
  obtain ⟨placed, hplaced, hpieces⟩ := s.exists_placed_split 0 text
  rw [← hpieces, List.length_map]
  exact hplaced.length_le

theorem nil_notMem_split (text : List Char) : [] ∉ s.split text := by
  obtain ⟨placed, hplaced, hpieces⟩ := s.exists_placed_split 0 text
  rw [← hpieces]
  intro hnil
  obtain ⟨x, hx, hempty⟩ := List.mem_map.mp hnil
  exact hplaced.ne_nil hx hempty

/-- A text with a letter or a number has words. -/
theorem split_ne_nil {text : List Char} (h : ∃ c ∈ text, s.tests.isWord c = true) :
    s.split text ≠ [] := by
  intro hnone
  obtain ⟨c, hc, hword⟩ := h
  have hletters := s.flatten_split text
  rw [hnone] at hletters
  exact List.ne_nil_of_mem (List.mem_filter.mpr ⟨hc, hword⟩) hletters.symm

/-- **The splitter conserves text and cuts in order**, whatever the classes of characters
and the known words are.  No word is empty, and the words put together are the text without
separators.  The cuts by case lie inside their run and never decrease, and the words of the
run are the slices between them.  Known words that a word is cut into go from its start to
its end, each from where the one before it stops. -/
theorem split_conserves (text : List Char) :
    ([] ∉ s.split text ∧ (s.split text).flatten = text.filter s.tests.isWord) ∧
    (∀ run : List Char,
      let offsets := 0 :: (s.caseCuts run ++ [run.length])
      offsets.Pairwise (· ≤ ·) ∧ (∀ cut ∈ s.caseCuts run, 0 < cut ∧ cut < run.length) ∧
      s.caseWords run
        = ((windows offsets).map fun w => run.extract w.1 w.2).filter (!·.isEmpty)) ∧
    ∀ (word : List Char) (ranges : List (Nat × Nat)),
      s.lexicon.segment? word = some ranges →
      ranges.map Prod.fst ++ [word.length] = 0 :: ranges.map Prod.snd ∧
      ∀ range ∈ ranges, range.1 < range.2 ∧ range.2 ≤ word.length := by
  refine ⟨⟨s.nil_notMem_split text, s.flatten_split text⟩, ?_, ?_⟩
  · intro run
    exact ⟨s.caseCuts_sorted run, fun cut hcut => s.caseCuts_bounds hcut,
      s.caseWords_eq_slices run⟩
  · intro word ranges hranges
    have hsteps := Lexicon.steps_of_segment?_eq_some hranges
    refine ⟨?_, fun range hrange => ?_⟩
    · have htile := hsteps.starts_eq_stops
      rwa [List.reverse_reverse] at htile
    · rw [← List.mem_reverse] at hrange
      exact ⟨(hsteps.of_mem hrange).1, hsteps.stop_le hrange⟩

/-- A splitter to which a digit is a number and upper case. -/
def overlapping : WordSplitter Nat where
  tests := ⟨Char.isAlphanum, fun c => c.isUpper || c.isDigit, Char.isLower, Char.isDigit⟩
  lexicon := .ofRanked (fun _ rank => rank + 1) [['a', 'b'], ['c', 'd'], ['a', 'b', 'c']]

theorem split_conserves_overlapping :
    overlapping.caseCuts ['1', '2', 'b'] = [1, 1] ∧
    overlapping.lexicon.segment? ['a', 'b', 'c', 'd'] = some [(0, 2), (2, 4)] ∧
    [0, 2] ++ [4] = 0 :: [2, 4] ∧
    (overlapping.split ['1', '2', 'b', '_', 'a', 'b', 'c', 'd']).flatten
      = ['1', '2', 'b', 'a', 'b', 'c', 'd'] := by
  have hcuts : overlapping.caseCuts ['1', '2', 'b'] = [1, 1] := by
    simp only [caseCuts, caseCutsFrom, capitalCut, isWords, overlapping, Lexicon.isKnown,
      Std.HashMap.contains_eq_isSome_getElem?, Lexicon.costs_ofRanked, Lexicon.segment?,
      Lexicon.paths, Lexicon.bestTo, Lexicon.extend?]
    decide
  have hsegment : overlapping.lexicon.segment? ['a', 'b', 'c', 'd']
      = some [(0, 2), (2, 4)] := by
    simp only [overlapping, Lexicon.segment?, Lexicon.paths, Lexicon.bestTo, Lexicon.extend?,
      Lexicon.costs_ofRanked]
    decide +kernel
  obtain ⟨⟨-, hflat⟩, -, htile⟩ :=
    overlapping.split_conserves ['1', '2', 'b', '_', 'a', 'b', 'c', 'd']
  exact ⟨hcuts, hsegment, (htile _ _ hsegment).1, hflat⟩

end WordSplitter

end TokenAlignment
