/-
TokenAlignment/Proofs/Identifier/Fixpoint.lean

Words of an identifier that are split again.

    split (a · c · b)  =  split a · split b      for a separator c
    split w            =  [w]                    for every word w of an identifier

The second equation is not plain from the definition, because both passes look beyond the
word that they cut: the one by case at what stands around it, the one by known words at
what is left of it.  But no pattern of case is left inside a word
(`level_of_mem_caseWords`), and a part of a word has none either; and what the second pass
cuts off is known, so it is not cut again.

Main result: `split_settled`.
-/
import TokenAlignment.Proofs.Identifier.CaseCuts
import TokenAlignment.Proofs.Identifier.Conservation
import TokenAlignment.Proofs.Identifier.KnownWords

namespace TokenAlignment

namespace WordSplitter

variable {κ : Type} [Add κ] [LT κ] [DecidableLT κ] [OfNat κ 0] (s : WordSplitter κ)

/-! ### Known words -/

theorem refine_of_known {word : List Char}
    (h : s.lexicon.isKnown (word.map Char.toLower) = true) : s.refine word = [word] := by
  rw [refine, if_pos (by simp [h])]

/-- A word is kept as it is, or cut into known words. -/
theorem refine_eq_or_known (word : List Char) :
    s.refine word = [word] ∨
      ∀ piece ∈ s.refine word, s.lexicon.isKnown (piece.map Char.toLower) = true := by
  by_cases hkeep : word.length < 2 || !word.all Char.isAlpha ||
      s.lexicon.isKnown (word.map Char.toLower)
  · left
    rw [refine, if_pos hkeep]
  rw [refine, if_neg hkeep]
  rcases hsegment : s.lexicon.segment? (word.map Char.toLower) with - | ranges
  · exact .inl rfl
  · right
    intro piece hpiece
    obtain ⟨range, hrange, rfl⟩ := List.mem_map.mp hpiece
    have hsteps := Lexicon.steps_of_segment?_eq_some hsegment
    have hknown := (hsteps.of_mem (List.mem_reverse.mpr hrange)).2
    -- a part of the word in lower case is the lower case of the part
    rw [List.extract_toArray, List.extract_eq_take_drop, ← List.map_drop, ← List.map_take]
      at hknown
    rwa [List.extract_eq_take_drop]

/-- **What known words have cut off is not cut again.** -/
theorem refine_of_mem_refine {word piece : List Char} (h : piece ∈ s.refine word) :
    s.refine piece = [piece] := by
  rcases s.refine_eq_or_known word with hkept | hknown
  · rw [hkept, List.mem_singleton] at h
    rw [h, hkept]
  · exact s.refine_of_known (hknown piece h)

/-- A word of letters that is kept as it is is known, or no sequence of known words. -/
theorem known_or_segment?_eq_none {word : List Char} (h : s.refine word = [word])
    (hletters : word.all Char.isAlpha = true) (hne : word ≠ []) :
    s.lexicon.isKnown (word.map Char.toLower) = true ∨
      s.lexicon.segment? (word.map Char.toLower) = none := by
  by_cases hknown : s.lexicon.isKnown (word.map Char.toLower) = true
  · exact .inl hknown
  rcases hsegment : s.lexicon.segment? (word.map Char.toLower) with - | ranges
  · exact .inr rfl
  -- the known words would be one, the word itself
  have hsteps := Lexicon.steps_of_segment?_eq_some hsegment
  have hpos : 0 < word.length := List.length_pos_iff.mpr hne
  rw [List.length_map] at hsteps
  have hone : ranges.reverse.length ≤ 1 := by
    by_cases hshort : word.length < 2
    · have := hsteps.length_le
      omega
    · rw [refine, if_neg (by simp [hshort, hletters, hknown]), hsegment] at h
      have := congrArg List.length h
      rw [List.length_map, List.length_singleton] at this
      rw [List.length_reverse]
      omega
  have hword := hsteps.known_of_length_le_one hpos hone
  rw [List.extract_toArray, List.extract_eq_take_drop, List.drop_zero, Nat.sub_zero,
    List.take_of_length_le (by simp)] at hword
  exact absurd hword hknown

/-! ### The words of an identifier -/

/-- **What is left of an identifier in its words**: letters and numbers of level case,
which known words do not cut. -/
theorem settled_of_mem_split {text piece : List Char} (h : piece ∈ s.split text) :
    piece ≠ [] ∧ (∀ c ∈ piece, s.tests.isWord c = true) ∧ s.tests.Level piece ∧
      s.refine piece = [piece] := by
  obtain ⟨run, -, hrun⟩ := List.mem_flatMap.mp h
  obtain ⟨word, hword, hpiece⟩ := List.mem_flatMap.mp hrun
  obtain ⟨placed, hplaced, hpieces⟩ := s.exists_placed_split 0 text
  have hne : piece ≠ [] := by
    rw [← hpieces] at h
    obtain ⟨x, hx, rfl⟩ := List.mem_map.mp h
    exact hplaced.ne_nil hx
  have hletters : ∀ c ∈ piece, s.tests.isWord c = true := by
    intro c hc
    have hmem : c ∈ (s.split text).flatten := List.mem_flatten.mpr ⟨piece, h, hc⟩
    rw [s.flatten_split] at hmem
    exact (List.mem_filter.mp hmem).2
  have hwordne : word ≠ [] := by
    rintro rfl
    exact (isCut_piecesAt 0 run (s.caseCuts run)).1 hword
  have hpart : piece <:+: word := by
    have hinfix := List.infix_of_mem_flatten hpiece
    rwa [(s.isCut_refine hwordne).2] at hinfix
  exact ⟨hne, hletters, (s.level_of_mem_caseWords hword).of_part hpart,
    s.refine_of_mem_refine hpiece⟩

/-- **A word of an identifier is not split again.** -/
theorem split_of_mem_split {text piece : List Char} (h : piece ∈ s.split text) :
    s.split piece = [piece] := by
  obtain ⟨hne, hletters, hlevel, hrefine⟩ := s.settled_of_mem_split h
  have hcase : s.caseWords piece = [piece] := by
    rw [caseWords, s.caseCuts_of_level hlevel, piecesAt, if_neg (by simpa using hne)]
  rw [split, Text.runs_of_all hne hletters, List.flatMap_singleton, hcase,
    List.flatMap_singleton, hrefine]

/-- Texts with a separator between them are split one by one. -/
theorem split_intercalate {sep : Char} (hsep : ¬ s.tests.isWord sep = true)
    (texts : List (List Char)) :
    s.split ([sep].intercalate texts) = texts.flatMap s.split := by
  induction texts with
  | nil => rfl
  | cons text texts ih =>
      rcases texts with - | ⟨next, texts⟩
      · simp
      · rw [List.intercalate_cons_cons, List.append_assoc, List.singleton_append,
          s.split_append_cons text hsep, ih]
        rfl

/-- The words of an identifier, with a separator between them, are its words again. -/
theorem split_intercalate_split {sep : Char} (hsep : ¬ s.tests.isWord sep = true)
    (text : List Char) : s.split ([sep].intercalate (s.split text)) = s.split text := by
  rw [s.split_intercalate hsep]
  calc (s.split text).flatMap s.split
      = (s.split text).flatMap fun piece => [piece] :=
        List.flatMap_congr fun piece hpiece => s.split_of_mem_split hpiece
    _ = s.split text := List.flatMap_singleton' _

end WordSplitter

/-- **The words of an identifier are settled.**  Each is its own only word; with
underscores between them they are the words of a new identifier, the same ones; and
wherever a separator stands, both sides are split on their own.  So the case neither
rises nor falls inside a word, and one of ASCII letters is known unless known words do not
make it up. -/
theorem split_settled (extra : List (List Char)) (text : List Char) :
    let s := wordSplitter extra
    (∀ piece ∈ s.split text, s.split piece = [piece]) ∧
    s.split (['_'].intercalate (s.split text)) = s.split text ∧
    (∀ (a b : List Char) (c : Char), ¬ CharTests.unicode.isWord c = true →
      s.split (a ++ c :: b) = s.split a ++ s.split b) ∧
    ∀ piece ∈ s.split text,
      (∀ x y, [x, y] <:+: piece → isUppercase y = true →
        ¬ isLowercase x = true ∧ ¬ isNumeral x = true) ∧
      (∀ x y z, [x, y, z] <:+: piece → isUppercase x = true → isUppercase y = true →
        ¬ isLowercase z = true) ∧
      (piece.all Char.isAlpha = true →
        s.lexicon.isKnown (piece.map Char.toLower) = true ∨
          s.lexicon.segment? (piece.map Char.toLower) = none) := by
  intro s
  have hunderscore : ¬ CharTests.unicode.isWord '_' = true := by decide +kernel
  refine ⟨fun piece => s.split_of_mem_split, s.split_intercalate_split hunderscore text,
    fun a b _ hc => s.split_append_cons a hc b, ?_⟩
  intro piece hpiece
  obtain ⟨hne, -, hlevel, hrefine⟩ := s.settled_of_mem_split hpiece
  refine ⟨?_, ?_, fun hletters => s.known_or_segment?_eq_none hrefine hletters hne⟩
  · intro x y hxy hupper
    have hrise := hlevel.no_rise x y hxy
    have hrises : s.tests.rises x y = (isUppercase y && (isLowercase x || isNumeral x)) := rfl
    rw [hrises, hupper] at hrise
    simpa using hrise
  · intro x y z hxyz hfirst hsecond hlower
    apply hlevel.no_fall x y z hxyz
    have hfalls : s.tests.falls x y z = (isLowercase z && isUppercase y && isUppercase x) := rfl
    rw [hfalls, hfirst, hsecond, hlower]
    rfl

/-- A splitter that knows one more word. -/
def qzxSplitter : WordSplitter Float := wordSplitter [['Q', 'z', 'x']]

theorem qzxSplitter_split : qzxSplitter.split ['q', 'z', 'x', 'É', '1', 'B']
    = [['q', 'z', 'x'], ['É', '1'], ['B']] := by
  have hknown : qzxSplitter.lexicon.isKnown ['q', 'z', 'x'] = true := by
    rw [qzxSplitter, wordSplitter, Lexicon.withWords, Lexicon.isKnown_ofRanked]
    exact List.mem_append_right _ (by decide +kernel)
  have hruns : Text.runs CharTests.unicode.isWord ['q', 'z', 'x', 'É', '1', 'B']
      = [['q', 'z', 'x', 'É', '1', 'B']] := by decide +kernel
  have hwords : qzxSplitter.caseWords ['q', 'z', 'x', 'É', '1', 'B']
      = [['q', 'z', 'x'], ['É', '1'], ['B']] := by decide +kernel
  have hfirst : qzxSplitter.refine ['q', 'z', 'x'] = [['q', 'z', 'x']] :=
    qzxSplitter.refine_of_known hknown
  have hsecond : qzxSplitter.refine ['É', '1'] = [['É', '1']] := by decide +kernel
  have hlast : qzxSplitter.refine ['B'] = [['B']] := by decide +kernel
  show (Text.runs CharTests.unicode.isWord ['q', 'z', 'x', 'É', '1', 'B']).flatMap _ = _
  simp only [hruns, List.flatMap_cons, List.flatMap_nil, hwords, hfirst, hsecond, hlast,
    List.singleton_append, List.append_nil]

theorem split_settled_qzx :
    ¬ CharTests.unicode.isWord '-' = true ∧
    qzxSplitter.split ['q', 'z', 'x', 'É', '1', 'B'] = [['q', 'z', 'x'], ['É', '1'], ['B']] ∧
    qzxSplitter.split ['É', '1'] = [['É', '1']] ∧
    qzxSplitter.split ['q', 'z', 'x', '_', 'É', '1', '_', 'B']
      = [['q', 'z', 'x'], ['É', '1'], ['B']] ∧
    qzxSplitter.split ['q', 'z', 'x', 'É', '1', 'B', '-', 'q', 'z', 'x', 'É', '1', 'B']
      = [['q', 'z', 'x'], ['É', '1'], ['B'], ['q', 'z', 'x'], ['É', '1'], ['B']] := by
  have hdash : ¬ CharTests.unicode.isWord '-' = true := by decide +kernel
  obtain ⟨hword, hjoined, hseparated, -⟩ := split_settled [['Q', 'z', 'x']]
    ['q', 'z', 'x', 'É', '1', 'B']
  have hboth := hseparated ['q', 'z', 'x', 'É', '1', 'B'] ['q', 'z', 'x', 'É', '1', 'B'] '-' hdash
  change ∀ piece ∈ qzxSplitter.split _, qzxSplitter.split piece = [piece] at hword
  change qzxSplitter.split (['_'].intercalate (qzxSplitter.split _)) = qzxSplitter.split _
    at hjoined
  change qzxSplitter.split _ = qzxSplitter.split _ ++ qzxSplitter.split _ at hboth
  rw [qzxSplitter_split] at hword hjoined hboth
  exact ⟨hdash, qzxSplitter_split, hword _ (by simp), hjoined, hboth⟩

end TokenAlignment
