/-
TokenAlignment/Proofs/Identifier/CutReasons.lean

Why a word of an identifier ends where it does.

Two words with nothing between them meet for one of four reasons:

    x | y        the case rises from x to y
    x | y z      the case falls to z, and the last capital starts the word
    w x | y      the case falls to y, and the last capital ends the word before
    word | word  both are known words of ASCII letters

The first three are those of the pass by case, and that pass looks at the run of letters
and numbers around it alone (`Breaks`).  So a reason found in the run is one in the
identifier, and it remains to find the run of two words: it is what lies between the
nearest separators on both sides (`exists_run`).

Digits are of neither case and no letters, so none of the reasons lets a word start with
one; and in a run of lower case only known words are a reason.

Main results: `justified_of_split`, `split_cuts_justified`.
-/
import TokenAlignment.Proofs.Identifier.Fixpoint
import TokenAlignment.Proofs.Identifier.Places
import TokenAlignment.Proofs.Identifier.Spelling
import TokenAlignment.Proofs.Text.CharClasses

namespace TokenAlignment

/-! ### Where the case breaks -/

namespace CharTests

/-- The case rises between the texts, or falls beside their border. -/
inductive Breaks (t : CharTests) : List Char → List Char → Prop
  | rise {l r : List Char} {x y : Char} (h : t.rises x y = true) :
    Breaks t (l ++ [x]) (y :: r)
  | fallAhead {l r : List Char} {x y z : Char} (h : t.falls x y z = true) :
    Breaks t (l ++ [x]) (y :: z :: r)
  | fallBehind {l r : List Char} {x y z : Char} (h : t.falls x y z = true) :
    Breaks t (l ++ [x, y]) (z :: r)

/-- A break is one whatever else stands around it. -/
theorem Breaks.extend {t : CharTests} {u v : List Char} (h : t.Breaks u v)
    (before after : List Char) : t.Breaks (before ++ u) (v ++ after) := by
  cases h with
  | @rise l r x y h =>
      rw [← List.append_assoc]
      exact .rise h
  | @fallAhead l r x y z h =>
      rw [← List.append_assoc]
      exact .fallAhead h
  | @fallBehind l r x y z h =>
      rw [← List.append_assoc]
      exact .fallBehind h

/-- What the characters at a break are. -/
theorem Breaks.cases_of_cons {t : CharTests} {u v : List Char} {x y : Char}
    (h : t.Breaks (u ++ [x]) (y :: v)) :
    (t.isUpper y = true ∧ (t.isLower x = true ∨ t.isNumeric x = true)) ∨
    (t.isUpper y = true ∧ t.isUpper x = true ∧ ∃ z ∈ v.head?, t.isLower z = true) ∨
    (t.isUpper x = true ∧ t.isLower y = true ∧ ∃ w ∈ u.getLast?, t.isUpper w = true) := by
  generalize hleft : u ++ [x] = left at h
  generalize hright : y :: v = right at h
  cases h with
  | @rise l r x' y' h =>
      obtain ⟨rfl, hx⟩ := List.append_inj' hleft rfl
      cases hx
      cases hright
      rw [rises, Bool.and_eq_true, Bool.or_eq_true] at h
      exact .inl h
  | @fallAhead l r x' y' z h =>
      obtain ⟨rfl, hx⟩ := List.append_inj' hleft rfl
      cases hx
      cases hright
      rw [falls, Bool.and_eq_true, Bool.and_eq_true] at h
      obtain ⟨⟨hz, hy⟩, hx⟩ := h
      exact .inr (.inl ⟨hy, hx, z, rfl, hz⟩)
  | @fallBehind l r w x' z h =>
      rw [show l ++ [w, x'] = (l ++ [w]) ++ [x'] by simp] at hleft
      obtain ⟨rfl, hx⟩ := List.append_inj' hleft rfl
      cases hx
      cases hright
      rw [falls, Bool.and_eq_true, Bool.and_eq_true] at h
      obtain ⟨⟨hz, hx⟩, hw⟩ := h
      exact .inr (.inr ⟨hx, hz, w, by simp, hw⟩)

/-- A character at which the case breaks is of a case. -/
theorem Breaks.cased {t : CharTests} {u v : List Char} {y : Char} (h : t.Breaks u (y :: v)) :
    t.isUpper y = true ∨ t.isLower y = true := by
  rcases List.eq_nil_or_concat u with rfl | ⟨u, x, rfl⟩
  · generalize hleft : [] = left at h
    cases h with
    | rise h => simp at hleft
    | fallAhead h => simp at hleft
    | fallBehind h => simp at hleft
  · rw [List.concat_eq_append] at h
    rcases h.cases_of_cons with ⟨hy, -⟩ | ⟨hy, -⟩ | ⟨-, hy, -⟩
    · exact .inl hy
    · exact .inl hy
    · exact .inr hy

end CharTests

namespace WordSplitter

section Cuts

variable {κ : Type} [Add κ] [LT κ] [DecidableLT κ] [OfNat κ 0] (s : WordSplitter κ)

theorem breaks_of_mem_caseCutsFrom (before : List Char) (prev : Char) {text : List Char}
    {cut : Nat} (h : cut ∈ s.caseCutsFrom (before.length + 1) before.getLast? prev text) :
    s.tests.Breaks ((before ++ prev :: text).take cut) ((before ++ prev :: text).drop cut) := by
  induction text generalizing before prev with
  | nil => cases h
  | cons c cs ih =>
      have hlater (hcut : cut ∈ s.caseCutsFrom (before.length + 1 + 1) (some prev) c cs) :
          s.tests.Breaks ((before ++ prev :: c :: cs).take cut)
            ((before ++ prev :: c :: cs).drop cut) := by
        have hnext := ih (before ++ [prev]) c
        rw [List.length_append, List.getLast?_concat, List.append_assoc] at hnext
        exact hnext hcut
      rcases s.caseCutsFrom_cons (before.length + 1) before.getLast? prev c cs with
        ⟨hrises, hcuts⟩ | ⟨-, ⟨b, hb, hfalls⟩, first, hplace, hcuts⟩ | ⟨-, -, hcuts⟩
      · rw [hcuts, List.mem_cons] at h
        rcases h with rfl | h
        · -- the cut is behind `prev`
          have htake : before ++ prev :: c :: cs = (before ++ [prev]) ++ c :: cs := by simp
          rw [htake, List.take_left' (by simp), List.drop_left' (by simp)]
          exact .rise hrises
        · exact hlater h
      · obtain ⟨front, rfl⟩ := List.getLast?_eq_some_iff.mp hb
        rw [hcuts, List.mem_cons] at h
        rcases h with rfl | h
        · rcases hplace with rfl | rfl
          · -- the capital stays with those before it
            have htake : (front ++ [b]) ++ prev :: c :: cs = (front ++ [b, prev]) ++ c :: cs := by
              simp
            rw [htake, List.take_left' (by simp), List.drop_left' (by simp)]
            exact .fallBehind hfalls
          · -- the capital goes with what follows
            rw [List.take_left' (by simp), List.drop_left' (by simp)]
            exact .fallAhead hfalls
        · exact hlater h
      · rw [hcuts] at h
        exact hlater h

/-- **The case breaks at every cut of a run.** -/
theorem breaks_of_mem_caseCuts {run : List Char} {cut : Nat} (h : cut ∈ s.caseCuts run) :
    s.tests.Breaks (run.take cut) (run.drop cut) := by
  rcases run with - | ⟨c, cs⟩
  · cases h
  · exact s.breaks_of_mem_caseCutsFrom [] c h

end Cuts

/-- Between two pieces is a cut. -/
theorem add_length_mem_of_piecesAt {start : Nat} {text : List Char} {cuts : List Nat}
    {front back : List (List Char)} (hsorted : (start :: cuts).Pairwise (· ≤ ·))
    (hinside : ∀ cut ∈ cuts, cut < start + text.length)
    (h : piecesAt start text cuts = front ++ back) (hfront : front ≠ []) (hback : back ≠ []) :
    start + front.flatten.length ∈ cuts := by
  induction cuts generalizing start text front with
  | nil =>
      -- one piece at most is not enough for both sides
      have hlength := congrArg List.length h
      have := List.length_pos_iff.mpr hfront
      have := List.length_pos_iff.mpr hback
      rw [List.length_append, piecesAt] at hlength
      split at hlength
      · simp at hlength
        omega
      · simp at hlength
        omega
  | cons cut cuts ih =>
      obtain ⟨hstart, hcuts⟩ := List.pairwise_cons.mp hsorted
      rw [List.forall_mem_cons] at hinside
      obtain ⟨hcut, hlater⟩ := hinside
      have hle := hstart cut (List.mem_cons_self ..)
      have hpiece : (text.take (cut - start)).length = cut - start := by
        rw [List.length_take]
        omega
      have hrest : ∀ c ∈ cuts, c < cut + (text.drop (cut - start)).length := by
        intro c hc
        have := hlater c hc
        rw [List.length_drop]
        omega
      rw [piecesAt] at h
      split at h
      · rename_i hempty
        rw [List.isEmpty_iff.mp hempty, List.length_nil] at hpiece
        have hmem := ih hcuts hrest h hfront
        rw [show start = cut by omega]
        exact List.mem_cons_of_mem _ hmem
      · obtain ⟨first, front, rfl⟩ := List.exists_cons_of_ne_nil hfront
        rw [List.cons_append, List.cons.injEq] at h
        obtain ⟨rfl, h⟩ := h
        rw [List.flatten_cons, List.length_append, hpiece]
        rcases front with - | ⟨second, front⟩
        · rw [List.flatten_nil, List.length_nil, show start + (cut - start + 0) = cut by omega]
          exact List.mem_cons_self ..
        · have hmem := ih hcuts hrest h (List.cons_ne_nil second front)
          rw [show start + (cut - start + (second :: front).flatten.length)
            = cut + (second :: front).flatten.length by omega]
          exact List.mem_cons_of_mem _ hmem

section Reasons

variable {κ : Type} [Add κ] [LT κ] [DecidableLT κ] [OfNat κ 0] (s : WordSplitter κ)

/-- **The case breaks between the words of a run.** -/
theorem breaks_of_caseWords {run : List Char} {front back : List (List Char)}
    (h : s.caseWords run = front ++ back) (hfront : front ≠ []) (hback : back ≠ []) :
    s.tests.Breaks front.flatten back.flatten := by
  have hsorted := s.caseCuts_sorted run
  rw [← List.cons_append, List.pairwise_append] at hsorted
  have hcut := add_length_mem_of_piecesAt hsorted.1
    (fun cut hcut => by simpa using (s.caseCuts_bounds hcut).2) h hfront hback
  have hrun : run = front.flatten ++ back.flatten := by
    rw [← List.flatten_append, ← h]
    exact (isCut_piecesAt 0 run _).2.symm
  rw [Nat.zero_add] at hcut
  have hbreaks := s.breaks_of_mem_caseCuts hcut
  have htake : run.take front.flatten.length = front.flatten := by
    rw [hrun, List.take_left]
  have hdrop : run.drop front.flatten.length = back.flatten := by
    rw [hrun, List.drop_left]
  rwa [htake, hdrop] at hbreaks

/-! ### Known words -/

/-- A word of ASCII letters that is known in lower case. -/
def IsKnownWord (piece : List Char) : Prop :=
  piece.all Char.isAlpha = true ∧ s.lexicon.isKnown (piece.map Char.toLower) = true

/-- What a word is cut into are known words. -/
theorem isKnownWord_of_refine {word : List Char} (hne : word ≠ [])
    (hcut : s.refine word ≠ [word]) {piece : List Char} (hpiece : piece ∈ s.refine word) :
    s.IsKnownWord piece := by
  have hletters : word.all Char.isAlpha = true := by
    by_contra hother
    apply hcut
    rw [refine, if_pos (by simp [hother])]
  have hpart : piece <:+: word := by
    have hinfix := List.infix_of_mem_flatten hpiece
    rwa [(s.isCut_refine hne).2] at hinfix
  refine ⟨?_, ((s.refine_eq_or_known word).resolve_left hcut) piece hpiece⟩
  rw [List.all_eq_true] at hletters ⊢
  intro c hc
  exact hletters c (hpart.subset hc)

/-- Two parts that a word is cut into are known words. -/
theorem isKnownWord_of_refine_append {word p q : List Char} {before after : List (List Char)}
    (hne : word ≠ []) (h : s.refine word = before ++ p :: q :: after) :
    s.IsKnownWord p ∧ s.IsKnownWord q := by
  have hcut : s.refine word ≠ [word] := by
    intro hkept
    have hlength := congrArg List.length (hkept.symm.trans h)
    simp at hlength
    omega
  constructor
  · exact s.isKnownWord_of_refine hne hcut (by simp [h])
  · exact s.isKnownWord_of_refine hne hcut (by simp [h])

/-- Two words with these texts around them may meet: the case breaks between them, or both
are known. -/
def Justified (left p q right : List Char) : Prop :=
  s.tests.Breaks (left ++ p) (q ++ right) ∨ (s.IsKnownWord p ∧ s.IsKnownWord q)

/-- What words are cut into, put together again. -/
theorem flatten_flatMap_refine {words : List (List Char)} (hne : [] ∉ words) :
    (words.flatMap s.refine).flatten = words.flatten :=
  (IsCut.flatMap ⟨hne, rfl⟩ fun _ => s.isCut_refine).2

/-- **Two words of a run that follow each other are justified.** -/
theorem justified_of_run {run p q : List Char} {front back : List (List Char)}
    (h : (s.caseWords run).flatMap s.refine = front ++ p :: q :: back) :
    s.Justified front.flatten p q back.flatten := by
  have hne : [] ∉ s.caseWords run := (isCut_piecesAt 0 run _).1
  -- a border between two words of the run is one where the case breaks
  have hborder (first second : List (List Char)) (hwords : s.caseWords run = first ++ second)
      (hfirst : first.flatMap s.refine = front ++ [p])
      (hsecond : second.flatMap s.refine = q :: back) :
      s.Justified front.flatten p q back.flatten := by
    left
    rw [hwords, List.mem_append, not_or] at hne
    have hbreaks := s.breaks_of_caseWords hwords
      (by rintro rfl; simp at hfirst) (by rintro rfl; cases hsecond)
    rw [← s.flatten_flatMap_refine hne.1, ← s.flatten_flatMap_refine hne.2, hfirst, hsecond]
      at hbreaks
    simpa using hbreaks
  rw [List.flatMap_def, show front ++ p :: q :: back = (front ++ [p]) ++ q :: back by simp,
    List.flatten_eq_append_iff] at h
  rcases h with ⟨first, second, hwords, hfirst, hsecond⟩ |
    ⟨first, before, c, after, second, hwords, hfirst, hsecond⟩
  · obtain ⟨first, second, hsplit, rfl, rfl⟩ := List.map_eq_append_iff.mp hwords
    rw [← List.flatMap_def] at hfirst hsecond
    exact hborder first second hsplit hfirst.symm hsecond.symm
  · obtain ⟨first, rest, hsplit, rfl, hrest⟩ := List.map_eq_append_iff.mp hwords
    obtain ⟨word, second, rfl, hword, rfl⟩ := List.map_eq_cons_iff.mp hrest
    rw [← List.flatMap_def] at hfirst hsecond
    rcases List.eq_nil_or_concat before with rfl | ⟨before, last, rfl⟩
    · -- nothing of the word is on the left
      rw [List.append_nil] at hfirst
      refine hborder first (word :: second) hsplit hfirst.symm ?_
      rw [List.flatMap_cons, hword, hsecond]
      rfl
    · -- the border is inside the word
      right
      rw [List.concat_eq_append, ← List.append_assoc] at hfirst
      obtain ⟨-, hp⟩ := List.append_inj' hfirst rfl
      rw [List.cons_append, List.cons.injEq] at hsecond
      obtain ⟨rfl, -⟩ := hsecond
      obtain rfl : p = last := by simpa using hp
      have hwordne : word ≠ [] := by
        rintro rfl
        exact hne (by simp [hsplit])
      exact s.isKnownWord_of_refine_append hwordne (by simpa using hword)

omit [Add κ] [LT κ] [DecidableLT κ] [OfNat κ 0] in
/-- The reason for a border in a run is one in the whole text. -/
theorem Justified.extend {s : WordSplitter κ} {left p q right : List Char}
    (h : s.Justified left p q right) (before after : List Char) :
    s.Justified (before ++ left) p q (right ++ after) := by
  rcases h with hbreaks | hknown
  · left
    have hwhole := hbreaks.extend before after
    rwa [← List.append_assoc, List.append_assoc q] at hwhole
  · exact .inr hknown

/-- **Two words that meet in a text are justified.** -/
theorem justified_of_split {left p q right : List Char} {before after : List (List Char)}
    (h : s.split (left ++ p ++ q ++ right) = before ++ p :: q :: after)
    (hplace : left.filter s.tests.isWord = before.flatten) : s.Justified left p q right := by
  have hwords : s.split (left ++ [p, q].flatten ++ right) = before ++ [p, q] ++ after := by
    simpa using h
  obtain ⟨a, l, r, b, front, back, rfl, rfl, -, hrun, hsplit, rfl, rfl⟩ :=
    s.exists_run hwords hplace
  rw [s.split_of_all hrun, List.append_assoc front] at hsplit
  exact (s.justified_of_run hsplit).extend a b

/-- **A word that nothing may meet on its left begins its run.** -/
theorem endsOutside_of_split {left q right : List Char} {before after : List (List Char)}
    (h : s.split (left ++ q ++ right) = before ++ q :: after)
    (hplace : left.filter s.tests.isWord = before.flatten)
    (hq : ∀ left' p right', ¬ s.Justified left' p q right') :
    Text.EndsOutside s.tests.isWord left := by
  have hwords : s.split (left ++ [q].flatten ++ right) = before ++ [q] ++ after := by
    simpa using h
  obtain ⟨a, l, r, b, front, back, rfl, rfl, ha, hrun, hsplit, rfl, rfl⟩ :=
    s.exists_run hwords hplace
  rcases List.eq_nil_or_concat front with rfl | ⟨front, p, rfl⟩
  · rwa [List.flatten_nil, List.append_nil]
  · -- the word before it in the run would meet it
    rw [s.split_of_all hrun, show front.concat p ++ [q] ++ back = front ++ p :: q :: back by simp]
      at hsplit
    exact absurd (s.justified_of_run hsplit) (hq _ p _)

/-- **A run without a capital is kept or cut into known words.** -/
theorem split_of_no_upper {run : List Char} (hne : run ≠ [])
    (hrun : ∀ c ∈ run, s.tests.isWord c = true) (hupper : ∀ c ∈ run, ¬ s.tests.isUpper c = true) :
    s.split run = [run] ∨
      ∀ piece ∈ s.split run, s.lexicon.isKnown (piece.map Char.toLower) = true := by
  have hlevel : s.tests.Level run := by
    constructor
    · intro x y hxy hrises
      rw [CharTests.rises, Bool.and_eq_true] at hrises
      exact hupper y (hxy.subset (by simp)) hrises.1
    · intro x y z hxyz hfalls
      rw [CharTests.falls, Bool.and_eq_true] at hfalls
      exact hupper x (hxyz.subset (by simp)) hfalls.2
  have hcase : s.caseWords run = [run] := by
    rw [caseWords, s.caseCuts_of_level hlevel, piecesAt, if_neg (by simpa using hne)]
  rw [s.split_of_all hrun, hcase, List.flatMap_singleton]
  exact s.refine_eq_or_known run

end Reasons

end WordSplitter

/-! ### Identifiers -/

section Identifiers

variable {κ : Type} {s : WordSplitter κ}

/-- No word meets another one with a digit at its start. -/
theorem WordSplitter.not_justified_of_isDigit (hs : s.tests = .unicode) {d : Char}
    (hd : d.isDigit = true) (left p q right : List Char) : ¬ s.Justified left p (d :: q) right := by
  obtain ⟨hupper, hlower, hletter⟩ := caseless_of_isDigit hd
  rintro (hbreaks | ⟨-, hletters, -⟩)
  · rw [hs] at hbreaks
    exact hbreaks.cased.elim hupper hlower
  · rw [List.all_cons, Bool.and_eq_true] at hletters
    exact hletter hletters.1

/-- **A run of lower case that no known words spell is a word.** -/
theorem split_of_isLowercase (extra : List (List Char)) {run : List Char} (hne : run ≠ [])
    (hletters : ∀ c ∈ run, CharTests.unicode.isWord c = true)
    (hlower : ∀ c ∈ run, isLowercase c = true)
    (hspells : ¬ ∃ parts, (wordSplitter extra).lexicon.Spells parts run) :
    (wordSplitter extra).split run = [run] := by
  apply ((wordSplitter extra).split_of_no_upper hne hletters fun c hc =>
    not_isUppercase_of_isLowercase (hlower c hc)).resolve_right
  intro hknown
  apply hspells
  have hflatten := ((wordSplitter extra).isCut_split_of_all hletters).2
  refine ⟨(wordSplitter extra).split run, fun part hpart => ?_, hflatten⟩
  have hpartlower : part.map Char.toLower = part := by
    rw [List.map_congr_left (g := id), List.map_id]
    intro c hc
    apply toLower_of_isLowercase
    apply hlower
    rw [← hflatten]
    exact List.mem_flatten.mpr ⟨part, hpart, hc⟩
  have hword := hknown part hpart
  rwa [hpartlower] at hword

end Identifiers

/-- **The splitter makes no unjustified cut.**  Two words of an identifier that follow each
other stand in it one behind the other, with separators between them or none.  If there is
none, the case rises at their border, or falls beside it, or both are known words of ASCII
letters.  A word with a digit at its start begins a run of letters and numbers; and a run of
lower case that no known words make up is a word. -/
theorem split_cuts_justified (extra : List (List Char)) (text : List Char) :
    let s := wordSplitter extra
    let isWord := CharTests.unicode.isWord
    (∀ before p q after, s.split text = before ++ p :: q :: after →
      ∃ left gap right, text = left ++ p ++ gap ++ q ++ right ∧
        left.filter isWord = before.flatten ∧ (∀ c ∈ gap, ¬ isWord c = true) ∧
        (gap = [] → ∃ u x y v, p = u ++ [x] ∧ q = y :: v ∧
          ((isUppercase y = true ∧ (isLowercase x = true ∨ isNumeral x = true)) ∨
           (isUppercase y = true ∧ isUppercase x = true ∧
             ∃ z ∈ (v ++ right).head?, isLowercase z = true) ∨
           (isUppercase x = true ∧ isLowercase y = true ∧
             ∃ w ∈ (left ++ u).getLast?, isUppercase w = true) ∨
           (s.IsKnownWord p ∧ s.IsKnownWord q)))) ∧
    (∀ before d q after, s.split text = before ++ (d :: q) :: after → d.isDigit = true →
      ∃ left right, text = left ++ d :: q ++ right ∧ left.filter isWord = before.flatten ∧
        Text.EndsOutside isWord left) ∧
    ∀ left run right, text = left ++ run ++ right →
      Text.EndsOutside isWord left → Text.BeginsOutside isWord right →
      run ≠ [] → (∀ c ∈ run, isWord c = true ∧ isLowercase c = true) →
      (¬ ∃ parts, s.lexicon.Spells parts run) →
      s.split text = s.split left ++ run :: s.split right := by
  intro s isWord
  refine ⟨?_, ?_, ?_⟩
  · intro before p q after h
    obtain ⟨left, gap, right, htext, hleft, hgap⟩ := s.exists_places h
    refine ⟨left, gap, right, htext, hleft, hgap, ?_⟩
    rintro rfl
    rw [List.append_nil] at htext
    have hp : p ≠ [] := fun hp => s.nil_notMem_split text (by simp [h, hp])
    have hq : q ≠ [] := fun hq => s.nil_notMem_split text (by simp [h, hq])
    obtain ⟨u, x, rfl⟩ := (List.eq_nil_or_concat p).resolve_left hp
    obtain ⟨y, v, rfl⟩ := List.exists_cons_of_ne_nil hq
    refine ⟨u, x, y, v, List.concat_eq_append .., rfl, ?_⟩
    have hmeet : s.split (left ++ u.concat x ++ y :: v ++ right)
        = before ++ u.concat x :: (y :: v) :: after := by
      rw [← htext, h]
    rcases s.justified_of_split hmeet hleft with hbreaks | hknown
    · rw [List.concat_eq_append, ← List.append_assoc, List.cons_append] at hbreaks
      rcases hbreaks.cases_of_cons with hrise | hahead | hbehind
      · exact .inl hrise
      · exact .inr (.inl hahead)
      · exact .inr (.inr (.inl hbehind))
    · exact .inr (.inr (.inr hknown))
  · intro before d q after h hd
    obtain ⟨placed, hplaced, hpieces⟩ := s.exists_placed_split 0 text
    obtain ⟨left, right, htext, hleft, -⟩ := hplaced.exists_place (hpieces.trans h)
    rw [← List.append_assoc] at htext
    rw [htext] at h
    refine ⟨left, right, htext, hleft, s.endsOutside_of_split h hleft ?_⟩
    intro left' p right'
    exact WordSplitter.not_justified_of_isDigit rfl hd left' p q right'
  · rintro left run right rfl hleft hright hne hrun hspells
    rw [s.split_append_of_beginsOutside _ hright, s.split_append_of_endsOutside hleft]
    rw [split_of_isLowercase extra hne (fun c hc => (hrun c hc).1) (fun c hc => (hrun c hc).2)
      hspells, List.append_assoc]
    rfl

/-- A splitter knows the words that are ranked for it. -/
theorem isKnown_wordSplitter (extra : List (List Char)) (w : List Char) :
    (wordSplitter extra).lexicon.isKnown w = true ↔ w ∈ Lexicon.ranked extra := by
  have hranked := Lexicon.isKnown_ofRanked Lexicon.zipfCost (Lexicon.ranked extra) w
  dsimp only [wordSplitter, Lexicon.withWords]
  -- the words as such stay closed
  generalize Lexicon.ranked extra = words at hranked ⊢
  exact hranked

/-- No known words spell `nbr`, because none is a beginning of it. -/
theorem not_spells_nbr (parts : List (List Char)) :
    ¬ qzxSplitter.lexicon.Spells parts ['n', 'b', 'r'] := by
  intro h
  rcases parts with - | ⟨part, parts⟩
  · cases h.flatten_eq
  have hprefix : part <+: ['n', 'b', 'r'] := by
    rw [← h.flatten_eq, List.flatten_cons]
    exact List.prefix_append ..
  have hpart : part ∈ [[], ['n'], ['n', 'b'], ['n', 'b', 'r']] :=
    (List.mem_inits part ['n', 'b', 'r']).mpr hprefix
  have hnone : ∀ word ∈ [[], ['n'], ['n', 'b'], ['n', 'b', 'r']],
      String.ofList word ∉ commonWords ∧ word ∉ [['Q', 'z', 'x']].filterMap Lexicon.normalize? := by
    decide +kernel
  have hknown := (isKnown_wordSplitter _ part).mp (h.known part (List.mem_cons_self ..))
  rcases List.mem_append.mp hknown with hcommon | hextra
  · obtain ⟨word, hword, rfl⟩ := List.mem_map.mp hcommon
    apply (hnone _ hpart).1
    rwa [String.ofList_toList]
  · exact (hnone part hpart).2 hextra

theorem split_cuts_justified_nbr :
    qzxSplitter.split ['q', 'z', 'x', 'É', '1', 'B'] = [['q', 'z', 'x'], ['É', '1'], ['B']] ∧
    (isUppercase 'B' = true ∧ (isLowercase '1' = true ∨ isNumeral '1' = true)) ∧
    qzxSplitter.split ['7', '_', 'n', 'b', 'r'] = [['7'], ['n', 'b', 'r']] ∧
    ∃ left right, ['7', '_', 'n', 'b', 'r'] = left ++ ['7'] ++ right ∧
      left.filter CharTests.unicode.isWord = [] ∧
      Text.EndsOutside CharTests.unicode.isWord left := by
  obtain ⟨hcuts, -, -⟩ := split_cuts_justified [['Q', 'z', 'x']] ['q', 'z', 'x', 'É', '1', 'B']
  obtain ⟨-, hdigit, hlower⟩ := split_cuts_justified [['Q', 'z', 'x']] ['7', '_', 'n', 'b', 'r']
  have hkept : qzxSplitter.split ['7', '_', 'n', 'b', 'r']
      = qzxSplitter.split ['7', '_'] ++ ['n', 'b', 'r'] :: qzxSplitter.split [] := by
    apply hlower ['7', '_'] ['n', 'b', 'r'] [] rfl
    · rintro c ⟨⟩
      decide +kernel
    · exact fun c hc => nomatch hc
    · decide
    · rw [List.forall_mem_cons, List.forall_mem_cons, List.forall_mem_singleton]
      decide +kernel
    · rintro ⟨parts, hparts⟩
      exact not_spells_nbr parts hparts
  have hfirst : qzxSplitter.split ['7', '_'] = [['7']] := by decide +kernel
  have hsplit : qzxSplitter.split ['7', '_', 'n', 'b', 'r'] = [['7'], ['n', 'b', 'r']] := by
    rw [hkept, hfirst]
    rfl
  refine ⟨qzxSplitter_split, ?_, hsplit, hdigit [] '7' [] [['n', 'b', 'r']] hsplit rfl⟩
  obtain ⟨left, gap, right, htext, -, hgap, hreason⟩ :=
    hcuts [['q', 'z', 'x']] ['É', '1'] ['B'] [] qzxSplitter_split
  have hnone : gap = [] := by
    have hword : ∀ c ∈ ['q', 'z', 'x', 'É', '1', 'B'], CharTests.unicode.isWord c = true :=
      List.all_eq_true.mp (by decide +kernel)
    rw [List.eq_nil_iff_forall_not_mem]
    intro c hc
    exact hgap c hc (hword c (by rw [htext]; simp [hc]))
  obtain ⟨u, x, y, v, hp, hq, hreasons⟩ := hreason hnone
  have hlast : ['É'] ++ ['1'] = u ++ [x] := hp
  obtain ⟨rfl, hx⟩ := List.append_inj' hlast rfl
  cases hx
  cases hq
  have hcaseless : ¬ isUppercase '1' = true := by decide +kernel
  rcases hreasons with hrise | ⟨-, hupper, -⟩ | ⟨hupper, -⟩ | ⟨⟨hletters, -⟩, -⟩
  · exact hrise
  · exact absurd hupper hcaseless
  · exact absurd hupper hcaseless
  · exact absurd hletters (by decide)

end TokenAlignment
