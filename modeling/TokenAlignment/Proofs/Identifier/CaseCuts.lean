/-
TokenAlignment/Proofs/Identifier/CaseCuts.lean

Where a run is cut by case.

Two patterns ask for a cut, and nothing else does:

    x y      the case rises      the cut is between them
    x y z    the case falls      the cut is in front of y, or in front of z

Each character adds one cut at most, where it stands or one place before.  So the
offsets of the cuts never decrease, even if the two patterns meet, and the words of a
run are its slices between one offset and the next (`caseWords_eq_slices`).  No
pattern is left in a word (`level_of_mem_caseWords`): the case is level there, and a
text in which it is level has no cuts.

Nothing is assumed about the classes; a character may be upper case and a number.
-/
import TokenAlignment.Identifier.Splitter
import Mathlib.Data.List.Infix

namespace TokenAlignment

/-! ### Patterns of case -/

namespace CharTests

variable (t : CharTests)

/-- The case rises: a capital after a lower-case character or a number. -/
def rises (x y : Char) : Bool :=
  t.isUpper y && (t.isLower x || t.isNumeric x)

/-- The case falls: a lower-case character after two capitals. -/
def falls (x y z : Char) : Bool :=
  t.isLower z && t.isUpper y && t.isUpper x

/-- The case neither rises nor falls inside the text. -/
structure Level (text : List Char) : Prop where
  no_rise : ∀ x y, [x, y] <:+: text → ¬ t.rises x y = true
  no_fall : ∀ x y z, [x, y, z] <:+: text → ¬ t.falls x y z = true

theorem Level.of_part {t : CharTests} {part text : List Char} (h : t.Level text)
    (hpart : part <:+: text) : t.Level part where
  no_rise x y hxy := h.no_rise x y (hxy.trans hpart)
  no_fall x y z hxyz := h.no_fall x y z (hxyz.trans hpart)

end CharTests

/-! ### Slices -/

/-- The offsets of a list, each with the next one. -/
def windows (offsets : List Nat) : List (Nat × Nat) :=
  offsets.zip offsets.tail

/-- In a sorted list no offset lies inside a window. -/
theorem mem_windows {offsets : List Nat} (hsorted : offsets.Pairwise (· ≤ ·)) {w : Nat × Nat}
    (hw : w ∈ windows offsets) :
    w.1 ∈ offsets ∧ w.2 ∈ offsets ∧ w.1 ≤ w.2 ∧ ∀ i ∈ offsets, i ≤ w.1 ∨ w.2 ≤ i := by
  induction offsets with
  | nil => cases hw
  | cons a offsets ih =>
      obtain ⟨ha, hoffsets⟩ := List.pairwise_cons.mp hsorted
      rcases offsets with - | ⟨b, offsets⟩
      · cases hw
      · rcases List.mem_cons.mp hw with rfl | hw
        · -- the first window: what comes later is not before its end
          have hb := (List.pairwise_cons.mp hoffsets).1
          refine ⟨by simp, by simp, ha b (by simp), ?_⟩
          intro i hi
          rcases List.mem_cons.mp hi with rfl | hi
          · exact .inl (Nat.le_refl _)
          rcases List.mem_cons.mp hi with rfl | hi
          · exact .inr (Nat.le_refl _)
          · exact .inr (hb i hi)
        · obtain ⟨hstart, hstop, hle, hinside⟩ := ih hoffsets hw
          refine ⟨List.mem_cons_of_mem _ hstart, List.mem_cons_of_mem _ hstop, hle, ?_⟩
          rw [List.forall_mem_cons]
          exact ⟨.inl (ha w.1 hstart), hinside⟩

/-- A slice of a text stands in it where its offsets say. -/
theorem eq_append_extract {text : List Char} {a b : Nat} (hab : a ≤ b) :
    text = text.take a ++ text.extract a b ++ text.drop b := by
  rw [List.extract_eq_take_drop, ← List.take_add, Nat.add_sub_of_le hab,
    List.take_append_drop]

namespace WordSplitter

/-- Pieces between sorted cuts are slices. -/
theorem piecesAt_eq_slices (run : List Char) {start : Nat} {cuts : List Nat}
    (hsorted : (start :: (cuts ++ [run.length])).Pairwise (· ≤ ·)) :
    piecesAt start (run.drop start) cuts
      = ((windows (start :: (cuts ++ [run.length]))).map fun w => run.extract w.1 w.2).filter
          (!·.isEmpty) := by
  induction cuts generalizing start with
  | nil =>
      have hlast : run.extract start run.length = run.drop start := by
        rw [List.extract_eq_take_drop, ← List.length_drop, List.take_length]
      show (if (run.drop start).isEmpty then [] else [run.drop start])
        = [run.extract start run.length].filter (!·.isEmpty)
      rw [hlast, List.filter_singleton]
      cases (run.drop start).isEmpty <;> rfl
  | cons cut cuts ih =>
      obtain ⟨hstart, hrest⟩ := List.pairwise_cons.mp hsorted
      have hcut : start ≤ cut := hstart cut (by simp)
      have hdrop : (run.drop start).drop (cut - start) = run.drop cut := by
        rw [List.drop_drop, Nat.add_sub_of_le hcut]
      show (if ((run.drop start).take (cut - start)).isEmpty then
          piecesAt cut ((run.drop start).drop (cut - start)) cuts
        else (run.drop start).take (cut - start)
          :: piecesAt cut ((run.drop start).drop (cut - start)) cuts)
        = (run.extract start cut :: (windows (cut :: (cuts ++ [run.length]))).map
            fun w => run.extract w.1 w.2).filter (!·.isEmpty)
      rw [hdrop, ih hrest, List.extract_eq_take_drop, List.filter_cons]
      cases ((run.drop start).take (cut - start)).isEmpty <;> rfl

variable {κ : Type} [Add κ] [LT κ] [DecidableLT κ] [OfNat κ 0] (s : WordSplitter κ)

/-! ### One character -/

/-- **What a character adds to the cuts**: one where it stands if the case rises to it,
one there or one place before if the case falls to it, and none otherwise. -/
theorem caseCutsFrom_cons (i : Nat) (before : Option Char) (prev c : Char) (cs : List Char) :
    let later := s.caseCutsFrom (i + 1) (some prev) c cs
    (s.tests.rises prev c = true ∧ s.caseCutsFrom i before prev (c :: cs) = i :: later) ∨
    (¬ s.tests.rises prev c = true ∧ (∃ b, before = some b ∧ s.tests.falls b prev c = true) ∧
      ∃ cut, (cut = i ∨ cut = i - 1) ∧
        s.caseCutsFrom i before prev (c :: cs) = cut :: later) ∨
    (¬ s.tests.rises prev c = true ∧ (∀ b, before = some b → ¬ s.tests.falls b prev c = true) ∧
      s.caseCutsFrom i before prev (c :: cs) = later) := by
  intro later
  by_cases hrises : s.tests.rises prev c = true
  · exact .inl ⟨hrises, if_pos hrises⟩
  have hnext : s.caseCutsFrom i before prev (c :: cs)
      = if s.tests.isLower c && s.tests.isUpper prev && before.any s.tests.isUpper then
          s.capitalCut i prev (c :: cs.takeWhile s.tests.isLower) :: later
        else later := if_neg hrises
  rcases before with - | b
  · refine .inr (.inr ⟨hrises, nofun, ?_⟩)
    rw [hnext]
    simp
  by_cases hfalls : s.tests.falls b prev c = true
  · refine .inr (.inl ⟨hrises, ⟨b, rfl, hfalls⟩, _, ?_, hnext.trans (if_pos hfalls)⟩)
    -- either cut serves; which one it is depends on the known words
    rw [capitalCut]
    split
    · exact .inl rfl
    · exact .inr rfl
  · refine .inr (.inr ⟨hrises, ?_, hnext.trans (if_neg hfalls)⟩)
    rintro b' ⟨⟩
    exact hfalls

/-- The cuts behind a character are among those from there on. -/
theorem caseCutsFrom_suffix_cons (i : Nat) (before : Option Char) (prev c : Char)
    (cs : List Char) :
    s.caseCutsFrom (i + 1) (some prev) c cs <:+ s.caseCutsFrom i before prev (c :: cs) := by
  rcases s.caseCutsFrom_cons i before prev c cs with ⟨-, h⟩ | ⟨-, -, cut, -, h⟩ | ⟨-, -, h⟩
  · exact h ▸ List.suffix_cons ..
  · exact h ▸ List.suffix_cons ..
  · exact h ▸ List.suffix_rfl

/-! ### The offsets of the cuts -/

/-- Cuts stand behind the character before the last, and before the end. -/
theorem caseCutsFrom_bounds {i : Nat} {before : Option Char} {prev : Char} {text : List Char}
    {cut : Nat} (hcut : cut ∈ s.caseCutsFrom i before prev text) :
    i - 1 ≤ cut ∧ (before = none → i ≤ cut) ∧ cut < i + text.length := by
  induction text generalizing i before prev with
  | nil => cases hcut
  | cons c cs ih =>
      have hlater (h : cut ∈ s.caseCutsFrom (i + 1) (some prev) c cs) :
          i - 1 ≤ cut ∧ (before = none → i ≤ cut) ∧ cut < i + (cs.length + 1) := by
        obtain ⟨hlow, -, hhigh⟩ := ih h
        exact ⟨by omega, fun _ => by omega, by omega⟩
      rw [List.length_cons]
      rcases s.caseCutsFrom_cons i before prev c cs with
        ⟨-, h⟩ | ⟨-, ⟨b, rfl, -⟩, cut', hplace, h⟩ | ⟨-, -, h⟩
      · rw [h, List.mem_cons] at hcut
        rcases hcut with rfl | hcut
        · exact ⟨Nat.sub_le .., fun _ => Nat.le_refl _, by omega⟩
        · exact hlater hcut
      · rw [h, List.mem_cons] at hcut
        rcases hcut with rfl | hcut
        · exact ⟨by omega, nofun, by omega⟩
        · exact hlater hcut
      · exact hlater (h ▸ hcut)

theorem caseCutsFrom_pairwise (i : Nat) (before : Option Char) (prev : Char)
    (text : List Char) : (s.caseCutsFrom i before prev text).Pairwise (· ≤ ·) := by
  induction text generalizing i before prev with
  | nil => exact .nil
  | cons c cs ih =>
      have hlater := ih (i + 1) (some prev) c
      have hlow {cut : Nat} (hcut : cut ∈ s.caseCutsFrom (i + 1) (some prev) c cs) : i ≤ cut :=
        (s.caseCutsFrom_bounds hcut).1
      rcases s.caseCutsFrom_cons i before prev c cs with
        ⟨-, h⟩ | ⟨-, -, cut, hplace, h⟩ | ⟨-, -, h⟩
      · rw [h]
        exact .cons (fun cut hcut => hlow hcut) hlater
      · rw [h]
        refine .cons (fun cut' hcut' => ?_) hlater
        have := hlow hcut'
        omega
      · rw [h]
        exact hlater

/-- **Cuts lie inside the run**, none of them at its ends. -/
theorem caseCuts_bounds {run : List Char} {cut : Nat} (hcut : cut ∈ s.caseCuts run) :
    0 < cut ∧ cut < run.length := by
  rcases run with - | ⟨c, cs⟩
  · cases hcut
  · obtain ⟨-, hlow, hhigh⟩ := s.caseCutsFrom_bounds hcut
    rw [List.length_cons]
    exact ⟨hlow rfl, by omega⟩

/-- **Cuts never decrease**, from the start of the run to its end. -/
theorem caseCuts_sorted (run : List Char) :
    (0 :: (s.caseCuts run ++ [run.length])).Pairwise (· ≤ ·) := by
  have hcuts : (s.caseCuts run).Pairwise (· ≤ ·) := by
    rcases run with - | ⟨c, cs⟩
    · exact .nil
    · exact s.caseCutsFrom_pairwise 1 none c cs
  refine .cons (fun _ _ => Nat.zero_le _) (List.pairwise_append.mpr ⟨hcuts, by simp, ?_⟩)
  intro cut hcut last hlast
  rw [List.mem_singleton.mp hlast]
  exact Nat.le_of_lt (s.caseCuts_bounds hcut).2

/-- **The words of a run are its slices** from one cut to the next, without the empty
ones. -/
theorem caseWords_eq_slices (run : List Char) :
    s.caseWords run = ((windows (0 :: (s.caseCuts run ++ [run.length]))).map
      fun w => run.extract w.1 w.2).filter (!·.isEmpty) :=
  piecesAt_eq_slices run (s.caseCuts_sorted run)

/-! ### Patterns and cuts -/

/-- The cuts behind an offset of the run are those of what stands there. -/
theorem caseCutsFrom_suffix (i : Nat) (before : Option Char) (prev : Char) (l : List Char)
    (x : Char) (r : List Char) :
    s.caseCutsFrom (i + l.length + 1) (prev :: l).getLast? x r
      <:+ s.caseCutsFrom i before prev (l ++ x :: r) := by
  induction l generalizing i before prev with
  | nil => exact s.caseCutsFrom_suffix_cons i before prev x r
  | cons c l ih =>
      have hlater := ih (i + 1) (some prev) c
      rw [List.getLast?_cons_cons, List.length_cons, Nat.add_comm l.length, ← Nat.add_assoc]
      exact hlater.trans (s.caseCutsFrom_suffix_cons i before prev c (l ++ x :: r))

theorem caseCuts_suffix (l : List Char) (x : Char) (r : List Char) :
    s.caseCutsFrom (l.length + 1) l.getLast? x r <:+ s.caseCuts (l ++ x :: r) := by
  rcases l with - | ⟨c, l⟩
  · exact List.suffix_rfl
  · have hlater := s.caseCutsFrom_suffix 1 none c l x r
    rwa [Nat.add_comm 1] at hlater

/-- A run is cut where the case rises. -/
theorem mem_caseCuts_of_rises {x y : Char} (h : s.tests.rises x y = true)
    (l r : List Char) : l.length + 1 ∈ s.caseCuts (l ++ x :: y :: r) := by
  apply (s.caseCuts_suffix l x (y :: r)).subset
  rcases s.caseCutsFrom_cons (l.length + 1) l.getLast? x y r with
    ⟨-, hcuts⟩ | ⟨hnot, -⟩ | ⟨hnot, -⟩
  · rw [hcuts]
    exact List.mem_cons_self ..
  · exact absurd h hnot
  · exact absurd h hnot

/-- A run is cut where the case falls, on one side of the last capital or the other. -/
theorem mem_caseCuts_of_falls {x y z : Char} (h : s.tests.falls x y z = true)
    (l r : List Char) :
    l.length + 1 ∈ s.caseCuts (l ++ x :: y :: z :: r) ∨
      l.length + 2 ∈ s.caseCuts (l ++ x :: y :: z :: r) := by
  have hsuffix := s.caseCuts_suffix (l ++ [x]) y (z :: r)
  rw [List.length_append, List.length_singleton, List.getLast?_concat, List.append_assoc,
    List.singleton_append] at hsuffix
  rcases s.caseCutsFrom_cons (l.length + 2) (some x) y z r with
    ⟨-, hcuts⟩ | ⟨-, -, cut, hplace, hcuts⟩ | ⟨-, hnot, -⟩
  · -- the case rises and falls at once if classes overlap
    exact .inr (hsuffix.subset (hcuts ▸ List.mem_cons_self ..))
  · have hcut := hsuffix.subset (hcuts ▸ List.mem_cons_self ..)
    rcases hplace with rfl | rfl
    · exact .inr hcut
    · exact .inl hcut
  · exact absurd h (hnot x rfl)

/-- **A word of a run stands in it**, and no cut lies inside. -/
theorem exists_eq_append_of_mem_caseWords {run word : List Char}
    (hword : word ∈ s.caseWords run) :
    ∃ l r, run = l ++ word ++ r ∧
      ∀ cut ∈ s.caseCuts run, cut ≤ l.length ∨ l.length + word.length ≤ cut := by
  rw [caseWords_eq_slices] at hword
  obtain ⟨⟨a, b⟩, hwindow, rfl⟩ := List.mem_map.mp (List.mem_filter.mp hword).1
  obtain ⟨-, hb, hab, hinside⟩ := mem_windows (s.caseCuts_sorted run) hwindow
  refine ⟨run.take a, run.drop b, eq_append_extract hab, fun cut hcut => ?_⟩
  have houtside : cut ≤ a ∨ b ≤ cut :=
    hinside cut (List.mem_cons_of_mem _ (List.mem_append_left _ hcut))
  have hbound : b ≤ run.length := by
    rcases List.mem_cons.mp hb with rfl | hb
    · exact Nat.zero_le _
    rcases List.mem_append.mp hb with hb | hb
    · exact Nat.le_of_lt (s.caseCuts_bounds hb).2
    · exact Nat.le_of_eq (List.mem_singleton.mp hb)
  rw [List.extract_eq_take_drop, List.length_take, List.length_take, List.length_drop]
  dsimp only at hab ⊢
  omega

/-- **The case is level in every word of a run.** -/
theorem level_of_mem_caseWords {run word : List Char} (hword : word ∈ s.caseWords run) :
    s.tests.Level word := by
  obtain ⟨before, after, rfl, houtside⟩ := s.exists_eq_append_of_mem_caseWords hword
  -- a pattern in the word is one in the run, and its cut would lie inside the word
  constructor
  · rintro x y ⟨l, r, rfl⟩ hrises
    have hcut := s.mem_caseCuts_of_rises hrises (before ++ l) (r ++ after)
    have := houtside ((before ++ l).length + 1) (by simpa using hcut)
    simp only [List.length_append, List.length_cons, List.length_nil] at this
    omega
  · rintro x y z ⟨l, r, rfl⟩ hfalls
    rcases s.mem_caseCuts_of_falls hfalls (before ++ l) (r ++ after) with hcut | hcut
    · have := houtside ((before ++ l).length + 1) (by simpa using hcut)
      simp only [List.length_append, List.length_cons, List.length_nil] at this
      omega
    · have := houtside ((before ++ l).length + 2) (by simpa using hcut)
      simp only [List.length_append, List.length_cons, List.length_nil] at this
      omega

theorem caseCutsFrom_of_level (i : Nat) (before : Option Char) {prev : Char} {cs : List Char}
    (h : s.tests.Level (before.toList ++ prev :: cs)) :
    s.caseCutsFrom i before prev cs = [] := by
  induction cs generalizing i before prev with
  | nil => rfl
  | cons c cs ih =>
      rcases s.caseCutsFrom_cons i before prev c cs with
        ⟨hrises, -⟩ | ⟨-, ⟨b, rfl, hfalls⟩, -⟩ | ⟨-, -, hcuts⟩
      · exact absurd hrises (h.no_rise prev c ⟨before.toList, cs, by simp⟩)
      · exact absurd hfalls (h.no_fall b prev c ⟨[], cs, rfl⟩)
      · -- what stands before `prev` does not matter for the rest
        rw [hcuts]
        exact ih (i + 1) (some prev) (h.of_part ⟨before.toList, [], by simp⟩)

/-- **A text in which the case is level has no cuts.** -/
theorem caseCuts_of_level {text : List Char} (h : s.tests.Level text) :
    s.caseCuts text = [] := by
  rcases text with - | ⟨c, cs⟩
  · rfl
  · exact s.caseCutsFrom_of_level 1 none h

end WordSplitter

end TokenAlignment
