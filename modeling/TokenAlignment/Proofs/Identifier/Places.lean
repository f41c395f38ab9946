/-
TokenAlignment/Proofs/Identifier/Places.lean

The place of a word in an identifier, and the run around it.

    text  =  left · word · right        with the words of `left` before it

The words are counted off by their letters: the words before this one are as many letters
and numbers as stand on its left (`exists_place`).

A word is cut out of the run that it stands in, and the run reaches from the last separator
on the left to the first one on the right.  Since the words of the run are words of the
text, in the same order, the words before this one in the run are what stands on its left
in the run (`exists_run`).

Main results: `Placed.exists_place`, `WordSplitter.exists_run`.
-/
import TokenAlignment.Proofs.Identifier.Conservation
import TokenAlignment.Proofs.Text.Pieces

namespace TokenAlignment

/-! ### The place of a word -/

/-- **A word stands behind the letters and numbers of the words before it**, and the words
after it stand behind it. -/
theorem Placed.exists_place {isWord : Char → Bool} {offset : Nat} {text : List Char}
    {placed : List (List Char × Span)} (h : Placed isWord offset text placed)
    {before after : List (List Char)} {word : List Char}
    (hwords : placed.map Prod.fst = before ++ word :: after) :
    ∃ left right, text = left ++ (word ++ right) ∧ left.filter isWord = before.flatten ∧
      ∃ offset' placed', Placed isWord offset' right placed' ∧
        placed'.map Prod.fst = after := by
  induction h generalizing before with
  | done => simp at hwords
  | @skip offset c text placed separator rest ih =>
      obtain ⟨left, right, rfl, hleft, hafter⟩ := ih hwords
      refine ⟨c :: left, right, rfl, ?_, hafter⟩
      rw [List.filter_cons_of_neg separator, hleft]
  | @piece offset piece text placed nonempty word' rest ih =>
      rw [List.map_cons] at hwords
      rcases before with - | ⟨first, before⟩
      · rw [List.nil_append, List.cons.injEq] at hwords
        obtain ⟨rfl, hafter⟩ := hwords
        exact ⟨[], text, rfl, rfl, _, placed, rest, hafter⟩
      · rw [List.cons_append, List.cons.injEq] at hwords
        obtain ⟨rfl, hwords⟩ := hwords
        obtain ⟨left, right, rfl, hleft, hafter⟩ := ih hwords
        refine ⟨piece ++ left, right, by rw [List.append_assoc], ?_, hafter⟩
        rw [List.filter_append, List.filter_eq_self.mpr word', hleft, List.flatten_cons]

/-- Two words that follow each other have only separators between them. -/
theorem WordSplitter.exists_places {κ : Type} [Add κ] [LT κ] [DecidableLT κ] [OfNat κ 0]
    (s : WordSplitter κ) {text : List Char} {before after : List (List Char)}
    {p q : List Char} (h : s.split text = before ++ p :: q :: after) :
    ∃ left gap right, text = left ++ p ++ gap ++ q ++ right ∧
      left.filter s.tests.isWord = before.flatten ∧
      ∀ c ∈ gap, ¬ s.tests.isWord c = true := by
  obtain ⟨placed, hplaced, hpieces⟩ := s.exists_placed_split 0 text
  obtain ⟨left, rest, rfl, hleft, offset, later, hlater, hafter⟩ :=
    hplaced.exists_place (hpieces.trans h)
  have hnext : later.map Prod.fst = [] ++ q :: after := hafter
  obtain ⟨gap, right, rfl, hgap, -⟩ := hlater.exists_place hnext
  refine ⟨left, gap, right, by simp, hleft, ?_⟩
  exact List.filter_eq_nil_iff.mp hgap

/-! ### The run around a word -/

namespace WordSplitter

open Text (EndsOutside BeginsOutside)

variable {κ : Type} [Add κ] [LT κ] [DecidableLT κ] [OfNat κ 0] (s : WordSplitter κ)

/-- Texts are split on their own if the first ends outside a run. -/
theorem split_append_of_endsOutside {a : List Char} (ha : EndsOutside s.tests.isWord a)
    (b : List Char) : s.split (a ++ b) = s.split a ++ s.split b := by
  rcases List.eq_nil_or_concat a with rfl | ⟨front, c, rfl⟩
  · rfl
  · have hc : ¬ s.tests.isWord c = true := ha c (by simp)
    rw [List.concat_eq_append, List.append_assoc, List.singleton_append,
      s.split_append_cons front hc, s.split_append_cons front hc]
    show _ = s.split front ++ [] ++ s.split b
    rw [List.append_nil]

/-- Texts are split on their own if the second begins outside a run. -/
theorem split_append_of_beginsOutside (a : List Char) {b : List Char}
    (hb : BeginsOutside s.tests.isWord b) : s.split (a ++ b) = s.split a ++ s.split b := by
  rcases b with - | ⟨c, back⟩
  · show s.split (a ++ []) = s.split a ++ []
    rw [List.append_nil, List.append_nil]
  · have hc : ¬ s.tests.isWord c = true := hb c rfl
    have hback := s.split_append_cons [] hc back
    rw [List.nil_append] at hback
    rw [s.split_append_cons a hc, hback]
    rfl

/-- A run is split by case and then by known words. -/
theorem split_of_all {run : List Char} (hrun : ∀ c ∈ run, s.tests.isWord c = true) :
    s.split run = (s.caseWords run).flatMap s.refine := by
  rcases run with - | ⟨c, run⟩
  · rfl
  · rw [split, Text.runs_of_all (List.cons_ne_nil c run) hrun, List.flatMap_singleton]

/-- **Words that stand side by side are words of one run**, and those before them in it are
what stands on their left. -/
theorem exists_run {left right : List Char} {words before after : List (List Char)}
    (h : s.split (left ++ words.flatten ++ right) = before ++ words ++ after)
    (hplace : left.filter s.tests.isWord = before.flatten) :
    ∃ a l r b front back, left = a ++ l ∧ right = r ++ b ∧ EndsOutside s.tests.isWord a ∧
      (∀ c ∈ l ++ words.flatten ++ r, s.tests.isWord c = true) ∧
      s.split (l ++ words.flatten ++ r) = front ++ words ++ back ∧
      front.flatten = l ∧ back.flatten = r := by
  obtain ⟨a, l, rfl, ha, hl⟩ := Text.exists_endsOutside s.tests.isWord left
  obtain ⟨r, b, rfl, hb, hr⟩ := Text.exists_beginsOutside s.tests.isWord right
  have hwords : ∀ c ∈ words.flatten, s.tests.isWord c = true := by
    intro c hc
    have hmem : c ∈ (before ++ words ++ after).flatten := by simp [hc]
    rw [← h, s.flatten_split] at hmem
    exact (List.mem_filter.mp hmem).2
  have hrun : ∀ c ∈ l ++ words.flatten ++ r, s.tests.isWord c = true := by
    simp only [List.forall_mem_append]
    exact ⟨⟨hl, hwords⟩, hr⟩
  have hsplit : s.split (a ++ l ++ words.flatten ++ (r ++ b))
      = s.split a ++ (s.split (l ++ words.flatten ++ r) ++ s.split b) := by
    rw [← s.split_append_of_beginsOutside _ hb, ← s.split_append_of_endsOutside ha]
    simp only [List.append_assoc]
  -- the words on the left of the run come first
  rw [List.filter_append, List.filter_eq_self.mpr hl, ← s.flatten_split] at hplace
  have hlists : s.split a ++ (s.split (l ++ words.flatten ++ r) ++ s.split b)
      = before ++ (words ++ after) := by
    rw [← hsplit, h, List.append_assoc]
  obtain ⟨front, -, hinner, hfront⟩ :=
    exists_append_of_flatten hlists (s.nil_notMem_split a) hplace.symm
  -- then those of the run
  have hne : [] ∉ front ++ words := by
    intro hnil
    apply s.nil_notMem_split (a ++ l ++ words.flatten ++ (r ++ b))
    rw [hsplit, hinner, ← List.append_assoc front]
    simp only [List.mem_append] at hnil ⊢
    exact .inr (.inl hnil)
  have htext : (s.split (l ++ words.flatten ++ r)).flatten = (front ++ words).flatten ++ r := by
    rw [(s.isCut_split_of_all hrun).2, List.flatten_append, hfront]
  rw [← List.append_assoc front] at hinner
  obtain ⟨back, hback, -, hr⟩ := exists_append_of_flatten hinner.symm hne htext
  exact ⟨a, l, r, b, front, back, rfl, rfl, ha, hrun, hback, hfront, hr⟩

end WordSplitter

end TokenAlignment
