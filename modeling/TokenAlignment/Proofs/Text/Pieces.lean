/-
TokenAlignment/Proofs/Text/Pieces.lean

Texts in pieces, and where a class of characters ends.

A list of nonempty pieces has one beginning for each beginning of the text that ends with a
piece:

    first ++ more  =  second ++ rest   and   second  holds  first · text
    imply   second  =  first ++ middle   and   middle  holds  text

Main result: `exists_append_of_flatten`.
-/
import Mathlib.Data.List.DropRight

namespace TokenAlignment

/-! ### Borders of a class -/

namespace Text

/-- The text ends outside the class, or is empty. -/
def EndsOutside (p : Char → Bool) (text : List Char) : Prop :=
  ∀ c ∈ text.getLast?, ¬ p c = true

/-- The text begins outside the class, or is empty. -/
def BeginsOutside (p : Char → Bool) (text : List Char) : Prop :=
  ∀ c ∈ text.head?, ¬ p c = true

theorem EndsOutside.of_append {p : Char → Bool} {front back : List Char}
    (h : EndsOutside p (front ++ back)) : EndsOutside p back := by
  intro c hc
  apply h
  rw [List.getLast?_append, hc]
  rfl

variable (p : Char → Bool) (text : List Char)

/-- What stands at the end of a text may be taken off as far as it is of the class. -/
theorem exists_endsOutside :
    ∃ front run, text = front ++ run ∧ EndsOutside p front ∧ ∀ c ∈ run, p c = true := by
  refine ⟨text.rdropWhile p, text.rtakeWhile p, List.rdropWhile_append_rtakeWhile.symm, ?_,
    fun c hc => List.mem_rtakeWhile_imp hc⟩
  intro c hc
  have hne : text.rdropWhile p ≠ [] := by
    intro hnil
    rw [hnil] at hc
    cases hc
  rw [List.getLast?_eq_some_getLast hne] at hc
  cases hc
  exact List.rdropWhile_last_not p text hne

/-- What stands at the start of a text may be taken off as far as it is of the class. -/
theorem exists_beginsOutside :
    ∃ run back, text = run ++ back ∧ BeginsOutside p back ∧ ∀ c ∈ run, p c = true := by
  refine ⟨text.takeWhile p, text.dropWhile p, List.takeWhile_append_dropWhile.symm, ?_,
    List.all_eq_true.mp List.all_takeWhile⟩
  intro c hc
  have hhead := List.head?_dropWhile_not p text
  rw [hc] at hhead
  simp [hhead]

end Text

/-! ### Pieces -/

/-- Of two lists of pieces that go on to the same one, the one with more text in it begins
with the other. -/
theorem exists_append_of_flatten {first second more rest : List (List Char)}
    {text : List Char} (h : first ++ more = second ++ rest) (hne : [] ∉ first)
    (htext : second.flatten = first.flatten ++ text) :
    ∃ middle, second = first ++ middle ∧ more = middle ++ rest ∧ middle.flatten = text := by
  rcases List.append_eq_append_iff.mp h with ⟨middle, rfl, hmore⟩ | ⟨middle, rfl, hrest⟩
  · rw [List.flatten_append, List.append_cancel_left_eq] at htext
    exact ⟨middle, rfl, hmore, htext⟩
  · -- no text is left for the middle
    rw [List.flatten_append, List.append_assoc, List.self_eq_append_right,
      List.append_eq_nil_iff] at htext
    obtain ⟨hmiddle, rfl⟩ := htext
    rcases middle with - | ⟨piece, middle⟩
    · exact ⟨[], by simp, by simpa using hrest.symm, rfl⟩
    · rw [List.flatten_cons, List.append_eq_nil_iff] at hmiddle
      simp [hmiddle.1] at hne

end TokenAlignment
