/-
TokenAlignment/Report/CsvNumber.lean

Numbers as fields of a table of comma-separated values.

The tables are written and read over any type of numbers with a text form.
The text of a number is a field as it stands: no comma cuts it, and no white
space around it is trimmed off.

Floating-point numbers are written without an exponent, with the fewest digits
that read back.
-/
import TokenAlignment.Decimal.Reading
import TokenAlignment.Decimal.Shortest
import TokenAlignment.Text.Blank

namespace TokenAlignment

namespace Csv

/-- Whether a text holds neither commas nor white space. -/
def IsField (text : List Char) : Prop :=
  ∀ c ∈ text, c ≠ ',' ∧ isBlank c = false

instance (text : List Char) : Decidable (IsField text) :=
  decidable_of_iff (text.all (fun c => c != ',' && !isBlank c) = true) (by simp [IsField])

namespace IsField

theorem append {a b : List Char} (ha : IsField a) (hb : IsField b) : IsField (a ++ b) := by
  intro c hc
  rcases List.mem_append.mp hc with hc | hc
  · exact ha c hc
  · exact hb c hc

theorem of_subset {a b : List Char} (hb : IsField b) (h : a ⊆ b) : IsField a :=
  fun c hc => hb c (h hc)

theorem replicate {c : Char} (hc : IsField [c]) (n : Nat) : IsField (List.replicate n c) := by
  intro c' hc'
  rw [List.eq_of_mem_replicate hc']
  exact hc c (List.mem_singleton_self c)

/-- The digits of a number are a field. -/
theorem digits (n : Nat) : IsField (Natural.digits n) := by
  intro c hc
  have hdigit : c.isDigit = true := Nat.isDigit_of_mem_toDigits (by decide) (by decide) hc
  simp only [Char.isDigit, Bool.and_eq_true, decide_eq_true_eq, UInt32.le_iff_toNat_le] at hdigit
  have hlow : 48 ≤ c.toNat := hdigit.1
  have hhigh : c.toNat ≤ 57 := hdigit.2
  refine ⟨?_, ?_⟩
  · rintro rfl
    exact absurd hlow (by decide)
  · have hspace : c ≠ ' ' := by
      rintro rfl
      exact absurd hlow (by decide)
    simp only [isBlank, if_pos (show c.toNat < 0x80 by omega), Bool.or_eq_false_iff,
      decide_eq_false_iff_not, Bool.and_eq_false_iff]
    exact ⟨hspace, .inr (by omega)⟩

end IsField

end Csv

/-- Numbers with a text form for fields. -/
class CsvNumber (α : Type) where
  write : α → List Char
  read : List Char → Except FloatError α
  isField_write : ∀ x, Csv.IsField (write x)

namespace CsvNumber

/-- A floating-point number without an exponent; of two nearest candidates the
greater one is written. -/
def writeFloat (x : Float) : List Char :=
  if x.isNaN then "NaN".toList
  else if x.isInf then Decimal.signText (Dyadic.isNegative x) ++ "inf".toList
  else (Decimal.shortest .up x).plain

theorem isField_signText (negative : Bool) : Csv.IsField (Decimal.signText negative) := by
  cases negative <;> decide

/-- A decimal number without an exponent is a field. -/
theorem isField_plain (d : Decimal) : Csv.IsField d.plain := by
  have hdigits := Csv.IsField.digits d.coefficient
  have hzeros (n : Nat) : Csv.IsField (List.replicate n '0') := .replicate (by decide) n
  have hwhole (point : Int) :
      Csv.IsField (Decimal.wholePart (Natural.digits d.coefficient) point) := by
    rw [Decimal.wholePart]
    split
    · decide
    · exact (hdigits.of_subset (List.take_subset ..)).append (hzeros _)
  have hfraction (point : Int) :
      Csv.IsField (Decimal.fractionPart (Natural.digits d.coefficient) point) := by
    rw [Decimal.fractionPart]
    split
    · exact (hzeros _).append hdigits
    · exact hdigits.of_subset (List.drop_subset ..)
  rw [Decimal.plain]
  refine ((isField_signText _).append (hwhole _)).append ?_
  split
  · decide
  · exact Csv.IsField.append (a := ['.']) (by decide) (hfraction _)

theorem isField_writeFloat (x : Float) : Csv.IsField (writeFloat x) := by
  rw [writeFloat]
  split
  · decide
  split
  · exact (isField_signText _).append (by decide)
  · exact isField_plain _

instance : CsvNumber Float where
  write := writeFloat
  read := readFloat
  isField_write := isField_writeFloat

end CsvNumber

end TokenAlignment
