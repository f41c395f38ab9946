/-
TokenAlignment/Proofs/Json/Number.lean

Numbers in JSON texts: what is written is a number of the grammar,

    [-] whole [. digits] [e sign digits]        with no superfluous zero in front,

and the reader takes a number of the grammar off a text as a whole, up to a character that cannot
go on with it (`number?_append`).  A word is written as its digits; a finite floating-point number
is written in the grammar as its shortest decimal number has no zero in front of its digits
(`isNumber_writeDecimal`), and the others are written as null.
-/
import TokenAlignment.Json.Number
import TokenAlignment.Json.Reader
import TokenAlignment.Proofs.Decimal.Natural
import TokenAlignment.Proofs.Decimal.Shortest

namespace TokenAlignment

namespace Json

/-! ### The grammar -/

/-- Digits, at least one. -/
structure IsDigits (ds : List Char) : Prop where
  ne_nil : ds ≠ []
  isDigit : ∀ c ∈ ds, c.isDigit = true

/-- The whole part of a number. -/
inductive IsWholePart : List Char → Prop
  | zero : IsWholePart ['0']
  | digits {ds} : IsDigits ds → ds.head? ≠ some '0' → IsWholePart ds

/-- The fraction of a number, if there is one. -/
inductive IsFraction : List Char → Prop
  | none : IsFraction []
  | digits {ds} : IsDigits ds → IsFraction ('.' :: ds)

/-- The exponent of a number, if there is one. -/
inductive IsExponent : List Char → Prop
  | none : IsExponent []
  | digits {sign ds} : sign = '-' ∨ sign = '+' → IsDigits ds → IsExponent ('e' :: sign :: ds)

/-- The numbers that are written. -/
inductive IsNumber : List Char → Prop
  | intro (negative : Bool) {whole fraction exponent} : IsWholePart whole → IsFraction fraction →
      IsExponent exponent →
      IsNumber (Decimal.signText negative ++ (whole ++ (fraction ++ exponent)))

/-- Whether a text cannot go on with digits. -/
def EndsDigits (rest : List Char) : Prop :=
  ∀ c ∈ rest.head?, c.isDigit = false

/-- Whether a text cannot go on with a number. -/
def EndsNumber (rest : List Char) : Prop :=
  ∀ c ∈ rest.head?, c.isDigit = false ∧ c ≠ '.' ∧ c ≠ 'e' ∧ c ≠ 'E'

variable {lexeme rest : List Char}

theorem IsWholePart.exists_cons {whole : List Char} (h : IsWholePart whole) :
    ∃ c ds, whole = c :: ds ∧ c.isDigit = true := by
  cases h with
  | zero => exact ⟨'0', [], rfl, rfl⟩
  | digits hdigits =>
      rcases whole with - | ⟨c, ds⟩
      · exact absurd rfl hdigits.ne_nil
      · exact ⟨c, ds, rfl, hdigits.isDigit c List.mem_cons_self⟩

/-- A number begins with a sign or with a digit. -/
theorem IsNumber.exists_cons (h : IsNumber lexeme) :
    ∃ c cs, lexeme = c :: cs ∧ (c = '-' ∨ c.isDigit = true) := by
  obtain ⟨_ | _, hwhole, -, -⟩ := h
  · obtain ⟨c, ds, rfl, hc⟩ := hwhole.exists_cons
    exact ⟨c, _, rfl, .inr hc⟩
  · exact ⟨'-', _, rfl, .inl rfl⟩

/-! ### Reading -/

theorem EndsNumber.endsDigits (h : EndsNumber rest) : EndsDigits rest :=
  fun c hc => (h c hc).1

theorem digits?_append {ds : List Char} (h : IsDigits ds) (hrest : EndsDigits rest) :
    digits? (ds ++ rest) = some (ds, rest) := by
  have htake : (ds ++ rest).takeWhile Char.isDigit = ds := by
    rw [List.takeWhile_append_of_pos h.isDigit]
    rcases rest with - | ⟨c, rest⟩
    · exact List.append_nil ds
    · rw [List.takeWhile_cons_of_neg (by simp [hrest c rfl]), List.append_nil]
  have hdrop : (ds ++ rest).dropWhile Char.isDigit = rest := by
    rw [List.dropWhile_append_of_pos h.isDigit]
    rcases rest with - | ⟨c, rest⟩
    · rfl
    · rw [List.dropWhile_cons_of_neg (by simp [hrest c rfl])]
  rw [digits?, htake, hdrop]
  split
  · exact absurd rfl h.ne_nil
  · rfl

theorem whole?_append {whole : List Char} (h : IsWholePart whole) (hrest : EndsDigits rest) :
    whole? (whole ++ rest) = some (whole, rest) := by
  cases h with
  | zero => rfl
  | digits hdigits hzero =>
      rcases whole with - | ⟨c, ds⟩
      · exact absurd rfl hdigits.ne_nil
      · have hc : c ≠ '0' := fun hc => hzero (congrArg some hc)
        rw [List.cons_append, whole?, ← List.cons_append, digits?_append hdigits hrest]
        intro s hs
        exact hc (List.cons.inj hs).1

theorem fraction?_append {fraction : List Char} (h : IsFraction fraction)
    (hrest : ∀ c ∈ rest.head?, c.isDigit = false ∧ c ≠ '.') :
    fraction? (fraction ++ rest) = some (fraction, rest) := by
  cases h with
  | none =>
      rw [List.nil_append, fraction?]
      intro s hs
      exact (hrest '.' (by rw [hs]; rfl)).2 rfl
  | digits hdigits =>
      rw [List.cons_append, fraction?, digits?_append hdigits fun c hc => (hrest c hc).1]
      rfl

theorem exponent?_append {exponent : List Char} (h : IsExponent exponent)
    (hrest : EndsNumber rest) : exponent? (exponent ++ rest) = some (exponent, rest) := by
  cases h with
  | none =>
      rcases rest with - | ⟨c, rest⟩
      · rfl
      · obtain ⟨-, -, hlower, hupper⟩ := hrest c rfl
        rw [List.nil_append, exponent?, if_neg (by simp [hlower, hupper])]
  | @digits sign ds hsign hdigits =>
      rw [List.cons_append, List.cons_append, exponent?, if_pos (.inl rfl)]
      have hsigned : exponentSign (sign :: (ds ++ rest)) = ([sign], ds ++ rest) := by
        rcases hsign with rfl | rfl <;> rfl
      rw [hsigned]
      dsimp only
      rw [digits?_append hdigits hrest.endsDigits]
      rfl

/-- **A number is taken off a text.** -/
theorem number?_append (h : IsNumber lexeme) (hrest : EndsNumber rest) :
    number? (lexeme ++ rest) = some (lexeme, rest) := by
  obtain ⟨negative, hwhole, hfraction, hexponent⟩ := h
  rename_i whole fraction exponent
  -- what stands behind a part, the next part or the rest, cannot go on with it
  have hexponent' : ∀ c ∈ (exponent ++ rest).head?, c.isDigit = false ∧ c ≠ '.' := by
    cases hexponent with
    | none => exact fun c hc => ⟨(hrest c hc).1, (hrest c hc).2.1⟩
    | digits => simp
  have hfraction' : EndsDigits (fraction ++ (exponent ++ rest)) := by
    cases hfraction with
    | none => exact fun c hc => (hexponent' c hc).1
    | digits => simp [EndsDigits]
  have hunsigned : unsigned? (whole ++ (fraction ++ exponent) ++ rest)
      = some (whole ++ (fraction ++ exponent), rest) := by
    rw [unsigned?, List.append_assoc, List.append_assoc, whole?_append hwhole hfraction']
    dsimp only [Option.bind_some]
    rw [fraction?_append hfraction hexponent']
    dsimp only [Option.bind_some]
    rw [exponent?_append hexponent hrest]
    simp
  cases negative with
  | true =>
      show number? ('-' :: (whole ++ (fraction ++ exponent) ++ rest)) = _
      rw [number?, hunsigned]
      rfl
  | false =>
      show number? (whole ++ (fraction ++ exponent) ++ rest) = _
      rw [number?, hunsigned]
      · rfl
      · intro s hs
        obtain ⟨c, ds, rfl, hc⟩ := hwhole.exists_cons
        obtain rfl : c = '-' := (List.cons.inj hs).1
        exact absurd hc (by decide)

/-! ### Writing -/

theorem isDigits_digits (n : Nat) : IsDigits (Natural.digits n) :=
  ⟨Nat.toDigits_ne_nil, fun _ => Natural.isDigit_of_mem_digits⟩

theorem isWholePart_digits (n : Nat) : IsWholePart (Natural.digits n) := by
  by_cases hn : n = 0
  · rw [hn]
    exact .zero
  · exact .digits (isDigits_digits n) (Natural.head?_digits_ne hn)

/-- The digits of a natural number are a number. -/
theorem isNumber_digits (n : Nat) : IsNumber (Natural.digits n) := by
  have h : IsNumber (Natural.digits n ++ ([] ++ [])) :=
    .intro false (isWholePart_digits n) .none .none
  rwa [List.append_nil, List.append_nil] at h

end Json

namespace JsonNumber

open Json

theorem isDigit_of_mem_wholePart {ds : List Char} (hds : ∀ c ∈ ds, c.isDigit = true)
    {point : Int} {c : Char} (hc : c ∈ Decimal.wholePart ds point) : c.isDigit = true := by
  rw [Decimal.wholePart] at hc
  split at hc
  · rw [List.mem_singleton.mp hc]
    rfl
  · rcases List.mem_append.mp hc with hc | hc
    · exact hds c (List.mem_of_mem_take hc)
    · rw [List.eq_of_mem_replicate hc]
      rfl

theorem isDigit_of_mem_fractionPart {ds : List Char} (hds : ∀ c ∈ ds, c.isDigit = true)
    {point : Int} {c : Char} (hc : c ∈ Decimal.fractionPart ds point) : c.isDigit = true := by
  rw [Decimal.fractionPart] at hc
  split at hc
  · rcases List.mem_append.mp hc with hc | hc
    · rw [List.eq_of_mem_replicate hc]
      rfl
    · exact hds c hc
  · exact hds c (List.mem_of_mem_drop hc)

/-- A decimal number in the form that it is written in. -/
def IsUnsigned (text : List Char) : Prop :=
  ∃ whole fraction exponent, text = whole ++ (fraction ++ exponent) ∧ IsWholePart whole ∧
    IsFraction fraction ∧ IsExponent exponent

theorem isUnsigned_withPoint {ds : List Char} (hds : IsDigits ds) (hzero : ds.head? ≠ some '0')
    (point : Int) : IsUnsigned (withPoint ds point) := by
  refine ⟨Decimal.wholePart ds point, _, [], by rw [List.append_nil]; rfl, ?_, .digits ?_, .none⟩
  · have hdigits : ∀ c ∈ Decimal.wholePart ds point, c.isDigit = true :=
      fun _ => isDigit_of_mem_wholePart hds.isDigit
    by_cases hpoint : point ≤ 0
    · rw [Decimal.wholePart, if_pos hpoint]
      exact .zero
    · -- the first digit comes first
      obtain ⟨c, cs, rfl⟩ := List.exists_cons_of_ne_nil hds.ne_nil
      obtain ⟨k, hk⟩ : ∃ k, point.toNat = k + 1 := ⟨point.toNat - 1, by omega⟩
      have hhead : (Decimal.wholePart (c :: cs) point).head? = some c := by
        rw [Decimal.wholePart, if_neg hpoint, hk]
        rfl
      refine .digits ⟨fun hnil => ?_, hdigits⟩ (by rwa [hhead])
      rw [hnil] at hhead
      cases hhead
  · refine ⟨?_, fun c hc => ?_⟩
    · split
      · exact List.cons_ne_nil _ _
      · rename_i hempty
        rwa [List.isEmpty_iff] at hempty
    · split at hc
      · rw [List.mem_singleton.mp hc]
        rfl
      · exact isDigit_of_mem_fractionPart hds.isDigit hc

theorem isUnsigned_withExponent {ds : List Char} (hds : IsDigits ds)
    (hzero : ds.head? ≠ some '0') (point : Int) : IsUnsigned (withExponent ds point) := by
  have hexponent : IsExponent ('e' :: (if point - 1 < 0 then '-' else '+') ::
      Natural.digits (point - 1).natAbs) := by
    refine .digits ?_ (isDigits_digits _)
    split
    · exact .inl rfl
    · exact .inr rfl
  obtain ⟨c, cs, rfl⟩ := List.exists_cons_of_ne_nil hds.ne_nil
  have hwhole : IsWholePart [c] :=
    .digits ⟨List.cons_ne_nil _ _, fun c' hc' => hds.isDigit c' (by simp_all)⟩ hzero
  rcases cs with - | ⟨c', cs⟩
  · exact ⟨[c], [], _, rfl, hwhole, .none, hexponent⟩
  · have hfraction : IsDigits (c' :: cs) :=
      ⟨List.cons_ne_nil _ _, fun c hc => hds.isDigit c (List.mem_cons_of_mem _ hc)⟩
    exact ⟨[c], '.' :: c' :: cs, _, rfl, hwhole, .digits hfraction, hexponent⟩

/-- **A decimal number is written in the grammar**, unless it is a zero with an exponent. -/
theorem isNumber_writeDecimal {d : Decimal}
    (hd : d.coefficient ≠ 0 ∨ d.coefficient = 0 ∧ d.exponent = 0) :
    IsNumber (writeDecimal d) := by
  have hunsigned : ∃ text, writeDecimal d = Decimal.signText d.negative ++ text ∧
      IsUnsigned text := by
    refine ⟨_, rfl, ?_⟩
    have hdigits := isDigits_digits d.coefficient
    rcases hd with hcoefficient | ⟨hcoefficient, hexponent⟩
    · have hzero := Natural.head?_digits_ne hcoefficient
      split
      · exact isUnsigned_withPoint hdigits hzero d.point
      · exact isUnsigned_withExponent hdigits hzero d.point
    · rw [if_pos (.inl hcoefficient), Decimal.point, hcoefficient, hexponent]
      exact ⟨['0'], ['.', '0'], [], rfl, .zero, .digits ⟨List.cons_ne_nil _ _, by simp⟩, .none⟩
  obtain ⟨text, htext, whole, fraction, exponent, rfl, hwhole, hfraction, hexponent⟩ := hunsigned
  rw [htext]
  exact .intro d.negative hwhole hfraction hexponent

/-! ### Floating-point numbers -/

/-- Whether a number is neither infinite nor undefined. -/
def IsFinite (x : Float) : Prop :=
  x.isNaN = false ∧ x.isInf = false

instance (x : Float) : Decidable (IsFinite x) :=
  inferInstanceAs (Decidable (_ ∧ _))

/-- The digits of a floating-point number. -/
def floatText (x : Float) : List Char :=
  writeDecimal (Decimal.shortest .toEven x)

/-- **The digits of a floating-point number are a number.** -/
theorem isNumber_floatText (x : Float) : IsNumber (floatText x) :=
  isNumber_writeDecimal (Decimal.shortest_cases .toEven x)

theorem write_of_isFinite {x : Float} (h : IsFinite x) :
    JsonNumber.write x = .number (floatText x) := by
  show writeFloat x = _
  rw [writeFloat, h.1, h.2]
  rfl

theorem write_of_not_isFinite {x : Float} (h : ¬IsFinite x) : JsonNumber.write x = .null := by
  show writeFloat x = _
  rw [writeFloat, if_pos]
  rcases hnan : x.isNaN with - | -
  · rcases hinf : x.isInf with - | -
    · exact absurd ⟨hnan, hinf⟩ h
    · rfl
  · rfl

end JsonNumber

end TokenAlignment
