/-
TokenAlignment/Proofs/Json/RoundTrip.lean

What is printed is read back,

    ofText? (render v)  =  some v      for values with numbers of the grammar and whole strings.

Reading never goes back, so a value is read back in front of any text that cannot go on with it
(`ReadsBack`), and the induction is on the value.  Only a number can be gone on with, and what
stands behind a value begins with a comma, a line break or nothing.  As fuel the length of the
text is enough: brackets take one unit of it for each element and two for themselves.

Main result: `ofText?_render`.
-/
import TokenAlignment.Json.Printer
import TokenAlignment.Proofs.Json.Number

namespace TokenAlignment

namespace Json

/-! ### Strings -/

/-- A character stands for itself, behind a backslash as a letter, or there as a number. -/
inductive Escaped (c : Char) : List Char → Prop
  | plain : c ≠ '"' → c ≠ '\\' → 0x20 ≤ c.toNat → Escaped c [c]
  | letter {e} : e ≠ 'u' → simpleEscape? e = some c → Escaped c ['\\', e]
  | number : c.toNat < 0x20 → Escaped c
      ['\\', 'u', '0', '0', Nat.digitChar (c.toNat / 16), Nat.digitChar (c.toNat % 16)]

theorem escaped_escapeChar (c : Char) : Escaped c (escapeChar c) := by
  rw [escapeChar.eq_def]
  split
  -- seven characters have a letter of their own
  iterate 7 exact .letter (by decide) rfl
  split
  · exact .number ‹_›
  · exact .plain ‹_› ‹_› (Nat.le_of_not_lt ‹_›)

theorem hexUnit?_control {n : Nat} (hn : n < 0x20) :
    hexUnit? '0' '0' (Nat.digitChar (n / 16)) (Nat.digitChar (n % 16)) = some n := by
  have h : ∀ n : Fin 0x20, hexUnit? '0' '0' (Nat.digitChar (n / 16)) (Nat.digitChar (n % 16))
      = some n.val := by
    decide
  exact h ⟨n, hn⟩

/-- **A character is read back** from what stands for it. -/
theorem Escaped.stringFrom {c : Char} {escape : List Char} (h : Escaped c escape)
    (read : List Char) (whole : Bool) (s : List Char) :
    stringFrom read whole (escape ++ s) = stringFrom (c :: read) whole s := by
  cases h with
  | plain hquote hbackslash hcontrol =>
      rw [List.singleton_append, Json.stringFrom, if_neg (by simp [hbackslash]; omega)]
      · exact hquote
      · exact fun _ _ _ _ _ hc _ => hbackslash hc
      · exact fun _ _ hc _ => hbackslash hc
  | @letter e hu hsimple =>
      simp only [List.cons_append, List.nil_append]
      rw [Json.stringFrom, hsimple]
      exact fun _ _ _ _ _ he _ => hu he
  | number hcontrol =>
      have hhigh : isHighSurrogate c.toNat = false := by
        rw [isHighSurrogate, Bool.and_eq_false_iff]
        left
        simp
        omega
      have hlow : isLowSurrogate c.toNat = false := by
        rw [isLowSurrogate, Bool.and_eq_false_iff]
        left
        simp
        omega
      simp only [List.cons_append, List.nil_append]
      rw [Json.stringFrom, hexUnit?_control hcontrol]
      dsimp only
      rw [hhigh, if_neg Bool.false_ne_true, hlow, if_neg Bool.false_ne_true, Char.ofNat_toNat]

theorem stringFrom_quote (read : List Char) (text rest : List Char) :
    stringFrom read true (text.flatMap escapeChar ++ '"' :: rest)
      = some (some (read.reverse ++ text), rest) := by
  induction text generalizing read with
  | nil =>
      rw [List.flatMap_nil, List.nil_append, stringFrom, if_pos rfl, List.append_nil]
  | cons c text ih =>
      rw [List.flatMap_cons, List.append_assoc, (escaped_escapeChar c).stringFrom, ih]
      simp

/-! ### Values -/

/-- Values whose numbers are in the grammar and whose strings are texts. -/
inductive Plain : Json → Prop
  | null : Plain null
  | bool (value : Bool) : Plain (bool value)
  | number {lexeme} : IsNumber lexeme → Plain (number lexeme)
  | string (text : List Char) : Plain (string (some text))
  | array {vs} : (∀ v ∈ vs, Plain v) → Plain (array vs)
  | object {ms : List (List Char × Json)} : (∀ m ∈ ms, Plain m.2) →
      Plain (object (ms.map fun m => (some m.1, m.2)))

/-- Whether a value is read back, in any depth and in front of any text that cannot go on
with it. -/
def ReadsBack (v : Json) : Prop :=
  ∀ depth fuel rest, (pretty depth v).length ≤ fuel → EndsNumber rest →
    value? (fuel + 1) (pretty depth v ++ rest) = some (v, rest)

theorem skipBlank_newLine (depth : Nat) (s : List Char) :
    skipBlank (newLine depth ++ s) = skipBlank s := by
  refine List.dropWhile_append_of_pos fun c hc => ?_
  rcases List.mem_cons.mp hc with rfl | hc
  · rfl
  · rw [List.eq_of_mem_replicate hc]
    rfl

theorem skipBlank_cons {c : Char} (hc : isBlank c = false) (s : List Char) :
    skipBlank (c :: s) = c :: s :=
  List.dropWhile_cons_of_neg (by simp [hc])

/-- Blank characters in front of a value do not matter. -/
theorem value?_congr {s s' : List Char} (h : skipBlank s = skipBlank s') (fuel : Nat) :
    value? fuel s = value? fuel s' := by
  cases fuel with
  | zero => rfl
  | succ fuel => rw [value?, value?, h]

theorem endsNumber_newLine (depth : Nat) (s : List Char) : EndsNumber (newLine depth ++ s) := by
  rintro c ⟨⟩
  decide

/-- A character that a number begins with begins nothing else. -/
theorem ne_of_startsNumber {c : Char} (hc : c = '-' ∨ c.isDigit = true) {c' : Char}
    (hminus : c' ≠ '-') (hdigit : c'.isDigit = false) : c ≠ c' := by
  rintro rfl
  rcases hc with rfl | hc
  · exact hminus rfl
  · rw [hc] at hdigit
    cases hdigit

theorem isBlank_of_startsNumber {c : Char} (hc : c = '-' ∨ c.isDigit = true) :
    isBlank c = false := by
  simp [isBlank, ne_of_startsNumber hc]

/-- A value does not begin with a blank character, nor with the end of an array. -/
theorem Plain.exists_cons {v : Json} (h : Plain v) (depth : Nat) :
    ∃ c cs, pretty depth v = c :: cs ∧ isBlank c = false ∧ c ≠ ']' := by
  cases h with
  | null => exact ⟨_, _, rfl, by decide⟩
  | bool value => cases value <;> exact ⟨_, _, rfl, by decide⟩
  | number hnumber =>
      obtain ⟨c, cs, rfl, hc⟩ := hnumber.exists_cons
      exact ⟨c, cs, rfl, isBlank_of_startsNumber hc,
        ne_of_startsNumber hc (by decide) (by decide)⟩
  | string text => exact ⟨_, _, rfl, by decide⟩
  | @array vs hvs =>
      rcases vs with - | ⟨v, vs⟩ <;> exact ⟨_, _, rfl, by decide⟩
  | @object ms hms =>
      rcases ms with - | ⟨m, ms⟩ <;> exact ⟨_, _, rfl, by decide⟩

theorem readsBack_number {lexeme : List Char} (h : IsNumber lexeme) :
    ReadsBack (number lexeme) := by
  intro depth fuel rest _ hrest
  obtain ⟨c, cs, hlexeme, hc⟩ := h.exists_cons
  have hnumber := number?_append h hrest
  rw [pretty, value?, hlexeme, List.cons_append, skipBlank_cons (isBlank_of_startsNumber hc)]
  rw [hlexeme, List.cons_append] at hnumber
  split
  case h_7 => rw [hnumber]; rfl
  all_goals
    rename_i heq
    exact absurd (List.cons.inj heq).1 (ne_of_startsNumber hc (by decide) (by decide))

theorem afterWord?_append (word : String) (rest : List Char) :
    afterWord? word (word.toList ++ rest) = some rest := by
  rw [afterWord?, if_pos (by simp), List.drop_left' String.length_toList]

theorem readsBack_null : ReadsBack null := by
  intro depth fuel rest _ _
  show (afterWord? "ull" ("ull".toList ++ rest)).map (null, ·) = _
  rw [afterWord?_append]
  rfl

theorem readsBack_bool (value : Bool) : ReadsBack (bool value) := by
  intro depth fuel rest _ _
  cases value with
  | true =>
      show (afterWord? "rue" ("rue".toList ++ rest)).map (bool true, ·) = _
      rw [afterWord?_append]
      rfl
  | false =>
      show (afterWord? "alse" ("alse".toList ++ rest)).map (bool false, ·) = _
      rw [afterWord?_append]
      rfl

theorem quote_append (text rest : List Char) :
    quote text ++ rest = '"' :: (text.flatMap escapeChar ++ '"' :: rest) := by
  rw [quote, List.cons_append, List.append_assoc, List.singleton_append]

theorem readsBack_string (text : List Char) : ReadsBack (string (some text)) := by
  intro depth fuel rest _ _
  rw [pretty, value?, Option.getD_some, quote_append, skipBlank_cons (by decide)]
  show (stringFrom [] true (text.flatMap escapeChar ++ '"' :: rest)).map _ = _
  rw [stringFrom_quote]
  rfl

/-! ### Arrays -/

/-- The elements of an array, from some blank characters in front of one of them. -/
theorem elements?_eq {depth outer fuel : Nat} {read : List Json} {v : Json} {vs : List Json}
    (hv : ReadsBack v) (hvs : ∀ v ∈ vs, ReadsBack v) {s rest : List Char}
    (hs : skipBlank s = skipBlank (pretty depth v ++ (prettyElements depth vs ++
      (newLine outer ++ ']' :: rest))))
    (hfuel : (pretty depth v).length + (prettyElements depth vs).length ≤ fuel) :
    elements? (fuel + 2) read s = some (array (read.reverse ++ v :: vs), rest) := by
  induction vs generalizing fuel read v s with
  | nil =>
      rw [elements?, value?_congr hs, prettyElements, List.nil_append,
        hv depth fuel _ (by omega) (endsNumber_newLine outer _)]
      dsimp only
      rw [skipBlank_newLine, skipBlank_cons (by decide)]
      simp
  | cons v' vs ih =>
      rw [List.forall_mem_cons] at hvs
      rw [prettyElements] at hs hfuel
      simp only [List.length_cons, List.length_append] at hfuel
      obtain ⟨fuel, rfl⟩ : ∃ n, fuel = n + 1 := ⟨fuel - 1, by omega⟩
      -- the comma ends the value in front of it, whatever comes behind
      have hends : EndsNumber (',' :: (newLine depth ++ pretty depth v' ++
          prettyElements depth vs) ++ (newLine outer ++ ']' :: rest)) := by
        rintro c ⟨⟩
        decide
      rw [elements?, value?_congr hs, hv depth _ _ (by omega) hends, List.cons_append]
      dsimp only
      rw [skipBlank_cons (by decide)]
      show elements? (fuel + 2) (v :: read) _ = _
      rw [ih hvs.1 hvs.2 _ (by omega)]
      · simp
      · rw [List.append_assoc, List.append_assoc, skipBlank_newLine]

theorem value?_bracket (fuel : Nat) (s : List Char) :
    value? (fuel + 1) ('[' :: s) = match skipBlank s with
      | ']' :: s => some (array [], s)
      | s => elements? fuel [] s :=
  rfl

theorem readsBack_array {vs : List Json} (hplain : ∀ v ∈ vs, Plain v)
    (hvs : ∀ v ∈ vs, ReadsBack v) : ReadsBack (array vs) := by
  intro depth fuel rest hfuel _
  rcases vs with - | ⟨v, vs⟩
  · rfl
  · rw [List.forall_mem_cons] at hplain hvs
    rw [pretty] at hfuel ⊢
    simp only [List.length_cons, List.length_append, newLine] at hfuel
    obtain ⟨fuel, rfl⟩ : ∃ n, fuel = n + 2 := ⟨fuel - 2, by omega⟩
    obtain ⟨c, cs, hpretty, hblank, hc⟩ := hplain.1.exists_cons (depth + 1)
    have hskip : skipBlank (newLine (depth + 1) ++ pretty (depth + 1) v ++
        prettyElements (depth + 1) vs ++ newLine depth ++ [']'] ++ rest)
          = pretty (depth + 1) v ++ (prettyElements (depth + 1) vs ++
            (newLine depth ++ ']' :: rest)) := by
      simp only [List.append_assoc, skipBlank_newLine, List.singleton_append]
      rw [hpretty, List.cons_append, skipBlank_cons hblank]
    rw [List.cons_append, value?_bracket, hskip]
    split
    · rename_i heq
      rw [hpretty, List.cons_append] at heq
      exact absurd (List.cons.inj heq).1 hc
    · exact elements?_eq hvs.1 hvs.2 rfl (by omega)

/-! ### Objects -/

theorem skipBlank_quote (text s : List Char) : skipBlank (quote text ++ s) = quote text ++ s :=
  skipBlank_cons (by decide) _

theorem key?_append (text s : List Char) :
    key? (text.flatMap escapeChar ++ '"' :: ':' :: s) = some (some text, s) := by
  rw [key?, stringFrom_quote]
  rfl

section Member

variable {depth fuel : Nat} {read : List (Option (List Char) × Json)} {m : List Char × Json}
  {s rest behind : List Char}

theorem value?_member (hm : ReadsBack m.2) (hfuel : (pretty depth m.2).length ≤ fuel)
    (hrest : EndsNumber rest) :
    value? (fuel + 1) (' ' :: (pretty depth m.2 ++ rest)) = some (m.2, rest) :=
  (value?_congr rfl _).trans (hm depth fuel rest hfuel hrest)

/-- One member, and a comma behind it. -/
theorem members?_comma (hm : ReadsBack m.2)
    (hs : skipBlank s = quote m.1 ++ (':' :: ' ' :: (pretty depth m.2 ++ rest)))
    (hfuel : (pretty depth m.2).length ≤ fuel) (hrest : EndsNumber rest)
    (hcomma : skipBlank rest = ',' :: behind) :
    members? (fuel + 2) read s = members? (fuel + 1) ((some m.1, m.2) :: read) behind := by
  rw [quote_append] at hs
  rw [members?, hs]
  simp only [key?_append, value?_member hm hfuel hrest, hcomma]

/-- One member, and the end of the object behind it. -/
theorem members?_end (hm : ReadsBack m.2)
    (hs : skipBlank s = quote m.1 ++ (':' :: ' ' :: (pretty depth m.2 ++ rest)))
    (hfuel : (pretty depth m.2).length ≤ fuel) (hrest : EndsNumber rest)
    (hend : skipBlank rest = '\x7d' :: behind) :
    members? (fuel + 2) read s = some (object ((some m.1, m.2) :: read).reverse, behind) := by
  rw [quote_append] at hs
  rw [members?, hs]
  simp only [key?_append, value?_member hm hfuel hrest, hend]

end Member

/-- The members of an object, from the first quote of one of them. -/
theorem members?_eq {depth outer fuel : Nat} {read : List (Option (List Char) × Json)}
    {m : List Char × Json} {ms : List (List Char × Json)} (hm : ReadsBack m.2)
    (hms : ∀ m ∈ ms, ReadsBack m.2) {s rest : List Char}
    (hs : skipBlank s = quote m.1 ++ (':' :: ' ' :: (pretty depth m.2 ++
      (prettyMembers depth (ms.map fun m => (some m.1, m.2)) ++
        (newLine outer ++ '\x7d' :: rest)))))
    (hfuel : (pretty depth m.2).length +
      (prettyMembers depth (ms.map fun m => (some m.1, m.2))).length ≤ fuel) :
    members? (fuel + 2) read s
      = some (object (read.reverse ++ (m :: ms).map fun m => (some m.1, m.2)), rest) := by
  induction ms generalizing fuel read m s with
  | nil =>
      rw [List.map_nil, prettyMembers, List.nil_append] at hs
      have hend : skipBlank (newLine outer ++ '\x7d' :: rest) = '\x7d' :: rest := by
        rw [skipBlank_newLine, skipBlank_cons (by decide)]
      rw [members?_end hm hs (by omega) (endsNumber_newLine outer _) hend]
      simp
  | cons m' ms ih =>
      rw [List.forall_mem_cons] at hms
      rw [List.map_cons, prettyMembers] at hs hfuel
      simp only [List.length_cons, List.length_append] at hfuel
      obtain ⟨fuel, rfl⟩ : ∃ n, fuel = n + 1 := ⟨fuel - 1, by omega⟩
      have hends : EndsNumber (',' :: (newLine depth ++ quote ((some m'.1).getD []) ++ [':', ' '] ++
          pretty depth m'.2 ++ prettyMembers depth (ms.map fun m => (some m.1, m.2))) ++
          (newLine outer ++ '\x7d' :: rest)) := by
        rintro c ⟨⟩
        decide
      rw [members?_comma hm hs (by omega) hends (skipBlank_cons (by decide) _),
        ih hms.1 hms.2 _ (by omega)]
      · simp
      · simp only [List.append_assoc, List.append_eq, skipBlank_newLine, skipBlank_quote,
          Option.getD_some]
        rfl

theorem value?_brace (fuel : Nat) (s : List Char) :
    value? (fuel + 1) ('\x7b' :: s) = match skipBlank s with
      | '\x7d' :: s => some (object [], s)
      | s => members? fuel [] s :=
  rfl

theorem readsBack_object {ms : List (List Char × Json)} (hms : ∀ m ∈ ms, ReadsBack m.2) :
    ReadsBack (object (ms.map fun m => (some m.1, m.2))) := by
  intro depth fuel rest hfuel _
  rcases ms with - | ⟨m, ms⟩
  · rfl
  · rw [List.forall_mem_cons] at hms
    rw [List.map_cons, pretty] at hfuel ⊢
    simp only [List.length_cons, List.length_append, newLine] at hfuel
    obtain ⟨fuel, rfl⟩ : ∃ n, fuel = n + 2 := ⟨fuel - 2, by omega⟩
    rw [List.cons_append, value?_brace]
    simp only [List.append_assoc, skipBlank_newLine, skipBlank_quote, Option.getD_some]
    show members? (fuel + 2) [] (quote m.1 ++ _) = _
    refine members?_eq hms.1 hms.2 (skipBlank_quote m.1 _) ?_
    omega

/-- **What is printed is read back.** -/
theorem Plain.readsBack {v : Json} (h : Plain v) : ReadsBack v := by
  induction h with
  | null => exact readsBack_null
  | bool value => exact readsBack_bool value
  | number hnumber => exact readsBack_number hnumber
  | string text => exact readsBack_string text
  | array hvs ih => exact readsBack_array hvs ih
  | object _ ih => exact readsBack_object ih

theorem ofText?_render {v : Json} (h : Plain v) : ofText? v.render = some v := by
  have hvalue := h.readsBack 0 (2 * (pretty 0 v).length + 1) [] (by omega) (by rintro c ⟨⟩)
  rw [List.append_nil] at hvalue
  rw [render, ofText?, hvalue]
  rfl

end Json

end TokenAlignment
