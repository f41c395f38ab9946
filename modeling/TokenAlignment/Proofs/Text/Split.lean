/-
TokenAlignment/Proofs/Text/Split.lean

What was put together is cut at the same places again,

    fields sep ([sep].intercalate fields)  =  fields        for fields without sep
    ofBytes (each line ++ [line feed])     =  lines         for lines without line ends,

and lines are cut off in front of whatever stands below them (`ofBytes_toBytes_append`), so that
all bytes are some lines and a rest (`exists_eq_toBytes_append`).

The cutter of fields is that of the library for lists (`fields_eq_splitOn`), which has the
first law.  Lines are of bytes; a text has the bytes of a line end only if it has the
character (`Utf8.mem_of_mem_encode`).
-/
import TokenAlignment.Proofs.Text.Utf8
import TokenAlignment.Text.Split
import Mathlib.Data.List.TakeWhile

namespace TokenAlignment

namespace Utf8

/-- A byte below 0x80 is a character of its own, never a part of another one. -/
theorem mem_of_mem_encode {c : Char} (hc : c.toNat < 0x80) {text : List Char}
    (h : UInt8.ofNat c.toNat ∈ encode text) : c ∈ text := by
  obtain ⟨c', hc', hb⟩ := List.mem_flatMap.mp h
  obtain ⟨lead, tail, hspells⟩ := exists_spells c'
  have hbyte : (UInt8.ofNat c.toNat).toNat = c.toNat := toNat_ofNat (by omega)
  rw [hspells.encode_eq, List.mem_cons] at hb
  rcases hb with hlead | htail
  · -- a reader takes the byte for `c`, and reads `c'`
    have hread := hspells.next []
    rw [← hlead] at hread
    simp only [next?, hbyte, if_pos hc, Char.ofNat_toNat, Option.some.injEq,
      Prod.mk.injEq] at hread
    rw [hread.1]
    exact hc'
  · have hlow := (hspells.continues _ htail).1
    omega

end Utf8

namespace Text

/-! ### Fields -/

theorem fieldsOnto_eq (sep : Char) (done : List (List Char)) (field text : List Char) :
    fieldsOnto sep done field text
      = done.reverse ++ List.splitOnPPrepend (· == sep) text field := by
  induction text generalizing done field with
  | nil => simp [fieldsOnto]
  | cons c text ih =>
      rw [fieldsOnto]
      by_cases hc : c = sep
      · rw [if_pos hc, ih, List.splitOnPPrepend_cons_pos (by simpa using hc)]
        simp
      · rw [if_neg hc, ih, List.splitOnPPrepend_cons_neg (by simpa using hc)]

theorem fields_eq_splitOn (sep : Char) (text : List Char) :
    fields sep text = text.splitOn sep :=
  fieldsOnto_eq sep [] [] text

/-- A separator ends one field and begins the next. -/
theorem fields_append (sep : Char) (before after : List Char) :
    fields sep (before ++ sep :: after) = fields sep before ++ fields sep after := by
  simp only [fields_eq_splitOn]
  exact List.splitOnP_append_cons before after (beq_self_eq_true sep)

theorem fields_of_notMem {sep : Char} {text : List Char} (h : sep ∉ text) :
    fields sep text = [text] := by
  rw [fields_eq_splitOn, List.splitOn_eq_singleton h]

theorem intercalate_fields (sep : Char) (text : List Char) :
    [sep].intercalate (fields sep text) = text := by
  rw [fields_eq_splitOn, List.intercalate_splitOn]

/-- **Joined fields are cut where they were joined.** -/
theorem fields_intercalate {sep : Char} {fs : List (List Char)} (hne : fs ≠ [])
    (hsep : ∀ field ∈ fs, sep ∉ field) : fields sep ([sep].intercalate fs) = fs := by
  rw [fields_eq_splitOn, List.splitOn_intercalate _ hsep hne]

/-! ### White space -/

theorem dropWhile_isBlank {text : List Char} (h : ∀ c ∈ text, isBlank c = false) :
    text.dropWhile isBlank = text := by
  rcases text with - | ⟨c, text⟩
  · rfl
  · exact List.dropWhile_cons_of_neg (by simp [h c (List.mem_cons_self ..)])

/-- A text without white space is trimmed. -/
theorem trim_eq {text : List Char} (h : ∀ c ∈ text, isBlank c = false) : trim text = text := by
  have hreverse : ∀ c ∈ text.reverse, isBlank c = false :=
    fun c hc => h c (List.mem_reverse.mp hc)
  rw [trim, dropWhile_isBlank h, trimEnd, dropWhile_isBlank hreverse, List.reverse_reverse]

theorem trimEnd_append {blank : List Char} (h : ∀ c ∈ blank, isBlank c = true)
    (text : List Char) : trimEnd (text ++ blank) = trimEnd text := by
  have hreverse : ∀ c ∈ blank.reverse, isBlank c = true :=
    fun c hc => h c (List.mem_reverse.mp hc)
  rw [trimEnd, trimEnd, List.reverse_append, List.dropWhile_append_of_pos hreverse]

/-- **White space around a text is taken away.** -/
theorem trim_append {before after : List Char} (hbefore : ∀ c ∈ before, isBlank c = true)
    (hafter : ∀ c ∈ after, isBlank c = true) (text : List Char) :
    trim (before ++ text ++ after) = trim text := by
  rw [trim, trim, List.append_assoc, List.dropWhile_append_of_pos hbefore,
    List.dropWhile_append]
  split
  · rename_i hblank
    rw [List.isEmpty_iff.mp hblank, List.dropWhile_eq_nil_iff.mpr hafter]
  · exact trimEnd_append hafter _

end Text

namespace Lines

/-! ### Lines -/

/-- A line is cut off at its line feed. -/
theorem ofBytesOnto_append (done : List (List UInt8)) (before line rest : List UInt8)
    (hfeed : lineFeed ∉ line) :
    ofBytesOnto done before (line ++ lineFeed :: rest)
      = ofBytesOnto (finish (line.reverse ++ before) :: done) [] rest := by
  induction line generalizing before with
  | nil => exact if_pos rfl
  | cons b line ih =>
      rw [List.mem_cons, not_or] at hfeed
      rw [List.cons_append, ofBytesOnto, if_neg (Ne.symm hfeed.1), ih _ hfeed.2]
      simp

theorem ofBytesOnto_eq (done : List (List UInt8)) (line bytes : List UInt8) :
    ofBytesOnto done line bytes = done.reverse ++ ofBytesOnto [] line bytes := by
  induction bytes generalizing done line with
  | nil =>
      rw [ofBytesOnto, ofBytesOnto]
      split <;> simp
  | cons b bytes ih =>
      rw [ofBytesOnto, ofBytesOnto]
      split
      · rw [ih (finish line :: done), ih [finish line]]
        simp
      · exact ih done (b :: line)

/-- The first line, and the lines behind it. -/
theorem ofBytes_cons {line : List UInt8} (hfeed : lineFeed ∉ line) (rest : List UInt8) :
    ofBytes (line ++ lineFeed :: rest) = finish line.reverse :: ofBytes rest := by
  rw [ofBytes, ofBytesOnto_append _ _ _ _ hfeed, List.append_nil, ofBytesOnto_eq]
  rfl

/-- Bytes without a line feed are one line, if they are any. -/
theorem ofBytes_of_notMem {tail : List UInt8} (hfeed : lineFeed ∉ tail) :
    ofBytes tail = if tail = [] then [] else [tail] := by
  suffices h : ∀ line, ofBytesOnto [] line tail
      = if line.reverse ++ tail = [] then [] else [line.reverse ++ tail] from h []
  induction tail with
  | nil =>
      intro line
      rw [ofBytesOnto]
      cases line <;> simp
  | cons b tail ih =>
      rw [List.mem_cons, not_or] at hfeed
      intro line
      rw [ofBytesOnto, if_neg (Ne.symm hfeed.1), ih hfeed.2]
      simp

theorem finish_reverse {line : List UInt8} (hreturn : carriageReturn ∉ line) :
    finish line.reverse = line := by
  rw [← List.mem_reverse] at hreturn
  rcases hline : line.reverse with - | ⟨b, bs⟩
  · exact (List.reverse_eq_nil_iff.mp hline).symm
  · rw [hline, List.mem_cons, not_or] at hreturn
    rw [finish, if_neg (Ne.symm hreturn.1), ← hline, List.reverse_reverse]

/-- The bytes of some lines, a line feed behind each. -/
def toBytes (lines : List (List UInt8)) : List UInt8 :=
  lines.flatMap (· ++ [lineFeed])

theorem toBytes_cons (line : List UInt8) (lines : List (List UInt8)) :
    toBytes (line :: lines) = line ++ lineFeed :: toBytes lines := by
  simp [toBytes]

/-- Lines with their line feeds are cut off one by one. -/
theorem ofBytes_toBytes_append {bodies : List (List UInt8)}
    (hfeed : ∀ body ∈ bodies, lineFeed ∉ body) (rest : List UInt8) :
    ofBytes (toBytes bodies ++ rest)
      = (bodies.map fun body => finish body.reverse) ++ ofBytes rest := by
  induction bodies with
  | nil => rfl
  | cons body bodies ih =>
      rw [List.forall_mem_cons] at hfeed
      rw [toBytes_cons, List.append_assoc, List.cons_append, ofBytes_cons hfeed.1, ih hfeed.2]
      rfl

/-- **Lines are read back** if there are no line ends in them. -/
theorem ofBytes_toBytes {lines : List (List UInt8)}
    (hfeed : ∀ line ∈ lines, lineFeed ∉ line) (hreturn : ∀ line ∈ lines, carriageReturn ∉ line) :
    ofBytes (toBytes lines) = lines := by
  have hbytes := ofBytes_toBytes_append hfeed []
  rw [List.append_nil] at hbytes
  refine hbytes.trans ((List.append_nil _).trans ?_)
  exact (List.map_congr_left fun line hline => finish_reverse (hreturn line hline)).trans
    (List.map_id lines)

/-- There is one line feed for each line. -/
theorem count_toBytes {bodies : List (List UInt8)}
    (hfeed : ∀ body ∈ bodies, lineFeed ∉ body) :
    (toBytes bodies).count lineFeed = bodies.length := by
  induction bodies with
  | nil => rfl
  | cons body bodies ih =>
      rw [List.forall_mem_cons] at hfeed
      rw [toBytes_cons, List.count_append, List.count_eq_zero_of_not_mem hfeed.1,
        List.count_cons_self, ih hfeed.2, Nat.zero_add]
      rfl

/-- All bytes are lines with their line feeds, and a rest without one. -/
theorem exists_eq_toBytes_append (bytes : List UInt8) : ∃ bodies tail,
    bytes = toBytes bodies ++ tail ∧ (∀ body ∈ bodies, lineFeed ∉ body) ∧ lineFeed ∉ tail := by
  induction bytes with
  | nil => exact ⟨[], [], rfl, by simp, by simp⟩
  | cons b bytes ih =>
      obtain ⟨bodies, tail, rfl, hfeed, htail⟩ := ih
      by_cases hb : b = lineFeed
      · subst hb
        refine ⟨[] :: bodies, tail, by simp [toBytes], ?_, htail⟩
        simpa using hfeed
      · rcases bodies with - | ⟨body, bodies⟩
        · exact ⟨[], b :: tail, rfl, by simp, by simp [Ne.symm hb, htail]⟩
        · refine ⟨(b :: body) :: bodies, tail, by simp [toBytes], ?_, htail⟩
          simpa [Ne.symm hb] using hfeed

/-- Bytes that stop with a line are lines and nothing else. -/
theorem exists_eq_toBytes {bytes : List UInt8}
    (h : bytes = [] ∨ bytes.getLast? = some lineFeed) :
    ∃ bodies, bytes = toBytes bodies ∧ ∀ body ∈ bodies, lineFeed ∉ body := by
  obtain ⟨bodies, tail, rfl, hfeed, htail⟩ := exists_eq_toBytes_append bytes
  by_cases hnil : tail = []
  · exact ⟨bodies, by rw [hnil, List.append_nil], hfeed⟩
  · rcases h with h | h
    · exact absurd (List.append_eq_nil_iff.mp h).2 hnil
    · rw [List.getLast?_append, List.getLast?_eq_some_getLast hnil] at h
      exact absurd (Option.some.inj h ▸ List.getLast_mem hnil) htail

end Lines

end TokenAlignment
