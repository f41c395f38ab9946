/-
TokenAlignment/Proofs/Text/Chunks.lean

Bytes in chunks: stretches that spell characters, and between them what is given up,

    bytes  =  valid₁ ++ invalid₁ ++ valid₂ ++ invalid₂ ++ …

A reader in chunks looks up a lead byte in a table (`tailRanges?`) that says what each byte behind
it may be.  Where the bytes stop to fit, it gives up the lead and those that fitted, all at once.

Design.  The table is that of the characters (`exists_encodeChar_iff`): it has room for no
surrogate, no spelling that is longer than need be and nothing above 0x10FFFF.  All that the table
lets follow a lead are continuations, so a reader that drops one byte at a time drops the same
bytes, and neither takes a byte of the next character (`flatMap_valid_chunksFrom`).
What a slice of a text decodes to is known from there (`decodeLossy_slice`), and slices that follow
each other deal out the characters that none of them cuts (`flatMap_decodeLossy_slice`).

Main result: `decodeLossy_keeps_whole`.
-/
import TokenAlignment.Proofs.Document
import Mathlib.Data.List.Forall2
import Mathlib.Tactic.SplitIfs

namespace TokenAlignment

namespace Utf8

/-! ### The table of lead bytes -/

/-- The least and the greatest that a byte behind a lead byte may be. -/
def tailRange : Nat × Nat :=
  (0x80, 0xBF)

/-- The same for the byte right behind a lead byte, if there are two more: the
spelling must not be longer than need be, nor that of a surrogate or of a number too large. -/
def secondRange (lead : UInt8) : Nat × Nat :=
  (if lead.toNat = 0xE0 then 0xA0 else if lead.toNat = 0xF0 then 0x90 else 0x80,
    if lead.toNat = 0xED then 0x9F else if lead.toNat = 0xF4 then 0x8F else 0xBF)

/-- The least and the greatest for each byte behind a lead byte; nothing for a byte that
no character begins with. -/
def tailRanges? (lead : UInt8) : Option (List (Nat × Nat)) :=
  if lead.toNat < 0x80 then some []
  else if lead.toNat < 0xC2 then none
  else if lead.toNat < 0xE0 then some [tailRange]
  else if lead.toNat < 0xF0 then some [secondRange lead, tailRange]
  else if lead.toNat < 0xF5 then some [secondRange lead, tailRange, tailRange]
  else none

/-- A byte from the least to the greatest of a range. -/
def InRange (range : Nat × Nat) (b : UInt8) : Prop :=
  range.1 ≤ b.toNat ∧ b.toNat ≤ range.2

instance (range : Nat × Nat) (b : UInt8) : Decidable (InRange range b) :=
  inferInstanceAs (Decidable (range.1 ≤ b.toNat ∧ b.toNat ≤ range.2))

theorem inRange_tailRange_iff {b : UInt8} :
    InRange tailRange b ↔ 0x80 ≤ b.toNat ∧ b.toNat ≤ 0xBF :=
  Iff.rfl

theorem inRange_secondRange_iff {lead b : UInt8} : InRange (secondRange lead) b ↔
    (0x80 ≤ b.toNat ∧ b.toNat ≤ 0xBF) ∧
      (lead.toNat = 0xE0 → 0xA0 ≤ b.toNat) ∧ (lead.toNat = 0xED → b.toNat ≤ 0x9F) ∧
      (lead.toNat = 0xF0 → 0x90 ≤ b.toNat) ∧ (lead.toNat = 0xF4 → b.toNat ≤ 0x8F) := by
  simp only [InRange, secondRange]
  split_ifs <;> omega

theorem toNat_continuation (x : Nat) : (continuation x).toNat = x % 0x40 + 0x80 := by
  rw [continuation, toNat_ofNat (by omega)]

/-- The bytes of a character fit the table. -/
theorem exists_tailRanges? {c : Char} {lead : UInt8} {tail : List UInt8}
    (h : encodeChar c = lead :: tail) :
    ∃ ranges, tailRanges? lead = some ranges ∧ List.Forall₂ InRange ranges tail := by
  have hvalid := toNat_valid c
  obtain ⟨v, hv⟩ : ∃ v, c.val.toNat = v := ⟨_, rfl⟩
  rw [hv] at hvalid
  have htail (x : Nat) : InRange tailRange (continuation x) := by
    rw [inRange_tailRange_iff, toNat_continuation]
    omega
  -- the place of the character decides how many bytes it has
  rcases Nat.lt_or_ge v 0x80 with hone | hone
  · rw [(spells_one hv hone).encode_eq] at h
    cases h
    rw [tailRanges?, toNat_ofNat (by omega), if_pos hone]
    exact ⟨_, rfl, .nil⟩
  rcases Nat.lt_or_ge v 0x800 with htwo | htwo
  · rw [(spells_two hv hone htwo).encode_eq] at h
    cases h
    rw [tailRanges?, toNat_ofNat (by omega), if_neg (by omega), if_neg (by omega),
      if_pos (by omega)]
    exact ⟨_, rfl, .cons (htail _) .nil⟩
  rcases Nat.lt_or_ge v 0x10000 with hthree | hthree
  · rw [(spells_three hv htwo hthree).encode_eq] at h
    cases h
    have hsecond := toNat_continuation (v / 64)
    rw [tailRanges?, toNat_ofNat (by omega), if_neg (by omega), if_neg (by omega),
      if_neg (by omega), if_pos (by omega)]
    refine ⟨_, rfl, .cons (inRange_secondRange_iff.mpr ?_) (.cons (htail _) .nil)⟩
    rw [toNat_ofNat (by omega)]
    omega
  · rw [(spells_four hv hthree).encode_eq] at h
    cases h
    have hsecond := toNat_continuation (v / 4096)
    rw [tailRanges?, toNat_ofNat (by omega), if_neg (by omega), if_neg (by omega),
      if_neg (by omega), if_neg (by omega), if_pos (by omega)]
    refine ⟨_, rfl, .cons (inRange_secondRange_iff.mpr ?_)
      (.cons (htail _) (.cons (htail _) .nil))⟩
    rw [toNat_ofNat (by omega)]
    omega

theorem continuation?_eq {b : UInt8} (h : 0x80 ≤ b.toNat ∧ b.toNat ≤ 0xBF) :
    continuation? b = some (b.toNat - 0x80) :=
  if_pos (by omega)

/-- What fits the table is a character. -/
theorem exists_encodeChar {lead : UInt8} {tail : List UInt8} {ranges : List (Nat × Nat)}
    (hranges : tailRanges? lead = some ranges) (hfits : List.Forall₂ InRange ranges tail) :
    ∃ c, encodeChar c = lead :: tail := by
  rw [tailRanges?] at hranges
  split_ifs at hranges with hone hnone htwo hthree hfour
  all_goals cases hranges
  -- one case for each number of ranges, and in it the reader's branch for that many bytes
  · cases hfits
    exact ⟨_, encodeChar_of_one hone⟩
  · rcases hfits with - | ⟨h₁, - | -⟩
    rw [inRange_tailRange_iff] at h₁
    exact ⟨_, encodeChar_of_two (by omega) htwo (continuation?_eq h₁)
      (charFrom?_of_valid (by omega) (by omega))⟩
  · rcases hfits with - | ⟨h₁, - | ⟨h₂, - | -⟩⟩
    rw [inRange_tailRange_iff] at h₂
    obtain ⟨h₁, hlong, hsurrogate, -⟩ := inRange_secondRange_iff.mp h₁
    exact ⟨_, encodeChar_of_three (by omega) hthree (continuation?_eq h₁) (continuation?_eq h₂)
      (charFrom?_of_valid (by omega) (by omega))⟩
  · rcases hfits with - | ⟨h₁, - | ⟨h₂, - | ⟨h₃, - | -⟩⟩⟩
    rw [inRange_tailRange_iff] at h₂ h₃
    obtain ⟨h₁, -, -, hlong, hlarge⟩ := inRange_secondRange_iff.mp h₁
    exact ⟨_, encodeChar_of_four (by omega) (by omega) (continuation?_eq h₁)
      (continuation?_eq h₂) (continuation?_eq h₃) (charFrom?_of_valid (by omega) (by omega))⟩

/-- **The table is that of the characters**: their bytes are those that fit it. -/
theorem exists_encodeChar_iff {lead : UInt8} {tail : List UInt8} :
    (∃ c, encodeChar c = lead :: tail)
      ↔ ∃ ranges, tailRanges? lead = some ranges ∧ List.Forall₂ InRange ranges tail := by
  constructor
  · rintro ⟨c, hc⟩
    exact exists_tailRanges? hc
  · rintro ⟨ranges, hranges, hfits⟩
    exact exists_encodeChar hranges hfits

/-- Only continuations may follow a lead byte. -/
theorem isContinuation_of_inRange {lead : UInt8} {ranges : List (Nat × Nat)}
    (h : tailRanges? lead = some ranges) :
    ∀ range ∈ ranges, ∀ b, InRange range b → IsContinuation b := by
  have htail {b : UInt8} (hb : InRange tailRange b) : IsContinuation b :=
    ⟨hb.1, Nat.lt_succ_of_le hb.2⟩
  have hsecond {b : UInt8} (hb : InRange (secondRange lead) b) : IsContinuation b :=
    htail (inRange_secondRange_iff.mp hb).1
  rw [tailRanges?] at h
  split_ifs at h
  all_goals cases h
  all_goals simp +contextual [htail, hsecond]

/-! ### Reading in chunks -/

/-- A stretch of bytes that spell characters, and the bytes behind it that are given up. -/
structure Chunk where
  valid : List UInt8
  invalid : List UInt8
  deriving DecidableEq, Repr

/-- The number of bytes that are in their ranges, before the first that is not. -/
def fitting : List (Nat × Nat) → List UInt8 → Nat
  | range :: ranges, b :: bs => if InRange range b then fitting ranges bs + 1 else 0
  | _, _ => 0

/-- The chunks of a sequence behind bytes that were found valid. -/
def chunksFrom (valid : List UInt8) : List UInt8 → List Chunk
  | [] => if valid.isEmpty then [] else [⟨valid, []⟩]
  | b :: bs =>
    match tailRanges? b with
    | none => ⟨valid, [b]⟩ :: chunksFrom [] bs
    | some ranges =>
      let n := fitting ranges bs
      if n = ranges.length then chunksFrom (valid ++ b :: bs.take n) (bs.drop n)
      else ⟨valid, b :: bs.take n⟩ :: chunksFrom [] (bs.drop n)
termination_by bs => bs.length
decreasing_by
  all_goals
    simp only [List.length_cons, List.length_drop]
    omega

/-- The chunks of a sequence; only the last one may give up nothing. -/
def chunks (bs : List UInt8) : List Chunk :=
  chunksFrom [] bs

/-- No byte is lost between the chunks. -/
theorem flatMap_chunksFrom (valid bs : List UInt8) :
    (chunksFrom valid bs).flatMap (fun chunk => chunk.valid ++ chunk.invalid) = valid ++ bs := by
  fun_induction chunksFrom valid bs with
  | case1 valid hempty => simp_all
  | case2 valid hne => simp
  | case3 valid b bs hnone ih => simp [ih]
  | case4 valid b bs ranges hranges n hn ih => simp [ih]
  | case5 valid b bs ranges hranges n hn ih => simp [ih]

/-- The bytes that fit are in the first ranges. -/
theorem forall₂_take_fitting (ranges : List (Nat × Nat)) (bs : List UInt8) :
    List.Forall₂ InRange (ranges.take (fitting ranges bs)) (bs.take (fitting ranges bs)) := by
  fun_induction fitting ranges bs with
  | case1 range ranges b bs hb ih => exact .cons hb ih
  | case2 range ranges b bs hb => exact .nil
  | case3 ranges bs hnone => exact .nil

/-- All ranges are used up by bytes that fit, whatever follows them. -/
theorem fitting_append {ranges : List (Nat × Nat)} {tail : List UInt8}
    (h : List.Forall₂ InRange ranges tail) (rest : List UInt8) :
    fitting ranges (tail ++ rest) = ranges.length := by
  induction h with
  | nil => simp [fitting]
  | cons hb _ ih => rw [List.cons_append, fitting, if_pos hb, ih, List.length_cons]

/-- What is given up with a lead byte are continuations. -/
theorem isContinuation_of_mem_take_fitting {ranges : List (Nat × Nat)}
    (h : ∀ range ∈ ranges, ∀ b, InRange range b → IsContinuation b) (bs : List UInt8) :
    ∀ b ∈ bs.take (fitting ranges bs), IsContinuation b := by
  fun_induction fitting ranges bs with
  | case1 range ranges b bs hb ih =>
      rw [List.forall_mem_cons] at h
      rw [List.take_succ_cons, List.forall_mem_cons]
      exact ⟨h.1 b hb, ih h.2⟩
  | case2 range ranges b bs hb => simp
  | case3 ranges bs hnone => simp

section Lead

variable {b : UInt8} {bs : List UInt8} {ranges : List (Nat × Nat)}

/-- Where the table ends, so does a character. -/
theorem exists_encodeChar_of_fitting (hranges : tailRanges? b = some ranges)
    (h : fitting ranges bs = ranges.length) :
    ∃ c, encodeChar c = b :: bs.take (fitting ranges bs) := by
  refine exists_encodeChar hranges ?_
  have hfits := forall₂_take_fitting ranges bs
  rwa [List.take_of_length_le (Nat.le_of_eq h.symm)] at hfits

/-- Where the table is left before its end, no character begins. -/
theorem next?_eq_none_of_fitting
    (h : ∀ ranges, tailRanges? b = some ranges → fitting ranges bs ≠ ranges.length) :
    next? (b :: bs) = none := by
  rcases hnext : next? (b :: bs) with - | ⟨c, rest⟩
  · rfl
  -- a character that was read fits the table to its end
  exfalso
  obtain ⟨lead, tail, hspells⟩ := exists_spells c
  have hbytes := eq_append_of_next? hnext
  rw [hspells.encode_eq, List.cons_append] at hbytes
  obtain ⟨rfl, rfl⟩ := List.cons.inj hbytes
  obtain ⟨ranges, hranges, hfits⟩ := exists_tailRanges? hspells.encode_eq
  exact h ranges hranges (fitting_append hfits rest)

end Lead

/-- **The valid stretches are the characters that are read one by one.** -/
theorem flatMap_valid_chunksFrom (valid bs : List UInt8) :
    (chunksFrom valid bs).flatMap Chunk.valid = valid ++ encode (decodeLossy bs) := by
  fun_induction chunksFrom valid bs with
  | case1 valid hempty => simp_all [encode]
  | case2 valid hne => simp [encode]
  | case3 valid b bs hnone ih =>
      -- the byte is given up alone
      have hnext : next? (b :: bs) = none :=
        next?_eq_none_of_fitting (by simp [hnone])
      rw [List.flatMap_cons, ih, decodeLossy_of_next?_eq_none hnext]
      rfl
  | case4 valid b bs ranges hranges n hn ih =>
      -- a whole character
      obtain ⟨c, hc⟩ := exists_encodeChar_of_fitting hranges hn
      have hbytes : b :: bs = encodeChar c ++ bs.drop n := by
        rw [hc, List.cons_append, List.take_append_drop]
      rw [ih, hbytes, decodeLossy_encodeChar_append, encode_cons, hc, List.append_assoc]
  | case5 valid b bs ranges hranges n hn ih =>
      have hnext : next? (b :: bs) = none := by
        refine next?_eq_none_of_fitting fun ranges' hranges' => ?_
        rw [hranges, Option.some.injEq] at hranges'
        exact hranges' ▸ hn
      -- the bytes given up with the lead are the ones dropped one by one
      have hdropped : decodeLossy bs = decodeLossy (bs.drop n) := by
        conv_lhs => rw [← List.take_append_drop n bs]
        exact decodeLossy_append_of_isContinuation
          (isContinuation_of_mem_take_fitting (isContinuation_of_inRange hranges) bs) _
      rw [List.flatMap_cons, ih, decodeLossy_of_next?_eq_none hnext, hdropped]
      rfl

/-! ### Slices that follow each other -/

/-- **Slices side by side decode to the characters that no end of a slice cuts.** -/
theorem flatMap_decodeLossy_slice {text : List Char} {spans : List Span}
    (h : Span.Chain 0 spans (encode text).length) :
    spans.flatMap (fun s => decodeLossy (slice 0 (encode text) s))
      = ((located 0 text).filter fun x => Span.Uncut spans x.2).map Prod.fst := by
  have hdealt := h.flatMap_filter (fun x hx => start_lt_stop_of_mem_located hx)
    (pairwise_located 0 text)
  simp only [decodeLossy_slice]
  rw [← List.map_flatMap, hdealt]
  refine congrArg (List.map Prod.fst) (List.filter_congr fun x hx => ?_)
  have hbounds := mem_located_bounds hx
  rw [Nat.zero_add] at hbounds
  rw [Bool.eq_iff_iff, List.any_eq_true, decide_eq_true_eq]
  constructor
  · -- no end of a slice lies inside of another slice
    rintro ⟨s, hs, hcontains⟩ i hi hinside
    rw [Span.contains_iff] at hcontains
    exact h.uncut hs i hi ⟨by omega, by omega⟩
  · exact h.exists_contains (start_lt_stop_of_mem_located hx) hbounds.1 hbounds.2

/-- **A cut token shows the characters that it holds as a whole.**  A reader drops what a reader in
chunks gives up by the table of lead bytes, which is that of the characters; of a slice of a text,
wherever in a character it starts or stops, that leaves the characters with all their bytes in the
slice, in order.  The same is seen of a token in a document with this text, and slices that follow
each other from the start of the text to its end together leave the text without the characters
that one of their ends cuts. -/
theorem decodeLossy_keeps_whole (text : List Char) :
    (∀ lead tail, (∃ c, encodeChar c = lead :: tail) ↔
      ∃ ranges, tailRanges? lead = some ranges ∧ List.Forall₂ InRange ranges tail) ∧
    (∀ bs, (chunks bs).flatMap (fun chunk => chunk.valid ++ chunk.invalid) = bs ∧
      encode (decodeLossy bs) = (chunks bs).flatMap Chunk.valid) ∧
    (∀ start stop, start ≤ stop → stop ≤ (encode text).length →
      decodeLossy (((encode text).take stop).drop start)
        = ((located 0 text).filter fun x => start ≤ x.2.start ∧ x.2.stop ≤ stop).map Prod.fst) ∧
    (∀ d : Document, d.fullText = .ok text → ∀ span, span.stop ≤ d.length →
      d.visibleText span
        = ((located 0 text).filter fun x =>
            span.start ≤ x.2.start ∧ x.2.stop ≤ span.stop).map Prod.fst) ∧
    ∀ spans, Span.Chain 0 spans (encode text).length →
      spans.flatMap (fun s => decodeLossy (((encode text).take s.stop).drop s.start))
        = ((located 0 text).filter fun x => Span.Uncut spans x.2).map Prod.fst := by
  have hslice (s : Span) : decodeLossy (slice 0 (encode text) s)
      = ((located 0 text).filter fun x =>
          s.start ≤ x.2.start ∧ x.2.stop ≤ s.stop).map Prod.fst := by
    rw [decodeLossy_slice]
    simp only [Span.contains, Bool.decide_and]
  refine ⟨fun lead tail => exists_encodeChar_iff,
    fun bs => ⟨flatMap_chunksFrom [] bs, (flatMap_valid_chunksFrom [] bs).symm⟩, ?_, ?_, ?_⟩
  · intro start stop hle _
    exact hslice ⟨start, stop, hle⟩
  · intro d htext span hstop
    rw [Document.fullText_eq_ok_iff] at htext
    rw [Document.visibleText, Document.bytes_eq_ok hstop, ← htext]
    exact hslice span
  · intro spans hspans
    exact flatMap_decodeLossy_slice hspans

/-- A letter of one byte, one of two, and a sign of three. -/
def widening : List Char :=
  ['n', 'é', '€']

/-- The widening characters as a document. -/
def wideningDocument : Document :=
  ⟨.python, (encode widening).toArray, by decide +kernel⟩

/-- A cut through the letter in the middle leaves the sign, and a second cut through the sign
leaves neither. -/
theorem decodeLossy_keeps_whole_widening :
    chunks [0xA9, 0xE2, 0x82, 0xAC, 0xE2, 0x82, 0x6E]
      = [⟨[], [0xA9]⟩, ⟨[0xE2, 0x82, 0xAC], [0xE2, 0x82]⟩, ⟨[0x6E], []⟩] ∧
    decodeLossy [0xA9, 0xE2, 0x82, 0xAC, 0xE2, 0x82, 0x6E] = ['€', 'n'] ∧
    decodeLossy (((encode widening).take 6).drop 2) = ['€'] ∧
    wideningDocument.visibleText ⟨2, 6, by decide⟩ = ['€'] ∧
    [⟨0, 2, by decide⟩, ⟨2, 6, by decide⟩].flatMap (fun s : Span =>
      decodeLossy (((encode widening).take s.stop).drop s.start)) = ['n', '€'] ∧
    [⟨0, 2, by decide⟩, ⟨2, 5, by decide⟩, ⟨5, 6, by decide⟩].flatMap (fun s : Span =>
      decodeLossy (((encode widening).take s.stop).drop s.start)) = ['n'] := by
  obtain ⟨-, hchunks, hslice, hdocument, hchain⟩ := decodeLossy_keeps_whole widening
  have hread : chunks [0xA9, 0xE2, 0x82, 0xAC, 0xE2, 0x82, 0x6E]
      = [⟨[], [0xA9]⟩, ⟨[0xE2, 0x82, 0xAC], [0xE2, 0x82]⟩, ⟨[0x6E], []⟩] := by
    simp [chunks, chunksFrom, tailRanges?, fitting, InRange, tailRange, secondRange]
  have hlength : (encode widening).length = 6 := by decide +kernel
  refine ⟨hread, ?_, ?_, ?_, ?_, ?_⟩
  · refine encode_inj.mp ?_
    rw [(hchunks _).2, hread]
    decide +kernel
  · rw [hslice 2 6 (by decide) (Nat.le_of_eq hlength.symm)]
    decide +kernel
  · rw [hdocument wideningDocument (Document.fullText_eq_ok_iff.mpr rfl) _ (by decide +kernel)]
    decide +kernel
  · have htwo : Span.Chain 0 [⟨0, 2, by decide⟩, ⟨2, 6, by decide⟩] (encode widening).length :=
      ⟨rfl, rfl, hlength.symm⟩
    rw [hchain _ htwo]
    decide +kernel
  · have hthree : Span.Chain 0 [⟨0, 2, by decide⟩, ⟨2, 5, by decide⟩, ⟨5, 6, by decide⟩]
        (encode widening).length := ⟨rfl, rfl, rfl, hlength.symm⟩
    rw [hchain _ hthree]
    decide +kernel

end Utf8

end TokenAlignment
