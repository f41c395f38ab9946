/-
TokenAlignment/Proofs/Text/Slice.lean

What a slice of a text decodes to: the characters that it holds as a whole,

    decodeLossy T[s..e]  =  the characters of T whose bytes lie in s..e.

A slice may begin with the last bytes of a character and end with the first bytes of
another.  The former are continuations, with which no character begins; the latter are
too few for what their lead byte asks for.  Either way each of these bytes is dropped,
and none of them takes a byte of the next character with it.
-/
import TokenAlignment.Proofs.SpanChain
import TokenAlignment.Proofs.Text.Utf8

namespace TokenAlignment

namespace Utf8

/-! ### Where the characters of a text stand -/

/-- The number of bytes of a character. -/
def width (c : Char) : Nat :=
  (encodeChar c).length

theorem length_encode_cons (c : Char) (text : List Char) :
    (encode (c :: text)).length = width c + (encode text).length := by
  rw [encode_cons, List.length_append, width]

theorem width_pos (c : Char) : 0 < width c := by
  rw [width, String.length_utf8EncodeChar]
  exact c.utf8Size_pos

/-- The characters of a text with the bytes that each takes, the first at `offset`. -/
def located (offset : Nat) : List Char → List (Char × Span)
  | [] => []
  | c :: cs =>
    (c, ⟨offset, offset + width c, Nat.le_add_right ..⟩) :: located (offset + width c) cs

theorem located_append (offset : Nat) (a b : List Char) :
    located offset (a ++ b) = located offset a ++ located (offset + (encode a).length) b := by
  induction a generalizing offset with
  | nil => rfl
  | cons c a ih =>
      rw [List.cons_append, located, located, ih, length_encode_cons, Nat.add_assoc]
      rfl

@[simp] theorem map_fst_located (offset : Nat) (text : List Char) :
    (located offset text).map Prod.fst = text := by
  induction text generalizing offset with
  | nil => rfl
  | cons c text ih => simp [located, ih]

/-- The characters follow each other without a gap. -/
theorem chain_located (offset : Nat) (text : List Char) :
    Span.Chain offset ((located offset text).map Prod.snd)
      (offset + (encode text).length) := by
  induction text generalizing offset with
  | nil => rfl
  | cons c text ih =>
      rw [length_encode_cons, ← Nat.add_assoc]
      exact ⟨rfl, ih (offset + width c)⟩

/-- No character is empty. -/
theorem start_lt_stop_of_mem_located {offset : Nat} {text : List Char} {x : Char × Span}
    (h : x ∈ located offset text) : x.2.start < x.2.stop := by
  induction text generalizing offset with
  | nil => cases h
  | cons c text ih =>
      rcases List.mem_cons.mp h with rfl | h
      · exact Nat.lt_add_of_pos_right (width_pos c)
      · exact ih h

theorem pairwise_located (offset : Nat) (text : List Char) :
    (located offset text).Pairwise fun x y => x.2.stop ≤ y.2.start :=
  List.pairwise_map.mp (chain_located offset text).pairwise

theorem mem_located_bounds {offset : Nat} {text : List Char} {x : Char × Span}
    (h : x ∈ located offset text) :
    offset ≤ x.2.start ∧ x.2.stop ≤ offset + (encode text).length :=
  have hchain := chain_located offset text
  have hmem : x.2 ∈ (located offset text).map Prod.snd := List.mem_map_of_mem h
  ⟨hchain.le_start hmem, hchain.stop_le hmem⟩

/-! ### Dropping bytes -/

/-- One step of reading, without the bound that makes it end. -/
theorem decodeLossyOnto_cons (read : List Char) (b : UInt8) (bs : List UInt8) :
    decodeLossyOnto read (b :: bs)
      = match next? (b :: bs) with
        | some (c, rest) => decodeLossyOnto (c :: read) rest
        | none => decodeLossyOnto read bs := by
  rw [decodeLossyOnto]
  split
  · rename_i c rest hsome
    show decodeLossyOnto (c :: read) rest = _
    rw [hsome]
  · rename_i hnone
    rw [hnone]

theorem decodeLossyOnto_eq (read : List Char) (bs : List UInt8) :
    decodeLossyOnto read bs = read.reverse ++ decodeLossy bs := by
  have hahead (read : List Char) (bs : List UInt8) :
      ∀ read', decodeLossyOnto (read ++ read') bs
        = read'.reverse ++ decodeLossyOnto read bs := by
    fun_induction decodeLossyOnto read bs with
    | case1 read => simp [decodeLossyOnto]
    | case2 read b bs c rest hsome _ ih =>
        intro read'
        rw [decodeLossyOnto_cons, hsome]
        exact ih read'
    | case3 read b bs hnone ih =>
        intro read'
        rw [decodeLossyOnto_cons, hnone]
        exact ih read'
  exact hahead [] bs read

@[simp] theorem decodeLossy_nil : decodeLossy [] = [] := by
  rw [decodeLossy, decodeLossyOnto]
  rfl

theorem decodeLossy_of_next?_eq_some {bs rest : List UInt8} {c : Char}
    (h : next? bs = some (c, rest)) : decodeLossy bs = c :: decodeLossy rest := by
  rcases bs with - | ⟨b, bs⟩
  · cases h
  · rw [decodeLossy, decodeLossyOnto_cons, h]
    exact decodeLossyOnto_eq [c] rest

theorem decodeLossy_of_next?_eq_none {b : UInt8} {bs : List UInt8}
    (h : next? (b :: bs) = none) : decodeLossy (b :: bs) = decodeLossy bs := by
  rw [decodeLossy, decodeLossyOnto_cons, h]
  rfl

theorem next?_eq_none_of_isContinuation {b : UInt8} (h : IsContinuation b)
    (bs : List UInt8) : next? (b :: bs) = none := by
  obtain ⟨hlow, hhigh⟩ := h
  simp only [next?]
  rw [if_neg (by omega), if_pos hhigh]

/-- The last bytes of a character are dropped. -/
theorem decodeLossy_append_of_isContinuation {bs : List UInt8}
    (h : ∀ b ∈ bs, IsContinuation b) (rest : List UInt8) :
    decodeLossy (bs ++ rest) = decodeLossy rest := by
  induction bs with
  | nil => rfl
  | cons b bs ih =>
      rw [List.forall_mem_cons] at h
      rw [List.cons_append,
        decodeLossy_of_next?_eq_none (next?_eq_none_of_isContinuation h.1 _), ih h.2]

theorem decodeLossy_encodeChar_append (c : Char) (rest : List UInt8) :
    decodeLossy (encodeChar c ++ rest) = c :: decodeLossy rest :=
  decodeLossy_of_next?_eq_some (next?_encodeChar_append c rest)

/-- The first bytes of a character are dropped, if any is missing. -/
theorem decodeLossy_take_encodeChar (c : Char) {n : Nat} (h : n < width c) :
    decodeLossy ((encodeChar c).take n) = [] := by
  obtain ⟨lead, tail, hspells⟩ := exists_spells c
  rw [width, hspells.encode_eq] at h
  rw [hspells.encode_eq]
  cases n with
  | zero => exact decodeLossy_nil
  | succ n =>
      rw [List.take_succ_cons,
        decodeLossy_of_next?_eq_none (hspells.short n (Nat.lt_of_succ_lt_succ h))]
      have htail : ∀ b ∈ tail.take n, IsContinuation b :=
        fun b hb => hspells.continues b (List.mem_of_mem_take hb)
      rw [← List.append_nil (tail.take n), decodeLossy_append_of_isContinuation htail,
        decodeLossy_nil]

/-- All bytes of a character but the first are continuations. -/
theorem isContinuation_of_mem_drop {c : Char} {n : Nat} (hn : 0 < n) {b : UInt8}
    (h : b ∈ (encodeChar c).drop n) : IsContinuation b := by
  obtain ⟨lead, tail, hspells⟩ := exists_spells c
  rw [hspells.encode_eq] at h
  obtain ⟨n, rfl⟩ : ∃ m, n = m + 1 := ⟨n - 1, by omega⟩
  exact hspells.continues b (List.mem_of_mem_drop h)

/-! ### Slices -/

/-- The bytes of a span, where the first byte of the sequence is at `offset`. -/
def slice (offset : Nat) (bs : List UInt8) (s : Span) : List UInt8 :=
  (bs.take (s.stop - offset)).drop (s.start - offset)

/-- A slice of two sequences is a slice of each. -/
theorem slice_append (offset : Nat) (a b : List UInt8) (s : Span) :
    slice offset (a ++ b) s = slice offset a s ++ slice (offset + a.length) b s := by
  rw [slice, slice, slice, List.take_append, List.drop_append, List.length_take,
    Nat.sub_sub]
  by_cases hstop : a.length ≤ s.stop - offset
  · rw [Nat.min_eq_right hstop, Nat.sub_sub]
  · -- nothing of the second sequence is in the slice
    have hnone : s.stop - offset - a.length = 0 := by omega
    rw [← Nat.sub_sub s.stop, hnone, List.take_zero, List.drop_nil, List.drop_nil]

/-- A slice of a slice, from the bytes of the sequence itself. -/
theorem slice_slice {bs : List UInt8} {outer s : Span} (hstart : outer.start ≤ s.start)
    (hstop : s.stop ≤ outer.stop) :
    slice outer.start (slice 0 bs outer) s = slice 0 bs s := by
  have hle := s.start_le_stop
  simp only [slice, Nat.sub_zero]
  rw [List.take_drop, List.take_take, List.drop_drop,
    Nat.min_eq_left (by omega), show outer.start + (s.stop - outer.start) = s.stop by omega,
    show outer.start + (s.start - outer.start) = s.start by omega]

/-- A slice that starts no later than the sequence is a beginning of it. -/
theorem slice_of_start_le {offset : Nat} {s : Span} (h : s.start ≤ offset)
    (bs : List UInt8) : slice offset bs s = bs.take (s.stop - offset) := by
  rw [slice, Nat.sub_eq_zero_of_le h, List.drop_zero]

theorem slice_of_stop_le {offset : Nat} {s : Span} (h : s.stop ≤ offset)
    (bs : List UInt8) : slice offset bs s = [] := by
  rw [slice, Nat.sub_eq_zero_of_le h, List.take_zero, List.drop_nil]

theorem isContinuation_of_mem_slice {offset : Nat} {c : Char} {s : Span}
    (h : offset < s.start) {b : UInt8} (hb : b ∈ slice offset (encodeChar c) s) :
    IsContinuation b := by
  rw [slice, List.drop_take] at hb
  exact isContinuation_of_mem_drop (Nat.sub_pos_of_lt h) (List.mem_of_mem_take hb)

/-- **A slice of a text decodes to the characters that it holds as a whole.** -/
theorem decodeLossy_slice (offset : Nat) (text : List Char) (s : Span) :
    decodeLossy (slice offset (encode text) s)
      = ((located offset text).filter fun x => s.contains x.2).map Prod.fst := by
  induction text generalizing offset with
  | nil => simp [slice, encode, located]
  | cons c text ih =>
      have hrest := ih (offset + width c)
      rw [encode_cons, slice_append, located, ← width]
      rcases Nat.lt_or_ge offset s.start with hstart | hstart
      · -- the slice begins behind the first byte of the character
        rw [decodeLossy_append_of_isContinuation fun b hb => isContinuation_of_mem_slice hstart hb,
          hrest, List.filter_cons_of_neg (by simp; omega)]
      rw [slice_of_start_le hstart]
      rcases Nat.lt_or_ge s.stop (offset + width c) with hstop | hstop
      · -- the slice ends before the last byte of it
        rw [slice_of_stop_le (Nat.le_of_lt hstop), decodeLossy_nil] at hrest
        rw [slice_of_stop_le (Nat.le_of_lt hstop), List.append_nil,
          decodeLossy_take_encodeChar c (by have := width_pos c; omega), hrest,
          List.filter_cons_of_neg (by simp; omega)]
      · -- the slice holds the whole character
        rw [List.take_of_length_le (by rw [← width]; omega), decodeLossy_encodeChar_append,
          hrest, List.filter_cons_of_pos (by simp; omega),
          List.map_cons]

end Utf8

end TokenAlignment
