/-
TokenAlignment/Proofs/Text/Utf8.lean

Reading UTF-8 is the inverse of writing it: the characters that are read spell exactly
the bytes that are used up, and what is written is read back,

    next? bs = some (c, rest)   iff   bs = encodeChar c ++ rest
    decode? bs = some text      iff   bs = encode text.

The other direction of the first line goes through the shape of a character's bytes
(`Spells`): a lead byte, and continuations without all of which nothing is read.
-/
import TokenAlignment.Text.Utf8

namespace TokenAlignment

namespace Utf8

/-! ### Writing -/

theorem encode_cons (c : Char) (text : List Char) :
    encode (c :: text) = encodeChar c ++ encode text :=
  List.flatMap_cons

theorem encode_append (a b : List Char) : encode (a ++ b) = encode a ++ encode b :=
  List.flatMap_append

theorem encode_flatten (texts : List (List Char)) :
    encode texts.flatten = (texts.map encode).flatten := by
  induction texts with
  | nil => rfl
  | cons text texts ih =>
      rw [List.flatten_cons, List.map_cons, List.flatten_cons, ← ih, encode_append]

/-- Every character takes at least one byte. -/
theorem length_le_length_encode (text : List Char) : text.length ≤ (encode text).length := by
  induction text with
  | nil => exact Nat.le_refl 0
  | cons c text ih =>
      have hpos : 0 < (encodeChar c).length := by
        rw [String.length_utf8EncodeChar]
        exact c.utf8Size_pos
      show text.length + 1 ≤ (encodeChar c ++ encode text).length
      rw [List.length_append]
      omega

/-! ### Reading one character -/

theorem continuation?_eq_some {b : UInt8} {x : Nat} (h : continuation? b = some x) :
    b.toNat = x + 0x80 ∧ x < 0x40 := by
  rw [continuation?] at h
  split at h
  · injection h with h
    omega
  · cases h

theorem charFrom?_eq_some {least n : Nat} {c : Char} (h : charFrom? least n = some c) :
    least ≤ n ∧ c.val.toNat = n := by
  rw [charFrom?] at h
  split at h
  · rename_i hvalid
    injection h with h
    refine ⟨hvalid.1, ?_⟩
    rw [← h, Char.ofNat, dif_pos hvalid.2]
    rfl
  · cases h

/-- A byte that is known by its number. -/
theorem eq_ofNat {b : UInt8} {n : Nat} (h : b.toNat = n) : b = UInt8.ofNat n := by
  rw [← h, UInt8.ofNat_toNat]

theorem encodeChar_of_one {a : UInt8} (h : a.toNat < 0x80) :
    encodeChar (Char.ofNat a.toNat) = [a] := by
  have hc : (Char.ofNat a.toNat).val.toNat = a.toNat := by
    rw [Char.ofNat, dif_pos (.inl (by omega))]
    rfl
  simp only [encodeChar, String.utf8EncodeChar, hc]
  rw [if_pos (by omega), ← eq_ofNat rfl]

theorem encodeChar_of_two {a b₁ : UInt8} {x₁ : Nat} {c : Char} (ha : 0xC0 ≤ a.toNat)
    (ha' : a.toNat < 0xE0) (h₁ : continuation? b₁ = some x₁)
    (h : charFrom? 0x80 ((a.toNat - 0xC0) * 64 + x₁) = some c) :
    encodeChar c = [a, b₁] := by
  obtain ⟨hb₁, hx₁⟩ := continuation?_eq_some h₁
  obtain ⟨hleast, hc⟩ := charFrom?_eq_some h
  simp only [encodeChar, String.utf8EncodeChar]
  rw [if_neg (by omega), if_pos (by omega), ← eq_ofNat (b := a) (by omega),
    ← eq_ofNat (b := b₁) (by omega)]

theorem encodeChar_of_three {a b₁ b₂ : UInt8} {x₁ x₂ : Nat} {c : Char} (ha : 0xE0 ≤ a.toNat)
    (ha' : a.toNat < 0xF0) (h₁ : continuation? b₁ = some x₁) (h₂ : continuation? b₂ = some x₂)
    (h : charFrom? 0x800 (((a.toNat - 0xE0) * 64 + x₁) * 64 + x₂) = some c) :
    encodeChar c = [a, b₁, b₂] := by
  obtain ⟨hb₁, hx₁⟩ := continuation?_eq_some h₁
  obtain ⟨hb₂, hx₂⟩ := continuation?_eq_some h₂
  obtain ⟨hleast, hc⟩ := charFrom?_eq_some h
  simp only [encodeChar, String.utf8EncodeChar]
  rw [if_neg (by omega), if_neg (by omega), if_pos (by omega), ← eq_ofNat (b := a) (by omega),
    ← eq_ofNat (b := b₁) (by omega), ← eq_ofNat (b := b₂) (by omega)]

theorem encodeChar_of_four {a b₁ b₂ b₃ : UInt8} {x₁ x₂ x₃ : Nat} {c : Char}
    (ha : 0xF0 ≤ a.toNat) (ha' : a.toNat < 0xF8) (h₁ : continuation? b₁ = some x₁)
    (h₂ : continuation? b₂ = some x₂) (h₃ : continuation? b₃ = some x₃)
    (h : charFrom? 0x10000 ((((a.toNat - 0xF0) * 64 + x₁) * 64 + x₂) * 64 + x₃) = some c) :
    encodeChar c = [a, b₁, b₂, b₃] := by
  obtain ⟨hb₁, hx₁⟩ := continuation?_eq_some h₁
  obtain ⟨hb₂, hx₂⟩ := continuation?_eq_some h₂
  obtain ⟨hb₃, hx₃⟩ := continuation?_eq_some h₃
  obtain ⟨hleast, hc⟩ := charFrom?_eq_some h
  simp only [encodeChar, String.utf8EncodeChar]
  rw [if_neg (by omega), if_neg (by omega), if_neg (by omega), ← eq_ofNat (b := a) (by omega),
    ← eq_ofNat (b := b₁) (by omega), ← eq_ofNat (b := b₂) (by omega),
    ← eq_ofNat (b := b₃) (by omega)]

/-- **A character that is read spells the bytes that it was read from.** -/
theorem eq_append_of_next? {bs rest : List UInt8} {c : Char}
    (h : next? bs = some (c, rest)) : bs = encodeChar c ++ rest := by
  rcases bs with - | ⟨a, bs⟩
  · cases h
  simp only [next?] at h
  -- the first byte tells how many bytes there are
  split at h
  · rename_i ha
    cases h
    rw [encodeChar_of_one ha]
    rfl
  split at h
  · cases h
  split at h
  · rcases bs with - | ⟨b₁, bs⟩
    · cases h
    simp only [Option.bind_eq_some_iff, Option.map_eq_some_iff] at h
    obtain ⟨x₁, h₁, c', hc, hcrest⟩ := h
    cases hcrest
    rw [encodeChar_of_two (by omega) (by omega) h₁ hc]
    rfl
  split at h
  · rcases bs with - | ⟨b₁, - | ⟨b₂, bs⟩⟩
    · cases h
    · cases h
    simp only [Option.bind_eq_some_iff, Option.map_eq_some_iff] at h
    obtain ⟨x₁, h₁, x₂, h₂, c', hc, hcrest⟩ := h
    cases hcrest
    rw [encodeChar_of_three (by omega) (by omega) h₁ h₂ hc]
    rfl
  split at h
  · rcases bs with - | ⟨b₁, - | ⟨b₂, - | ⟨b₃, bs⟩⟩⟩
    · cases h
    · cases h
    · cases h
    simp only [Option.bind_eq_some_iff, Option.map_eq_some_iff] at h
    obtain ⟨x₁, h₁, x₂, h₂, x₃, h₃, c', hc, hcrest⟩ := h
    cases hcrest
    rw [encodeChar_of_four (by omega) (by omega) h₁ h₂ h₃ hc]
    rfl
  · cases h

/-! ### The bytes of one character -/

/-- A byte inside a character; no character begins with it. -/
def IsContinuation (b : UInt8) : Prop :=
  0x80 ≤ b.toNat ∧ b.toNat < 0xC0

/-- The byte that continues a character with six bits. -/
def continuation (x : Nat) : UInt8 :=
  UInt8.ofNat (x % 0x40 + 0x80)

theorem toNat_ofNat {n : Nat} (h : n < 256) : (UInt8.ofNat n).toNat = n :=
  UInt8.toNat_ofNat_of_lt' h

theorem continuation?_continuation (x : Nat) :
    continuation? (continuation x) = some (x % 0x40) := by
  rw [continuation, continuation?, toNat_ofNat (by omega), if_pos (by omega),
    Nat.add_sub_cancel]

theorem isContinuation_continuation (x : Nat) : IsContinuation (continuation x) := by
  rw [continuation, IsContinuation, toNat_ofNat (by omega)]
  omega

/-- The number of a character is not that of a surrogate, and not too large. -/
theorem toNat_valid (c : Char) :
    c.val.toNat < 0xD800 ∨ 0xDFFF < c.val.toNat ∧ c.val.toNat < 0x110000 :=
  c.valid

theorem charFrom?_of_valid {least n : Nat} (hleast : least ≤ n)
    (hvalid : n < 0xD800 ∨ 0xDFFF < n ∧ n < 0x110000) :
    charFrom? least n = some (Char.ofNat n) :=
  if_pos ⟨hleast, hvalid⟩

theorem charFrom?_eq {least n : Nat} {c : Char} (hleast : least ≤ n) (hc : c.val.toNat = n) :
    charFrom? least n = some c := by
  subst hc
  rw [charFrom?_of_valid hleast (toNat_valid c)]
  exact congrArg some (Char.ofNat_toNat c)

/-- The bytes of a character, seen from a reader: what the lead byte begins is read once
all bytes are there and not before. -/
structure Spells (c : Char) (lead : UInt8) (tail : List UInt8) : Prop where
  encode_eq : encodeChar c = lead :: tail
  continues : ∀ b ∈ tail, IsContinuation b
  next : ∀ rest, next? (lead :: (tail ++ rest)) = some (c, rest)
  short : ∀ n < tail.length, next? (lead :: tail.take n) = none

section Spells

variable {c : Char} {v : Nat}

theorem spells_one (hv : c.val.toNat = v) (h : v < 0x80) : Spells c (UInt8.ofNat v) [] where
  encode_eq := by
    simp only [encodeChar, String.utf8EncodeChar, hv]
    rw [if_pos (by omega)]
  continues := by simp
  next rest := by
    have hc : Char.ofNat v = c := hv ▸ Char.ofNat_toNat c
    simp only [next?, toNat_ofNat (show v < 256 by omega)]
    rw [if_pos h, hc]
    rfl
  short := by simp

theorem spells_two (hv : c.val.toNat = v) (h : 0x80 ≤ v) (h' : v < 0x800) :
    Spells c (UInt8.ofNat (v / 64 + 0xC0)) [continuation v] := by
  have hlead : (UInt8.ofNat (v / 64 + 0xC0)).toNat = v / 64 + 0xC0 := toNat_ofNat (by omega)
  refine ⟨?_, by simp [isContinuation_continuation], fun rest => ?_, ?_⟩
  · simp only [encodeChar, String.utf8EncodeChar, hv, continuation]
    rw [if_neg (by omega), if_pos (by omega), Nat.mod_eq_of_lt (by omega)]
  · have hc : charFrom? 0x80 (v / 64 * 64 + v % 0x40) = some c :=
      charFrom?_eq (by omega) (by omega)
    simp only [next?, hlead, List.cons_append, List.nil_append]
    rw [if_neg (by omega), if_neg (by omega), if_pos (by omega), continuation?_continuation]
    simp [hc]
  · intro n hn
    obtain rfl : n = 0 := by simpa using hn
    simp only [next?, hlead, List.take_zero]
    rw [if_neg (by omega), if_neg (by omega), if_pos (by omega)]

theorem spells_three (hv : c.val.toNat = v) (h : 0x800 ≤ v) (h' : v < 0x10000) :
    Spells c (UInt8.ofNat (v / 4096 + 0xE0)) [continuation (v / 64), continuation v] := by
  have hlead : (UInt8.ofNat (v / 4096 + 0xE0)).toNat = v / 4096 + 0xE0 := toNat_ofNat (by omega)
  refine ⟨?_, by simp [isContinuation_continuation], fun rest => ?_, ?_⟩
  · simp only [encodeChar, String.utf8EncodeChar, hv, continuation]
    rw [if_neg (by omega), if_neg (by omega), if_pos (by omega),
      Nat.mod_eq_of_lt (show v / 4096 < 0x10 by omega)]
  · have hc : charFrom? 0x800
        ((v / 4096 * 64 + v / 64 % 0x40) * 64 + v % 0x40) = some c :=
      charFrom?_eq (by omega) (by omega)
    simp only [next?, hlead, List.cons_append, List.nil_append]
    rw [if_neg (by omega), if_neg (by omega), if_neg (by omega), if_pos (by omega)]
    simp [continuation?_continuation, hc]
  · intro n hn
    obtain rfl | rfl : n = 0 ∨ n = 1 := by
      have : n < 2 := hn
      omega
    all_goals
      simp only [next?, hlead, List.take_zero, List.take_succ_cons]
      rw [if_neg (by omega), if_neg (by omega), if_neg (by omega), if_pos (by omega)]

theorem spells_four (hv : c.val.toNat = v) (h : 0x10000 ≤ v) :
    Spells c (UInt8.ofNat (v / 262144 + 0xF0))
      [continuation (v / 4096), continuation (v / 64), continuation v] := by
  have hmax : v < 0x110000 := by
    have := toNat_valid c
    omega
  have hlead : (UInt8.ofNat (v / 262144 + 0xF0)).toNat = v / 262144 + 0xF0 :=
    toNat_ofNat (by omega)
  refine ⟨?_, by simp [isContinuation_continuation], fun rest => ?_, ?_⟩
  · simp only [encodeChar, String.utf8EncodeChar, hv, continuation]
    rw [if_neg (by omega), if_neg (by omega), if_neg (by omega),
      Nat.mod_eq_of_lt (show v / 262144 < 0x08 by omega)]
  · have hc : charFrom? 0x10000 (((v / 262144 * 64 + v / 4096 % 0x40) * 64
        + v / 64 % 0x40) * 64 + v % 0x40) = some c :=
      charFrom?_eq (by omega) (by omega)
    simp only [next?, hlead, List.cons_append, List.nil_append]
    rw [if_neg (by omega), if_neg (by omega), if_neg (by omega), if_neg (by omega),
      if_pos (by omega)]
    simp [continuation?_continuation, hc]
  · intro n hn
    obtain rfl | rfl | rfl : n = 0 ∨ n = 1 ∨ n = 2 := by
      have : n < 3 := hn
      omega
    all_goals
      simp only [next?, hlead, List.take_zero, List.take_succ_cons]
      rw [if_neg (by omega), if_neg (by omega), if_neg (by omega), if_neg (by omega),
        if_pos (by omega)]

theorem exists_spells (c : Char) : ∃ lead tail, Spells c lead tail := by
  rcases Nat.lt_or_ge c.val.toNat 0x80 with h₁ | h₁
  · exact ⟨_, _, spells_one rfl h₁⟩
  rcases Nat.lt_or_ge c.val.toNat 0x800 with h₂ | h₂
  · exact ⟨_, _, spells_two rfl h₁ h₂⟩
  rcases Nat.lt_or_ge c.val.toNat 0x10000 with h₃ | h₃
  · exact ⟨_, _, spells_three rfl h₂ h₃⟩
  · exact ⟨_, _, spells_four rfl h₃⟩

end Spells

/-- **A character is read back from its bytes**, whatever follows them. -/
theorem next?_encodeChar_append (c : Char) (rest : List UInt8) :
    next? (encodeChar c ++ rest) = some (c, rest) := by
  obtain ⟨lead, tail, h⟩ := exists_spells c
  rw [h.encode_eq, List.cons_append]
  exact h.next rest

/-! ### Reading a sequence -/

/-- The bytes used up and those left are the sequence. -/
theorem scanOnto_eq (read : List Char) (bs : List UInt8) :
    ∃ text, (scanOnto read bs).1 = read.reverse ++ text ∧
      bs = encode text ++ (scanOnto read bs).2 := by
  fun_induction scanOnto read bs with
  | case1 read bs hnone => exact ⟨[], by simp, rfl⟩
  | case2 read bs c rest hsome _ ih =>
      obtain ⟨text, htext, hrest⟩ := ih
      refine ⟨c :: text, by simp [htext], ?_⟩
      calc bs = encodeChar c ++ rest := eq_append_of_next? hsome
        _ = encodeChar c ++ (encode text ++ (scanOnto (c :: read) rest).2) :=
          congrArg (encodeChar c ++ ·) hrest
        _ = encode (c :: text) ++ (scanOnto (c :: read) rest).2 := by simp [encode]

/-- **A text that is read spells the sequence.** -/
theorem encode_of_decode? {bs : List UInt8} {text : List Char}
    (h : decode? bs = some text) : encode text = bs := by
  obtain ⟨text', htext, hbs⟩ := scanOnto_eq [] bs
  rw [decode?, scan] at h
  split at h
  · rename_i heq
    injection h with h
    rw [heq] at htext hbs
    simp only [List.reverse_nil, List.nil_append, List.append_nil] at htext hbs
    rw [hbs, ← htext, h]
  · cases h

/-- One step of reading, without the bound that makes it end. -/
theorem scanOnto_step (read : List Char) (bs : List UInt8) :
    scanOnto read bs
      = match next? bs with
        | none => (read.reverse, bs)
        | some (c, rest) => scanOnto (c :: read) rest := by
  rw [scanOnto]
  split
  · rename_i hnone
    rw [hnone]
  · rename_i c rest hsome
    show scanOnto (c :: read) rest = _
    rw [hsome]

/-- Reading goes through a text, and stops behind it if no character begins there. -/
theorem scanOnto_encode_append (read text : List Char) {rest : List UInt8}
    (hrest : next? rest = none) :
    scanOnto read (encode text ++ rest) = (read.reverse ++ text, rest) := by
  induction text generalizing read with
  | nil =>
      have hstop : next? (encode [] ++ rest) = none := hrest
      rw [scanOnto_step, hstop, List.append_nil]
      rfl
  | cons c text ih =>
      have hread : next? (encode (c :: text) ++ rest) = some (c, encode text ++ rest) := by
        rw [encode_cons, List.append_assoc]
        exact next?_encodeChar_append c _
      rw [scanOnto_step, hread]
      show scanOnto (c :: read) (encode text ++ rest) = _
      rw [ih, List.reverse_cons, List.append_assoc]
      rfl

/-- **A text is read back from its bytes.** -/
theorem decode?_encode (text : List Char) : decode? (encode text) = some text := by
  have hscan := scanOnto_encode_append [] text next?_nil
  rw [List.append_nil] at hscan
  rw [decode?, scan, hscan]
  rfl

theorem decode?_eq_some_iff {bs : List UInt8} {text : List Char} :
    decode? bs = some text ↔ encode text = bs := by
  constructor
  · exact encode_of_decode?
  · rintro rfl
    exact decode?_encode text

/-- Bytes spell one text at most. -/
theorem encode_inj {text text' : List Char} : encode text = encode text' ↔ text = text' := by
  rw [← decode?_eq_some_iff, decode?_encode, Option.some.injEq, eq_comm]

end Utf8

end TokenAlignment
