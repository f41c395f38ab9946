/-
TokenAlignment/Proofs/Text/ByteOrder.lean

The order of texts by their code points is the order of their bytes,

    encode a < encode b   iff   a < b,

both orders going by the first place where the two differ.

Two characters differ in their bytes before either ends, and the first difference has the sign
of that of their code points (`encodeChar_append_lt`): a longer spelling has a greater lead byte,
and spellings of one length are the digits of the code point, each digit with the same offset.
-/
import TokenAlignment.Proofs.Text.Utf8
import Mathlib.Data.Char
import Mathlib.Data.List.Lex
import Mathlib.Tactic.SplitIfs

namespace TokenAlignment

namespace Utf8

/-- Bytes are compared by their numbers. -/
theorem map_toNat_lt_map_toNat {as bs : List UInt8} :
    as.map UInt8.toNat < bs.map UInt8.toNat ↔ as < bs := by
  induction as generalizing bs with
  | nil => cases bs <;> simp
  | cons a as ih =>
      rcases bs with - | ⟨b, bs⟩
      · simp
      · rw [List.map_cons, List.map_cons, List.cons_lt_cons_iff, List.cons_lt_cons_iff, ih,
          UInt8.lt_iff_toNat_lt, UInt8.toNat_inj]

/-- The numbers of the bytes of a character. -/
def byteNumbers (v : Nat) : List Nat :=
  if v ≤ 0x7F then [v]
  else if v ≤ 0x7FF then [v / 64 + 0xC0, v % 64 + 0x80]
  else if v ≤ 0xFFFF then [v / 4096 + 0xE0, v / 64 % 64 + 0x80, v % 64 + 0x80]
  else [v / 262144 + 0xF0, v / 4096 % 64 + 0x80, v / 64 % 64 + 0x80, v % 64 + 0x80]

theorem map_toNat_encodeChar (c : Char) :
    (encodeChar c).map UInt8.toNat = byteNumbers c.val.toNat := by
  have hmax : c.val.toNat < 0x110000 := by
    have := toNat_valid c
    omega
  simp only [encodeChar, String.utf8EncodeChar, byteNumbers]
  split_ifs
  all_goals
    simp only [List.map_cons, List.map_nil, UInt8.toNat_ofNat', List.cons.injEq, and_true]
    omega

/-- **A character of a smaller number comes first**, whatever follows the two. -/
theorem encodeChar_append_lt {c d : Char} (h : c < d) (as bs : List UInt8) :
    encodeChar c ++ as < encodeChar d ++ bs := by
  have hlt : c.val.toNat < d.val.toNat := h
  rw [← map_toNat_lt_map_toNat, List.map_append, List.map_append, map_toNat_encodeChar,
    map_toNat_encodeChar]
  simp only [byteNumbers]
  -- by the lengths of the two; digits are compared from the left
  split_ifs
  all_goals
    simp only [List.cons_append, List.cons_lt_cons_iff, List.nil_append]
    omega

theorem encode_lt_encode {a b : List Char} (h : a < b) : encode a < encode b := by
  induction a generalizing b with
  | nil =>
      rcases b with - | ⟨d, b⟩
      · exact absurd h (List.lt_irrefl _)
      obtain ⟨lead, tail, hspells⟩ := exists_spells d
      rw [encode_cons, hspells.encode_eq]
      exact List.nil_lt_cons _ _
  | cons c a ih =>
      rcases b with - | ⟨d, b⟩
      · exact absurd h (List.not_lt_nil _)
      rw [encode_cons, encode_cons]
      rcases List.cons_lt_cons_iff.mp h with hlt | ⟨rfl, hlt⟩
      · exact encodeChar_append_lt hlt _ _
      · exact List.Lex.append_left _ (ih hlt) _

/-- **Texts are in the order of their bytes.** -/
theorem encode_lt_encode_iff {a b : List Char} : encode a < encode b ↔ a < b := by
  refine ⟨fun h => ?_, encode_lt_encode⟩
  rcases lt_trichotomy a b with hlt | rfl | hgt
  · exact hlt
  · exact absurd h (List.lt_irrefl _)
  · exact absurd h (List.lt_asymm (encode_lt_encode hgt))

end Utf8

end TokenAlignment
