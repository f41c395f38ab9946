/-
TokenAlignment/Proofs/Tokenizer/Bytes.lean

The baseline of every comparison: a text of `n` bytes has the tokens

    0..1,  1..2,  …,  n-1..n,

one for each byte, whatever the text says (`tokenize_byteEncoder`).  So a count of tokens is
a count of bytes, and a span in the text has as many tokens as it has bytes
(`length_filter_singles`).
-/
import TokenAlignment.Proofs.Tokenizer.Contract
import Mathlib.Data.List.Intervals

namespace TokenAlignment

/-! ### Spans of one byte -/

namespace Span

/-- The span of one byte. -/
def single (i : Nat) : Span :=
  ⟨i, i + 1, Nat.le_succ i⟩

/-- The spans of the first `n` bytes. -/
def singles (n : Nat) : List Span :=
  (List.range n).map single

@[simp] theorem length_singles (n : Nat) : (singles n).length = n := by
  rw [singles, List.length_map, List.length_range]

theorem layout_replicate_one (offset n : Nat) :
    layout offset (List.replicate n 1) = (List.range' offset n).map single := by
  induction n generalizing offset with
  | zero => rfl
  | succ n ih =>
      rw [List.replicate_succ, layout, ih, List.range'_succ]
      rfl

theorem layout_ones (n : Nat) : layout 0 (List.replicate n 1) = singles n := by
  rw [layout_replicate_one, ← List.range_eq_range', singles]

theorem chain_singles (n : Nat) : Chain 0 (singles n) n := by
  rw [← layout_ones]
  simpa using chain_layout 0 (List.replicate n 1)

/-- **A span has one of the bytes for each of its own**, if it does not reach behind
them. -/
theorem length_filter_singles {n : Nat} {span : Span} (h : span.stop ≤ n) :
    ((singles n).filter fun t : Span =>
        t.stop ≤ span.stop && !(t.stop ≤ span.start : Bool)).length = span.length := by
  have hbetween : (List.range n).filter
        ((fun t : Span => t.stop ≤ span.stop && !(t.stop ≤ span.start : Bool)) ∘ single)
      = ((List.Ico 0 n).filter fun i => span.start ≤ i).filter fun i => i < span.stop := by
    rw [List.Ico.zero_bot, List.filter_filter]
    refine List.filter_congr fun i _ => ?_
    rw [Bool.eq_iff_iff]
    have hstop : (single i).stop = i + 1 := rfl
    simp only [Function.comp_apply, Bool.and_eq_true, decide_eq_true_eq, Bool.not_eq_true',
      decide_eq_false_iff_not]
    omega
  rw [singles, List.filter_map, List.length_map, hbetween, List.Ico.filter_le,
    List.Ico.filter_lt, List.Ico.length, Nat.zero_max, Nat.min_eq_right h, Span.length]

end Span

/-! ### The encoder -/

theorem tokenBytes_byteEncoder {σ : Type} (memory : σ) (b : UInt8) :
    (byteEncoder σ).tokenBytes memory b.toNat.toUInt32 = some [b] := by
  have hid : b.toNat.toUInt32.toNat = b.toNat :=
    UInt32.toNat_ofNat_of_lt' (Nat.lt_trans b.toNat_lt (by decide))
  have hbyte : b.toNat.toUInt32.toUInt8 = b := by
    rw [← UInt8.toNat_inj, UInt32.toNat_toUInt8, hid]
    exact Nat.mod_eq_of_lt b.toNat_lt
  show (if b.toNat.toUInt32.toNat < 256 then some [b.toNat.toUInt32.toUInt8] else none) = _
  rw [hid, if_pos b.toNat_lt, hbyte]

/-- The ids of some bytes stand for these bytes, one by one. -/
theorem forall₂_tokenBytes_byteEncoder {σ : Type} (memory : σ) {bytes : List UInt8}
    {blocks : List (List UInt8)} :
    List.Forall₂ (fun id block => (byteEncoder σ).tokenBytes memory id = some block)
        (bytes.map fun b => b.toNat.toUInt32) blocks
      ↔ blocks = bytes.map fun b => [b] := by
  simp only [List.forall₂_map_left_iff, tokenBytes_byteEncoder, Option.some.injEq]
  rw [← List.forall₂_map_left_iff (f := fun b : UInt8 => [b]) (R := Eq), List.forall₂_eq_eq_eq]
  exact eq_comm

/-- **A text has one token for each byte**, and nothing else has tokens. -/
theorem tokenize_byteEncoder {σ : Type} {d : Document} {memory : σ} {tokens : List Span} :
    ((byteEncoder σ).tokenizer.tokenize d memory).1 = .ok tokens
      ↔ (∃ text, Utf8.encode text = d.content.toList) ∧ tokens = Span.singles d.length := by
  have hones : ((d.content.toList.map fun b => [b]).map List.length)
      = List.replicate d.length 1 := by
    rw [List.map_map]
    exact (List.map_const' ..).trans (congrArg (List.replicate · 1) (Array.length_toList ..))
  refine ByteEncoder.tokenize_eq_ok_iff.trans ?_
  constructor
  · rintro ⟨text, ids, blocks, htext, hids, hblocks, -, rfl⟩
    cases hids
    rw [forall₂_tokenBytes_byteEncoder, htext] at hblocks
    rw [hblocks, hones, Span.layout_ones]
    exact ⟨⟨text, htext⟩, rfl⟩
  · rintro ⟨⟨text, htext⟩, rfl⟩
    refine ⟨text, _, _, htext, rfl, (forall₂_tokenBytes_byteEncoder _).mpr rfl, ?_, ?_⟩
    · rw [htext, hones, List.sum_replicate_nat, Nat.mul_one]
    · rw [htext, hones, Span.layout_ones]

end TokenAlignment
