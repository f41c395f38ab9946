/-
TokenAlignment/Proofs/Tokenizer/ByteLevel.lean

The tokens of an encoder whose ids stand for bytes.

If ids stand for blocks of bytes that are the document when put together, the tokens
lie side by side and are as wide as the blocks,

    0 .. |b₀|,   |b₀| .. |b₀| + |b₁|,   …

and nothing else about the ids matters.  There are no tokens otherwise: an id without
bytes, or blocks with more or fewer bytes than the document, are refused
(`spans_eq_ok_iff`).
-/
import TokenAlignment.Proofs.SpanChain
import TokenAlignment.Tokenizer.ByteLevel
import Mathlib.Algebra.GroupWithZero.Nat
import Mathlib.Data.List.Forall2

namespace TokenAlignment

/-- Spans of given widths, side by side. -/
def Span.layout (offset : Nat) : List Nat → List Span
  | [] => []
  | width :: widths =>
    ⟨offset, offset + width, Nat.le_add_right ..⟩ :: layout (offset + width) widths

theorem Span.chain_layout (offset : Nat) (widths : List Nat) :
    Span.Chain offset (Span.layout offset widths) (offset + widths.sum) := by
  induction widths generalizing offset with
  | nil => rfl
  | cons width widths ih =>
      rw [List.sum_cons, ← Nat.add_assoc]
      exact ⟨rfl, ih (offset + width)⟩

namespace ByteEncoder

variable {tokenBytes : UInt32 → Option (List UInt8)} {ids : List UInt32}
  {blocks : List (List UInt8)}

theorem spansOnto_eq (h : List.Forall₂ (fun id block => tokenBytes id = some block) ids blocks)
    (done : List Span) {offset : Nat} (hfits : offset + blocks.flatten.length ≤ maxOffset) :
    spansOnto tokenBytes done offset ids
      = .ok (done.reverse ++ Span.layout offset (blocks.map List.length),
          offset + blocks.flatten.length) := by
  induction h generalizing done offset with
  | nil => simp [spansOnto, Span.layout]
  | @cons id block ids blocks hid hids ih =>
      rw [List.flatten_cons, List.length_append] at hfits
      have hspan : Span.ofRange? offset (offset + block.length) = .ok _ :=
        Span.ofRange?_eq_ok (by omega) (by omega)
      simp only [spansOnto, hid, hspan]
      rw [ih _ (by omega)]
      simp [Span.layout, Nat.add_assoc]

/-- **Ids that stand for the bytes of a document give its tokens**, side by side. -/
theorem spans_eq (h : List.Forall₂ (fun id block => tokenBytes id = some block) ids blocks)
    (hfits : blocks.flatten.length ≤ maxOffset) :
    spans tokenBytes blocks.flatten.length ids
      = .ok (Span.layout 0 (blocks.map List.length)) := by
  rw [spans, spansOnto_eq h [] (by omega)]
  simp

/-- Ids have tokens only if each of them stands for bytes. -/
theorem exists_blocks_of_spansOnto_eq_ok {done tokens : List Span} {offset stop : Nat}
    (h : spansOnto tokenBytes done offset ids = .ok (tokens, stop)) :
    ∃ blocks, List.Forall₂ (fun id block => tokenBytes id = some block) ids blocks ∧
      stop = offset + blocks.flatten.length := by
  induction ids generalizing done offset with
  | nil =>
      rw [spansOnto] at h
      cases h
      exact ⟨[], .nil, rfl⟩
  | cons id ids ih =>
      rw [spansOnto] at h
      rcases hid : tokenBytes id with - | block
      · rw [hid] at h
        cases h
      rw [hid] at h
      dsimp only at h
      rcases hspan : Span.ofRange? offset (offset + block.length) with e | span
      · rw [hspan] at h
        cases h
      rw [hspan] at h
      obtain ⟨blocks, hblocks, hstop⟩ := ih h
      refine ⟨block :: blocks, .cons hid hblocks, ?_⟩
      rw [hstop, List.flatten_cons, List.length_append, Nat.add_assoc]

/-- **When ids have tokens, and which**: each id stands for bytes, and together they are
as many as the document has. -/
theorem spans_eq_ok_iff {length : Nat} (hfits : length ≤ maxOffset) {tokens : List Span} :
    spans tokenBytes length ids = .ok tokens
      ↔ ∃ blocks, List.Forall₂ (fun id block => tokenBytes id = some block) ids blocks ∧
        (blocks.map List.length).sum = length ∧
        tokens = Span.layout 0 (blocks.map List.length) := by
  constructor
  · intro h
    rw [spans] at h
    rcases honto : spansOnto tokenBytes [] 0 ids with e | ⟨found, decoded⟩
    · rw [honto] at h
      cases h
    rw [honto] at h
    dsimp only at h
    obtain ⟨blocks, hblocks, hdecoded⟩ := exists_blocks_of_spansOnto_eq_ok honto
    split at h
    · rename_i hlength
      cases h
      have hsum : blocks.flatten.length = length := by omega
      rw [spansOnto_eq hblocks [] (by omega)] at honto
      cases honto
      exact ⟨blocks, hblocks, by rw [← List.length_flatten, hsum], by simp⟩
    · cases h
  · rintro ⟨blocks, hblocks, hsum, rfl⟩
    rw [← List.length_flatten] at hsum
    rw [← hsum]
    exact spans_eq hblocks (hsum ▸ hfits)

end ByteEncoder

end TokenAlignment
