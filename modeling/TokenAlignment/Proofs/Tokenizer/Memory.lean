/-
TokenAlignment/Proofs/Tokenizer/Memory.lean

Tokenizers that all documents of a run share.

One tokenizer learns from the documents that it sees, the others know everything
from the start.  Either way the memory does not show: the tokens of a document are
those of a tokenizer that has seen nothing (`Supported.tokenize`).  The condition is
that a tokenizer that learns has ids for the pieces of all documents (`HasRoom`); a set
`known` that holds them bounds what the table can come to hold.
-/
import TokenAlignment.Proofs.Tokenizer.PieceTable
import TokenAlignment.Tokenizer.CharOffsets

namespace TokenAlignment

/-- An encoder that knows all its ids from the start. -/
def ByteEncoder.fixed (σ : Type) (name : String)
    (encode : List Char → Except TokenizerError (List UInt32))
    (tokenBytes : UInt32 → Option (List UInt8)) (vocabulary : List (List UInt8)) :
    ByteEncoder σ where
  name := name
  encode text memory := (encode text, memory)
  tokenBytes _ := tokenBytes
  vocabulary := vocabulary

namespace Tokenizer

/-- The tokenizers of a run. -/
inductive Supported : Tokenizer PieceTable → Prop where
  | bytes : Supported (byteEncoder PieceTable).tokenizer
  | pretoken : Supported pretokenEncoder.tokenizer
  | fixed (name : String) (encode : List Char → Except TokenizerError (List UInt32))
      (tokenBytes : UInt32 → Option (List UInt8)) (vocabulary : List (List UInt8)) :
      Supported (ByteEncoder.fixed PieceTable name encode tokenBytes vocabulary).tokenizer
  | offsets (e : OffsetEncoder) : Supported (e.tokenizer PieceTable)

/-- The memory is neither read nor changed. -/
def Memoryless {σ : Type} (T : Tokenizer σ) : Prop :=
  ∀ d memory memory', T.tokenize d memory = ((T.tokenize d memory').1, memory)

theorem memoryless_fixed (σ : Type) (name : String)
    (encode : List Char → Except TokenizerError (List UInt32))
    (tokenBytes : UInt32 → Option (List UInt8)) (vocabulary : List (List UInt8)) :
    (ByteEncoder.fixed σ name encode tokenBytes vocabulary).tokenizer.Memoryless := by
  intro d memory memory'
  simp only [ByteEncoder.tokenizer, ByteEncoder.tokenize, ByteEncoder.fixed]
  rcases d.fullText with e | text
  · rfl
  · dsimp only
    rcases encode text with e | ids <;> rfl

theorem memoryless_offsets (σ : Type) (e : OffsetEncoder) : (e.tokenizer σ).Memoryless :=
  fun _ _ _ => rfl

/-- A tokenizer of a run learns pieces or nothing. -/
theorem Supported.eq_pretoken_or_memoryless {T : Tokenizer PieceTable} (hT : T.Supported) :
    T = pretokenEncoder.tokenizer ∨ T.Memoryless := by
  cases hT with
  | bytes => exact .inr (memoryless_fixed PieceTable _ _ _ _)
  | pretoken => exact .inl rfl
  | fixed name encode tokenBytes vocabulary =>
      exact .inr (memoryless_fixed PieceTable _ _ _ _)
  | offsets e => exact .inr (memoryless_offsets PieceTable e)

/-- There are ids for the known pieces, if the tokenizer gives out any. -/
def HasRoom (T : Tokenizer PieceTable) (known : Finset (List Char)) : Prop :=
  T.Memoryless ∨ known.card ≤ UInt32.size

/-- **The memory of a tokenizer does not show**, and stays within the known pieces. -/
theorem Supported.tokenize {T : Tokenizer PieceTable} (hT : T.Supported)
    {known : Finset (List Char)} (hroom : T.HasRoom known) {d : Document}
    (hd : ∀ piece ∈ d.pieces, piece ∈ known) {t : PieceTable} (ht : t.Within known) :
    (T.tokenize d t).1 = (T.tokenize d .empty).1 ∧ (T.tokenize d t).2.Within known := by
  have hmemoryless (h : T.Memoryless) : (T.tokenize d t).1 = (T.tokenize d .empty).1 ∧
      (T.tokenize d t).2.Within known := by
    rw [h d t .empty]
    exact ⟨rfl, ht⟩
  rcases hroom with h | hcard
  · exact hmemoryless h
  rcases hT.eq_pretoken_or_memoryless with rfl | h
  · obtain ⟨htokens, hwithin⟩ := ht.tokenize hcard hd
    have hfresh := ((PieceTable.within_empty known).tokenize hcard hd).1
    exact ⟨htokens.trans hfresh.symm, hwithin⟩
  · exact hmemoryless h

end Tokenizer

end TokenAlignment
