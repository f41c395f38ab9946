/-
TokenAlignment/Proofs/Tokenizer/PieceTable.lean

The table of pieces as a bijection that only grows.

A table is *consistent* if its two halves are inverse to each other:

    ids[piece] = id   iff   pieces[id] = piece

Asking for a piece has three outcomes (`Consistent.intern_cases`): it is there, it is
added at the next id, or all ids are given out.  None moves a piece that is there
(`Extends`).  What a table was asked for determines its pieces (`Learned`): they are the
same ones, each once, in the order of first sight.

So the ids of a text stand for the bytes of its pieces, in the table after the text
and in every later one, and the tokens of a document do not depend on what the
table held before (`Within.tokenize`).
-/
import TokenAlignment.Proofs.Document
import TokenAlignment.Proofs.Tokenizer.ByteLevel
import TokenAlignment.Tokenizer.PieceTable
import Mathlib.Data.Finset.Card
import Mathlib.Data.Finset.Dedup

namespace TokenAlignment

namespace PieceTable

/-! ### Consistent tables -/

/-- The ids and the pieces are inverse to each other, and no id is out of range. -/
structure Consistent (t : PieceTable) : Prop where
  ids_iff : ∀ (piece : List Char) (id : UInt32),
    t.ids[String.ofList piece]? = some id ↔ t.pieces[id.toNat]? = some piece
  size_le : t.size ≤ UInt32.size

/-- Every piece keeps its place. -/
def Extends (t t' : PieceTable) : Prop :=
  ∀ (i : Nat) (piece : List Char), t.pieces[i]? = some piece → t'.pieces[i]? = some piece

theorem Extends.refl (t : PieceTable) : t.Extends t :=
  fun _ _ h => h

theorem Extends.trans {t t' t'' : PieceTable} (h : t.Extends t') (h' : t'.Extends t'') :
    t.Extends t'' :=
  fun i piece hi => h' i piece (h i piece hi)

theorem consistent_empty : empty.Consistent where
  ids_iff piece id := by simp [empty]
  size_le := Nat.zero_le _

/-- No piece has two ids. -/
theorem Consistent.nodup {t : PieceTable} (h : t.Consistent) : t.pieces.toList.Nodup := by
  rw [List.nodup_iff_getElem?_ne_getElem?]
  intro i j hij hj heq
  rw [Array.getElem?_toList, Array.getElem?_toList] at heq
  have hsize : j < t.pieces.size := by simpa using hj
  have hle : t.pieces.size ≤ UInt32.size := h.size_le
  obtain ⟨piece, hpiece⟩ : ∃ piece, t.pieces[j]? = some piece :=
    ⟨_, Array.getElem?_eq_getElem hsize⟩
  -- each place of the piece is its id, and it has one
  have hid : ∀ n < UInt32.size, t.pieces[n]? = some piece →
      t.ids[String.ofList piece]? = some (UInt32.ofNat n) := by
    intro n hn hget
    rw [h.ids_iff, UInt32.toNat_ofNat_of_lt' hn]
    exact hget
  have hi := hid i (by omega) (heq.trans hpiece)
  have hj' := hid j (by omega) hpiece
  have hsame : UInt32.ofNat i = UInt32.ofNat j := Option.some.inj (hi.symm.trans hj')
  have hnat := congrArg UInt32.toNat hsame
  rw [UInt32.toNat_ofNat_of_lt' (by omega), UInt32.toNat_ofNat_of_lt' (by omega)] at hnat
  omega

/-- The pieces of a table are those with an id. -/
theorem Consistent.mem_iff {t : PieceTable} (h : t.Consistent) {piece : List Char} :
    piece ∈ t.pieces ↔ ∃ id, t.ids[String.ofList piece]? = some id := by
  constructor
  · intro hmem
    obtain ⟨i, hi, rfl⟩ := Array.getElem_of_mem hmem
    have hsize : i < UInt32.size := Nat.lt_of_lt_of_le hi h.size_le
    refine ⟨UInt32.ofNat i, (h.ids_iff _ _).mpr ?_⟩
    rw [UInt32.toNat_ofNat_of_lt' hsize, Array.getElem?_eq_getElem hi]
  · rintro ⟨id, hid⟩
    exact Array.mem_of_getElem? ((h.ids_iff piece id).mp hid)

/-! ### Interning one piece -/

/-- The table with one more piece, at the next id. -/
def grow (t : PieceTable) (piece : List Char) : PieceTable :=
  ⟨t.pieces.push piece, t.ids.insert (String.ofList piece) (UInt32.ofNat t.size)⟩

theorem extends_grow (t : PieceTable) (piece : List Char) : t.Extends (t.grow piece) := by
  intro i p hp
  obtain ⟨hi, -⟩ := Array.getElem?_eq_some_iff.mp hp
  show (t.pieces.push piece)[i]? = some p
  rw [Array.getElem?_push, if_neg (Nat.ne_of_lt hi), hp]

/-- A new piece at the next free id. -/
theorem Consistent.grow {t : PieceTable} (h : t.Consistent) {piece : List Char}
    (hnew : t.ids[String.ofList piece]? = none) (hsize : t.size < UInt32.size) :
    (t.grow piece).Consistent where
  ids_iff piece' id := by
    have hnat : (UInt32.ofNat t.size).toNat = t.pieces.size :=
      UInt32.toNat_ofNat_of_lt' hsize
    have hid : UInt32.ofNat t.size = id ↔ id.toNat = t.pieces.size := by
      rw [← UInt32.toNat_inj, hnat, eq_comm]
    simp only [PieceTable.grow, Std.HashMap.getElem?_insert, Array.getElem?_push, beq_iff_eq,
      String.ofList_inj]
    by_cases hpiece : piece = piece'
    · subst hpiece
      rw [if_pos rfl, Option.some.injEq, hid]
      split
      · simp [*]
      · -- an old id of the piece would be in the table of ids
        rename_i hold
        rw [← h.ids_iff piece id, hnew]
        simp [hold]
    · rw [if_neg hpiece, h.ids_iff]
      split
      · rename_i hlast
        rw [hlast, Array.getElem?_eq_none (Nat.le_refl _)]
        simp [hpiece]
      · rfl
  size_le := by
    show (t.pieces.push piece).size ≤ UInt32.size
    rw [Array.size_push]
    exact hsize

/-- **The outcomes of interning**: the piece is there, or it is added at the next id, or no
id is left. -/
theorem Consistent.intern_cases {t : PieceTable} (h : t.Consistent) (piece : List Char) :
    (∃ id, t.intern piece = (.ok id, t) ∧ t.pieces[id.toNat]? = some piece) ∨
    (piece ∉ t.pieces ∧ t.size < UInt32.size ∧
      t.intern piece = (.ok (UInt32.ofNat t.size), t.grow piece) ∧
      (t.grow piece).Consistent ∧
      (t.grow piece).pieces[(UInt32.ofNat t.size).toNat]? = some piece) ∨
    (piece ∉ t.pieces ∧ t.size = UInt32.size ∧ t.intern piece = (.error full, t)) := by
  rw [PieceTable.intern]
  rcases hid : t.ids[String.ofList piece]? with - | id
  · have hnew : piece ∉ t.pieces := by
      rw [h.mem_iff, hid]
      rintro ⟨id, ⟨⟩⟩
    by_cases hsize : t.size < UInt32.size
    · refine .inr (.inl ⟨hnew, hsize, if_pos hsize, h.grow hid hsize, ?_⟩)
      rw [UInt32.toNat_ofNat_of_lt' hsize]
      exact Array.getElem?_push_size
    · exact .inr (.inr ⟨hnew, Nat.le_antisymm h.size_le (Nat.le_of_not_lt hsize),
        if_neg hsize⟩)
  · exact .inl ⟨id, rfl, (h.ids_iff piece id).mp hid⟩

/-! ### The pieces that a table was asked for -/

/-- The table holds the pieces that it was asked for, each once, in the order of first
sight. -/
structure Learned (t : PieceTable) (seen : List (List Char)) : Prop where
  consistent : t.Consistent
  pieces_eq : t.pieces.toList = seen.eraseDups

theorem learned_empty : Learned empty [] :=
  ⟨consistent_empty, rfl⟩

theorem eraseDups_of_nodup {pieces : List (List Char)} (h : pieces.Nodup) :
    pieces.eraseDups = pieces := by
  induction pieces with
  | nil => rfl
  | cons piece pieces ih =>
      obtain ⟨hnew, hrest⟩ := List.nodup_cons.mp h
      have hkeep : pieces.filter (fun p => !p == piece) = pieces := by
        rw [List.filter_eq_self]
        intro p hp
        simpa using ne_of_mem_of_not_mem hp hnew
      rw [List.eraseDups_cons, hkeep, ih hrest]

/-- A table may have learned its own pieces. -/
theorem Consistent.learned {t : PieceTable} (h : t.Consistent) : Learned t t.pieces.toList where
  consistent := h
  pieces_eq := (eraseDups_of_nodup h.nodup).symm

section Learned

variable {t : PieceTable} {seen : List (List Char)}

theorem Learned.mem_iff (h : Learned t seen) {piece : List Char} :
    piece ∈ t.pieces ↔ piece ∈ seen := by
  rw [← Array.mem_toList_iff, h.pieces_eq, List.mem_eraseDups]

/-- The size of a table is the number of different pieces. -/
theorem Learned.size_eq (h : Learned t seen) : t.size = seen.toFinset.card := by
  have hset : seen.toFinset = t.pieces.toList.toFinset := by
    ext piece
    rw [List.mem_toFinset, List.mem_toFinset, h.pieces_eq, List.mem_eraseDups]
  rw [hset, List.toFinset_card_of_nodup h.consistent.nodup, Array.length_toList]
  rfl

theorem Learned.card_le (h : Learned t seen) : seen.toFinset.card ≤ UInt32.size :=
  h.size_eq ▸ h.consistent.size_le

/-- **One more piece**: the table learns it and the id stands for it, or it is one piece
too many. -/
theorem Learned.intern (h : Learned t seen) (piece : List Char) :
    (∃ id t', t.intern piece = (.ok id, t') ∧ Learned t' (seen ++ [piece]) ∧ t.Extends t' ∧
      t'.pieces[id.toNat]? = some piece) ∨
    (∃ t', t.intern piece = (.error full, t') ∧
      UInt32.size < (seen ++ [piece]).toFinset.card) := by
  have hgrown : (seen ++ [piece]).eraseDups
      = if piece ∈ seen then seen.eraseDups else seen.eraseDups ++ [piece] := by
    rw [List.eraseDups_append]
    by_cases hmem : piece ∈ seen <;> simp [List.removeAll, hmem, List.eraseDups_cons]
  rcases h.consistent.intern_cases piece with
    ⟨id, hintern, hget⟩ | ⟨hnew, -, hintern, hgrow, hget⟩ | ⟨hnew, hfull, hintern⟩
  · -- a piece that was there has been seen
    have hseen : piece ∈ seen := h.mem_iff.mp (Array.mem_of_getElem? hget)
    refine .inl ⟨id, t, hintern, ⟨h.consistent, ?_⟩, Extends.refl t, hget⟩
    rw [hgrown, if_pos hseen, h.pieces_eq]
  · rw [h.mem_iff] at hnew
    refine .inl ⟨_, _, hintern, ⟨hgrow, ?_⟩, t.extends_grow piece, hget⟩
    rw [hgrown, if_neg hnew, ← h.pieces_eq]
    exact Array.toList_push
  · rw [h.mem_iff] at hnew
    refine .inr ⟨_, hintern, ?_⟩
    rw [List.toFinset_append, Finset.union_comm, List.toFinset_cons, List.toFinset_nil,
      insert_empty_eq, Finset.singleton_union, Finset.card_insert_of_notMem (by simpa using hnew),
      ← h.size_eq, hfull]
    exact Nat.lt_succ_self _

theorem Learned.internAllOnto (h : Learned t seen) (done : List UInt32)
    (pieces : List (List Char)) :
    (∃ ids t', internAllOnto done t pieces = (.ok (done.reverse ++ ids), t') ∧
      Learned t' (seen ++ pieces) ∧ t.Extends t' ∧
      List.Forall₂ (fun id piece => t'.pieces[id.toNat]? = some piece) ids pieces) ∨
    (∃ t', internAllOnto done t pieces = (.error full, t') ∧
      UInt32.size < (seen ++ pieces).toFinset.card) := by
  induction pieces generalizing t seen done with
  | nil =>
      refine .inl ⟨[], t, ?_, by rwa [List.append_nil], Extends.refl t, .nil⟩
      rw [PieceTable.internAllOnto, List.append_nil]
  | cons piece pieces ih =>
      rcases h.intern piece with ⟨id, t₁, hintern, hlearned, hextends, hget⟩ | ⟨t₁, hintern, hcard⟩
      · rcases ih hlearned (id :: done) with
          ⟨ids, t₂, hrest, hlearned₂, hextends₂, hids⟩ | ⟨t₂, hrest, hcard⟩
        · -- the later pieces do not move the first one
          refine .inl ⟨id :: ids, t₂, ?_, by simpa using hlearned₂, hextends.trans hextends₂,
            .cons (hextends₂ _ _ hget) hids⟩
          rw [PieceTable.internAllOnto, hintern]
          simpa using hrest
        · refine .inr ⟨t₂, ?_, by simpa using hcard⟩
          rw [PieceTable.internAllOnto, hintern]
          exact hrest
      · refine .inr ⟨t₁, ?_, Nat.lt_of_lt_of_le hcard (Finset.card_le_card ?_)⟩
        · rw [PieceTable.internAllOnto, hintern]
        · intro p hp
          simp only [List.mem_toFinset, List.mem_append, List.mem_cons, List.not_mem_nil,
            or_false] at hp ⊢
          tauto

/-- **One more text**: the table learns its pieces and the ids stand for them, or there are
too many pieces. -/
theorem Learned.encode (h : Learned t seen) (text : List Char) :
    (∃ ids t', encode text t = (.ok ids, t') ∧ Learned t' (seen ++ Pretoken.pieces text) ∧
      t.Extends t' ∧ List.Forall₂ (fun id piece => t'.pieces[id.toNat]? = some piece) ids
        (Pretoken.pieces text)) ∨
    (∃ t', encode text t = (.error full, t') ∧
      UInt32.size < (seen ++ Pretoken.pieces text).toFinset.card) :=
  h.internAllOnto [] (Pretoken.pieces text)

end Learned

/-! ### Tables with known pieces -/

/-- A consistent table with pieces of a given set. -/
structure Within (t : PieceTable) (known : Finset (List Char)) : Prop where
  consistent : t.Consistent
  mem_known : ∀ piece ∈ t.pieces, piece ∈ known

theorem within_empty (known : Finset (List Char)) : empty.Within known :=
  ⟨consistent_empty, by simp [empty]⟩

theorem Learned.within {t : PieceTable} {seen : List (List Char)} (h : Learned t seen)
    {known : Finset (List Char)} (hseen : ∀ piece ∈ seen, piece ∈ known) : t.Within known :=
  ⟨h.consistent, fun piece hpiece => hseen piece (h.mem_iff.mp hpiece)⟩

theorem Within.encode {t : PieceTable} {known : Finset (List Char)} (h : t.Within known)
    (hcard : known.card ≤ UInt32.size) {text : List Char}
    (htext : ∀ piece ∈ Pretoken.pieces text, piece ∈ known) :
    ∃ ids t', encode text t = (.ok ids, t') ∧ t'.Within known ∧ t.Extends t' ∧
      List.Forall₂ (fun id piece => t'.pieces[id.toNat]? = some piece) ids
        (Pretoken.pieces text) := by
  have hknown : ∀ piece ∈ t.pieces.toList ++ Pretoken.pieces text, piece ∈ known := by
    rw [List.forall_mem_append]
    exact ⟨fun piece hpiece => h.mem_known piece (Array.mem_toList_iff.mp hpiece), htext⟩
  rcases h.consistent.learned.encode text with
    ⟨ids, t', hencode, hlearned, hextends, hids⟩ | ⟨t', -, hmany⟩
  · exact ⟨ids, t', hencode, hlearned.within hknown, hextends, hids⟩
  · -- the set has room for all of them
    have hle := Finset.card_le_card fun piece hpiece => hknown piece (List.mem_toFinset.mp hpiece)
    omega

end PieceTable

/-! ### The tokens of a document -/

namespace Pretoken

theorem flatten_piecesOnto (done : List (List Char)) (text : List Char) :
    (piecesOnto done text).flatten = done.reverse.flatten ++ text := by
  fun_induction piecesOnto done text with
  | case1 done => simp
  | case2 done c cs more ih => simp [ih]

/-- The pieces put together are the text. -/
theorem flatten_pieces (text : List Char) : (pieces text).flatten = text :=
  flatten_piecesOnto [] text

theorem length_piecesOnto_le (done : List (List Char)) (text : List Char) :
    (piecesOnto done text).length ≤ done.length + text.length := by
  fun_induction piecesOnto done text with
  | case1 done => simp
  | case2 done c cs more ih =>
      rw [List.length_cons, List.length_drop] at ih
      rw [List.length_cons]
      omega

end Pretoken

namespace Document

/-- The pieces of the text of a document; none if it has no text. -/
def pieces (d : Document) : List (List Char) :=
  match d.fullText with
  | .ok text => Pretoken.pieces text
  | .error _ => []

/-- One token for each piece of a document. -/
def pieceTokens (d : Document) : Except TokenizerError (List Span) :=
  match d.fullText with
  | .ok text => .ok (Span.layout 0 ((Pretoken.pieces text).map fun p => (Utf8.encode p).length))
  | .error e => .error (.decode e)

/-- A document has no more pieces than bytes. -/
theorem length_pieces_le (d : Document) : d.pieces.length ≤ d.length := by
  rw [pieces]
  split
  · rename_i text htext
    have hpieces := Pretoken.length_piecesOnto_le [] text
    have hbytes := Utf8.length_le_length_encode text
    rw [fullText_eq_ok_iff.mp htext, Array.length_toList] at hbytes
    rw [List.length_nil, Nat.zero_add] at hpieces
    exact Nat.le_trans hpieces hbytes
  · exact Nat.zero_le _

end Document

/-- **The tokens of a document are its pieces**, whatever the table held before, as
long as it does not run out of ids. -/
theorem PieceTable.Within.tokenize {t : PieceTable} {known : Finset (List Char)}
    (h : t.Within known) (hcard : known.card ≤ UInt32.size) {d : Document}
    (hd : ∀ piece ∈ d.pieces, piece ∈ known) :
    (pretokenEncoder.tokenize d t).1 = d.pieceTokens ∧
      (pretokenEncoder.tokenize d t).2.Within known := by
  rw [ByteEncoder.tokenize, Document.pieceTokens]
  rw [Document.pieces] at hd
  rcases htext : d.fullText with e | text
  · exact ⟨rfl, h⟩
  · rw [htext] at hd
    obtain ⟨ids, t', hencode, hwithin, -, hids⟩ := h.encode hcard hd
    have hblocks : List.Forall₂ (fun id block => t'.tokenBytes id = some block) ids
        ((Pretoken.pieces text).map Utf8.encode) := by
      rw [List.forall₂_map_right_iff]
      exact hids.imp fun id piece hget => by rw [tokenBytes, hget]; rfl
    -- what the ids stand for, put together, is the document
    have hflat : ((Pretoken.pieces text).map Utf8.encode).flatten = d.content.toList := by
      rw [← Document.fullText_eq_ok_iff.mp htext, ← Utf8.encode_flatten, Pretoken.flatten_pieces]
    have hlength : d.length = ((Pretoken.pieces text).map Utf8.encode).flatten.length := by
      rw [hflat, Array.length_toList, Document.length]
    have hspans := ByteEncoder.spans_eq hblocks (hlength ▸ d.size_le)
    rw [← hlength] at hspans
    refine ⟨?_, ?_⟩
    · simp only [pretokenEncoder, hencode, hspans, List.map_map]
      rfl
    · simp only [pretokenEncoder, hencode]
      exact hwithin

/-- **One more document**: the table learns its pieces, or no id is left for one of them. -/
theorem PieceTable.Learned.tokenize {t : PieceTable} {seen : List (List Char)}
    (h : Learned t seen) (d : Document) :
    Learned (pretokenEncoder.tokenize d t).2 (seen ++ d.pieces) ∨
      (pretokenEncoder.tokenize d t).1 = .error full := by
  rw [ByteEncoder.tokenize, Document.pieces]
  rcases d.fullText with e | text
  · exact .inl (by rwa [List.append_nil])
  rcases h.encode text with ⟨ids, t', hencode, hlearned, -, -⟩ | ⟨t', hencode, -⟩
  · left
    simp only [pretokenEncoder, hencode]
    exact hlearned
  · right
    simp only [pretokenEncoder, hencode]

/-- A single document never fills the table. -/
theorem tokenize_empty (d : Document) :
    (pretokenEncoder.tokenize d .empty).1 = d.pieceTokens := by
  have hcard : d.pieces.toFinset.card ≤ UInt32.size :=
    calc d.pieces.toFinset.card ≤ d.pieces.length := d.pieces.toFinset_card_le
      _ ≤ d.length := d.length_pieces_le
      _ ≤ maxOffset := d.size_le
      _ ≤ UInt32.size := by decide
  have hwithin := PieceTable.within_empty d.pieces.toFinset
  exact (hwithin.tokenize hcard fun piece hpiece => List.mem_toFinset.mpr hpiece).1

end TokenAlignment
