/-
TokenAlignment/Tokenizer/PieceTable.lean

An open vocabulary of pre-token pieces: every distinct piece gets the next free
id when it is first seen, and keeps it.

The table holds the pieces by id and the ids by piece; each is the inverse of
the other.
-/
import Std.Data.HashMap
import TokenAlignment.Tokenizer.ByteLevel
import TokenAlignment.Tokenizer.Pretoken

namespace TokenAlignment

/-- The pieces seen so far, in the order of their ids, and the id of each. -/
structure PieceTable where
  pieces : Array (List Char)
  ids : Std.HashMap String UInt32

namespace PieceTable

/-- The table before any text. -/
def empty : PieceTable :=
  ⟨#[], ∅⟩

/-- The number of distinct pieces. -/
def size (t : PieceTable) : Nat :=
  t.pieces.size

/-- The error of a table that has given out every id. -/
def full : TokenizerError :=
  .backend "pretoken" "vocabulary exceeds u32::MAX pieces"

/-- The id of a piece, a new one if the piece was not seen before. -/
def intern (t : PieceTable) (piece : List Char) : Except TokenizerError UInt32 × PieceTable :=
  match t.ids[String.ofList piece]? with
  | some id => (.ok id, t)
  | none =>
    if t.size < UInt32.size then
      let id := UInt32.ofNat t.size
      (.ok id, ⟨t.pieces.push piece, t.ids.insert (String.ofList piece) id⟩)
    else (.error full, t)

/-- The ids of some pieces after those found already (newest first); a full table
ends the search. -/
def internAllOnto (done : List UInt32) (t : PieceTable) :
    List (List Char) → Except TokenizerError (List UInt32) × PieceTable
  | [] => (.ok done.reverse, t)
  | piece :: rest =>
    match t.intern piece with
    | (.error e, t') => (.error e, t')
    | (.ok id, t') => internAllOnto (id :: done) t' rest

/-- The ids of the pieces of a text. -/
def encode (text : List Char) (t : PieceTable) :
    Except TokenizerError (List UInt32) × PieceTable :=
  internAllOnto [] t (Pretoken.pieces text)

/-- The bytes of the piece with this id. -/
def tokenBytes (t : PieceTable) (id : UInt32) : Option (List UInt8) :=
  t.pieces[id.toNat]?.map Utf8.encode

end PieceTable

/-- The encoder that gives every pre-token piece an id of its own. -/
def pretokenEncoder : ByteEncoder PieceTable where
  name := "pretoken"
  encode := PieceTable.encode
  tokenBytes := PieceTable.tokenBytes
  vocabulary := []

end TokenAlignment
