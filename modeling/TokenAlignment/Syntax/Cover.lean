/-
TokenAlignment/Syntax/Cover.lean

The tokens of a syntax tree: its leaves in document order, with the gaps
between them filled, so that they cover the document from the first byte to the
last.

One running offset is enough: the number of bytes covered so far.  A leaf is
clipped to what lies behind that offset and before the end of the document.
A leaf that loses all its bytes is dropped; an empty leaf is kept as long as it
does not lie behind the offset.  Bytes that no leaf covers become tokens of the
kind `unknown`.
-/
import TokenAlignment.Syntax.Error
import TokenAlignment.Syntax.Tree

namespace TokenAlignment

/-- Tokens that cover the bytes before `reached`, newest first. -/
structure SyntaxCover where
  tokens : List SyntaxToken
  reached : Nat

namespace SyntaxCover

/-- The cover of no bytes. -/
def empty : SyntaxCover :=
  ⟨[], 0⟩

/-- Covers the bytes up to `offset` with a gap token, if there are any. -/
def fillTo (cover : SyntaxCover) (offset : Nat) : SyntaxCover :=
  if h : cover.reached < offset then
    ⟨.unknown ⟨cover.reached, offset, Nat.le_of_lt h⟩ :: cover.tokens, offset⟩
  else cover

/-- Adds a leaf of a document of `length` bytes. -/
def addLeaf (length : Nat) (cover : SyntaxCover) (kind : String) (leaf : Span) : SyntaxCover :=
  let start := min (max leaf.start cover.reached) length
  let stop := min leaf.stop length
  if h : start ≤ stop then
    if start = stop ∧ !leaf.isEmpty then cover
    else ⟨⟨⟨start, stop, h⟩, kind⟩ :: (cover.fillTo start).tokens, stop⟩
  else cover

/-- Adds a node: a leaf with its range, any other node without effect. -/
def visit (length : Nat) (cover : SyntaxCover) (t : SyntaxTree) :
    Except SyntaxError SyntaxCover :=
  if t.isLeaf then
    match t.span? with
    | .ok leaf => .ok (cover.addLeaf length t.kind leaf)
    | .error e => .error (.span e)
  else .ok cover

end SyntaxCover

/-- The tokens of a tree over a document of `length` bytes. -/
def SyntaxTree.tokens (root : SyntaxTree) (length : Nat) (deadline : Deadline) :
    Except SyntaxError (List SyntaxToken) :=
  if maxOffset < length then .error (.span (.endTooLarge length))
  else do
    SyntaxError.checkDeadline deadline
    let cover ← root.walk (SyntaxCover.visit length) .empty
    return (cover.fillTo length).tokens.reverse

end TokenAlignment
