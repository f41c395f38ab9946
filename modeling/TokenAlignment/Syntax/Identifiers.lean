/-
TokenAlignment/Syntax/Identifiers.lean

The identifiers of a syntax tree: the nodes whose kind is one of the language's
identifier kinds.

Only the kind counts.  A node with children is reported like any other, and so
is a node below another identifier.
-/
import TokenAlignment.Syntax.Error
import TokenAlignment.Syntax.Tree

namespace TokenAlignment

namespace SyntaxTree

/-- Adds a node to the identifiers found so far (newest first), if its kind is
listed. -/
def addIdentifier (kinds : List String) (found : List SyntaxToken) (t : SyntaxTree) :
    Except SyntaxError (List SyntaxToken) :=
  if kinds.contains t.kind then
    match t.span? with
    | .ok span => .ok (⟨span, t.kind⟩ :: found)
    | .error e => .error (.span e)
  else .ok found

/-- The nodes of the listed kinds, a node before the nodes below it. -/
def identifiers (root : SyntaxTree) (kinds : List String) (deadline : Deadline) :
    Except SyntaxError (List SyntaxToken) := do
  SyntaxError.checkDeadline deadline
  let found ← root.walk (addIdentifier kinds) []
  return found.reverse

end SyntaxTree

end TokenAlignment
