/-
TokenAlignment/Json/Value.lean

JSON values, as they stand in a text.

An object keeps its members in order, repeated keys included: what a repeated key
means is up to the reader of a record.  A number keeps its digits, and a string
with half a surrogate pair in it has no characters.
-/

namespace TokenAlignment

/-- A JSON value. -/
inductive Json where
  | null
  | bool (value : Bool)
  /-- A number, as it is written. -/
  | number (lexeme : List Char)
  /-- A string; none if it holds an unpaired surrogate. -/
  | string (text : Option (List Char))
  | array (elements : List Json)
  | object (members : List (Option (List Char) × Json))

namespace Json

/-- An object from its members. -/
def record (members : List (String × Json)) : Json :=
  object (members.map fun m => (some m.1.toList, m.2))

/-! ### Records

A record is read from an object that has each field exactly once, or from an
array of the fields in order.  Other members of an object do not matter, but
their keys must be texts. -/

/-- The value of a field that occurs exactly once among the members. -/
def field? (members : List (Option (List Char) × Json)) (name : String) : Option Json :=
  match members.filter fun m => m.1 == some name.toList with
  | [m] => some m.2
  | _ => none

/-- The values of the fields of a record. -/
def fields? (names : List String) : Json → Option (List Json)
  | object members =>
    if members.all fun m => m.1.isSome then names.mapM (field? members) else none
  | array elements => if elements.length = names.length then some elements else none
  | _ => none

end Json

end TokenAlignment
