/-
TokenAlignment/Json/Printer.lean

JSON values as text for readers: one element or member on a line, two spaces
deeper than the brackets around it.  Brackets with nothing between them stay
together.
-/
import TokenAlignment.Json.Value

namespace TokenAlignment

namespace Json

/-- The characters that stand for one character in a string: a letter behind a
backslash where there is one for it, four hexadecimal digits for the other
control characters, and all else as it is. -/
def escapeChar (c : Char) : List Char :=
  match c with
  | '"' => ['\\', '"']
  | '\\' => ['\\', '\\']
  | '\x08' => ['\\', 'b']
  | '\x0c' => ['\\', 'f']
  | '\n' => ['\\', 'n']
  | '\r' => ['\\', 'r']
  | '\t' => ['\\', 't']
  | _ =>
    if c.toNat < 0x20 then
      ['\\', 'u', '0', '0', Nat.digitChar (c.toNat / 16), Nat.digitChar (c.toNat % 16)]
    else [c]

/-- A text between quotes. -/
def quote (text : List Char) : List Char :=
  '"' :: (text.flatMap escapeChar ++ ['"'])

/-- A line break and the blanks of a depth. -/
def newLine (depth : Nat) : List Char :=
  '\n' :: List.replicate (2 * depth) ' '

mutual

/-- The text of a value inside `depth` brackets. -/
def pretty (depth : Nat) : Json → List Char
  | null => "null".toList
  | bool true => "true".toList
  | bool false => "false".toList
  | number lexeme => lexeme
  | string text => quote (text.getD [])
  | array [] => "[]".toList
  | array (v :: vs) =>
    '[' :: (newLine (depth + 1) ++ pretty (depth + 1) v ++ prettyElements (depth + 1) vs ++
      newLine depth ++ [']'])
  | object [] => ['\x7b', '\x7d']
  | object ((key, v) :: ms) =>
    '\x7b' :: (newLine (depth + 1) ++ quote (key.getD []) ++ [':', ' '] ++
      pretty (depth + 1) v ++ prettyMembers (depth + 1) ms ++ newLine depth ++ ['\x7d'])

/-- The text of the elements after the first. -/
def prettyElements (depth : Nat) : List Json → List Char
  | [] => []
  | v :: vs => ',' :: (newLine depth ++ pretty depth v ++ prettyElements depth vs)

/-- The text of the members after the first. -/
def prettyMembers (depth : Nat) : List (Option (List Char) × Json) → List Char
  | [] => []
  | (key, v) :: ms =>
    ',' :: (newLine depth ++ quote (key.getD []) ++ [':', ' '] ++ pretty depth v ++
      prettyMembers depth ms)

end

/-- The text of a value. -/
def render (v : Json) : List Char :=
  pretty 0 v

end Json

end TokenAlignment
