/-
TokenAlignment/Decimal/Natural.lean

Natural numbers below 2 ^ 64 as decimal text.

Reading accepts digits after an optional plus sign.  Of two faults the one
further left is reported: a character that is no digit, or the digit with which
the value leaves the range.
-/

namespace TokenAlignment

/-- Why a text is not a natural number below 2 ^ 64. -/
inductive NaturalError where
  | empty
  | invalidDigit
  | overflow
  deriving DecidableEq, Repr

namespace NaturalError

/-- The wording of the error. -/
def message : NaturalError → String
  | empty => "cannot parse integer from empty string"
  | invalidDigit => "invalid digit found in string"
  | overflow => "number too large to fit in target type"

end NaturalError

namespace Natural

/-- The value of a decimal digit. -/
def digit? (c : Char) : Option Nat :=
  if c.isDigit then some (c.toNat - '0'.toNat) else none

/-- Reads digits after a number with the value `value`. -/
def readFrom (value : Nat) : List Char → Except NaturalError UInt64
  | [] => .ok (UInt64.ofNat value)
  | c :: cs =>
    match digit? c with
    | none => .error .invalidDigit
    | some d =>
      if value * 10 + d < UInt64.size then readFrom (value * 10 + d) cs else .error .overflow

/-- Reads a natural number below 2 ^ 64. -/
def read : List Char → Except NaturalError UInt64
  | [] => .error .empty
  | ['+'] => .error .invalidDigit
  | '+' :: cs => readFrom 0 cs
  | cs => readFrom 0 cs

/-- The decimal digits of a natural number. -/
def digits (n : Nat) : List Char :=
  Nat.toDigits 10 n

/-- The hexadecimal digits of a natural number, letters in upper case. -/
def hexDigits (n : Nat) : List Char :=
  (Nat.toDigits 16 n).map Char.toUpper

end Natural

end TokenAlignment
