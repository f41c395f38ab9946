/-
TokenAlignment/Json/Reader.lean

JSON values read from text.

    value     null | true | false | number | string | array | object
    blank     space, tab, line feed, carriage return

Every value starts with a character of its own, so reading never goes back.  The
depth of nesting is bounded by the length of the text, which is what the fuel of
the reader stands for.
-/
import TokenAlignment.Json.Value

namespace TokenAlignment

namespace Json

/-- Whether `c` may stand between the parts of a value. -/
def isBlank (c : Char) : Bool :=
  c = ' ' || c = '\t' || c = '\n' || c = '\r'

/-- The text from the first character that is not blank. -/
def skipBlank (s : List Char) : List Char :=
  s.dropWhile isBlank

/-! ### Numbers -/

/-- Digits at the start of a text, at least one, and the text after them. -/
def digits? (s : List Char) : Option (List Char × List Char) :=
  match s.takeWhile Char.isDigit with
  | [] => none
  | ds => some (ds, s.dropWhile Char.isDigit)

/-- The whole part of a number, which has no superfluous zero. -/
def whole? : List Char → Option (List Char × List Char)
  | '0' :: s => some (['0'], s)
  | s => digits? s

/-- The fraction of a number, if there is one. -/
def fraction? : List Char → Option (List Char × List Char)
  | '.' :: s => (digits? s).map fun (ds, rest) => ('.' :: ds, rest)
  | s => some ([], s)

/-- The sign of an exponent, if there is one. -/
def exponentSign : List Char → List Char × List Char
  | '+' :: s => (['+'], s)
  | '-' :: s => (['-'], s)
  | s => ([], s)

/-- The exponent of a number, if there is one. -/
def exponent? : List Char → Option (List Char × List Char)
  | [] => some ([], [])
  | c :: s =>
    if c = 'e' ∨ c = 'E' then
      let (sign, s) := exponentSign s
      (digits? s).map fun (ds, rest) => (c :: (sign ++ ds), rest)
    else some ([], c :: s)

/-- A number without a sign at the start of a text. -/
def unsigned? (s : List Char) : Option (List Char × List Char) :=
  (whole? s).bind fun (w, s) =>
    (fraction? s).bind fun (f, s) =>
      (exponent? s).map fun (e, s) => (w ++ f ++ e, s)

/-- A number at the start of a text. -/
def number? : List Char → Option (List Char × List Char)
  | '-' :: s => (unsigned? s).map fun (n, rest) => ('-' :: n, rest)
  | s => unsigned? s

/-! ### Strings -/

/-- The value of a hexadecimal digit. -/
def hexDigit? (c : Char) : Option Nat :=
  if c.isDigit then some (c.toNat - '0'.toNat)
  else if 'a' ≤ c ∧ c ≤ 'f' then some (c.toNat - 'a'.toNat + 10)
  else if 'A' ≤ c ∧ c ≤ 'F' then some (c.toNat - 'A'.toNat + 10)
  else none

/-- The number that four hexadecimal digits spell. -/
def hexUnit? (a b c d : Char) : Option Nat :=
  (hexDigit? a).bind fun w => (hexDigit? b).bind fun x =>
    (hexDigit? c).bind fun y => (hexDigit? d).map fun z => ((w * 16 + x) * 16 + y) * 16 + z

/-- The character of an escape with a single letter. -/
def simpleEscape? : Char → Option Char
  | '"' => some '"'
  | '\\' => some '\\'
  | '/' => some '/'
  | 'b' => some '\x08'
  | 'f' => some '\x0c'
  | 'n' => some '\n'
  | 'r' => some '\r'
  | 't' => some '\t'
  | _ => none

/-- Whether a 16-bit unit is the first half of a pair. -/
def isHighSurrogate (n : Nat) : Bool :=
  0xD800 ≤ n && n ≤ 0xDBFF

/-- Whether a 16-bit unit is the second half of a pair. -/
def isLowSurrogate (n : Nat) : Bool :=
  0xDC00 ≤ n && n ≤ 0xDFFF

/-- The second half of a pair that an escape at the start of a text gives, and
the text after it. -/
def lowSurrogate? : List Char → Option (Nat × List Char)
  | '\\' :: 'u' :: a :: b :: c :: d :: rest =>
    (hexUnit? a b c d).bind fun n => if isLowSurrogate n then some (n, rest) else none
  | _ => none

theorem length_of_lowSurrogate? {s rest : List Char} {n : Nat}
    (h : lowSurrogate? s = some (n, rest)) : rest.length < s.length := by
  unfold lowSurrogate? at h
  split at h
  · simp [Option.bind_eq_some_iff] at h
    obtain ⟨_, _, _, _, rfl⟩ := h
    simp only [List.length_cons]; omega
  · simp at h

/-- Reads a string up to its closing quote, after some of its characters (newest
first); `whole` tells that no half of a pair stood alone so far. -/
def stringFrom (read : List Char) (whole : Bool) (s : List Char) :
    Option (Option (List Char) × List Char) :=
  match s with
  | [] => none
  | '"' :: rest => some (if whole then some read.reverse else none, rest)
  | '\\' :: 'u' :: a :: b :: c :: d :: rest =>
    match hexUnit? a b c d with
    | none => none
    | some n =>
      if isHighSurrogate n then
        match h : lowSurrogate? rest with
        | some (m, rest') =>
          have := length_of_lowSurrogate? h
          stringFrom (Char.ofNat (0x10000 + (n - 0xD800) * 0x400 + (m - 0xDC00)) :: read)
            whole rest'
        | none => stringFrom read false rest
      else if isLowSurrogate n then stringFrom read false rest
      else stringFrom (Char.ofNat n :: read) whole rest
  | '\\' :: c :: rest =>
    match simpleEscape? c with
    | none => none
    | some e => stringFrom (e :: read) whole rest
  | c :: rest => if c.toNat < 0x20 ∨ c = '\\' then none else stringFrom (c :: read) whole rest
termination_by s.length
decreasing_by all_goals simp only [List.length_cons]; omega

/-! ### Values -/

/-- The text after a word that it starts with. -/
def afterWord? (word : String) (s : List Char) : Option (List Char) :=
  if word.toList.isPrefixOf s then some (s.drop word.length) else none

/-- The key of a member and its colon, from behind the opening quote. -/
def key? (s : List Char) : Option (Option (List Char) × List Char) :=
  (stringFrom [] true s).bind fun (key, s) =>
    match skipBlank s with
    | ':' :: s => some (key, s)
    | _ => none

mutual

/-- Reads a value; blank characters may stand before it. -/
def value? : (fuel : Nat) → List Char → Option (Json × List Char)
  | 0, _ => none
  | fuel + 1, s =>
    match skipBlank s with
    | '"' :: s => (stringFrom [] true s).map fun (t, s) => (string t, s)
    | '[' :: s =>
      match skipBlank s with
      | ']' :: s => some (array [], s)
      | s => elements? fuel [] s
    | '\x7b' :: s =>
      match skipBlank s with
      | '\x7d' :: s => some (object [], s)
      | s => members? fuel [] s
    | 'n' :: s => (afterWord? "ull" s).map (null, ·)
    | 't' :: s => (afterWord? "rue" s).map (bool true, ·)
    | 'f' :: s => (afterWord? "alse" s).map (bool false, ·)
    | s => (number? s).map fun (n, s) => (number n, s)

/-- Reads the elements of an array after some read already (newest first), and
its closing bracket. -/
def elements? : (fuel : Nat) → List Json → List Char → Option (Json × List Char)
  | 0, _, _ => none
  | fuel + 1, read, s =>
    match value? fuel s with
    | none => none
    | some (v, s) =>
      match skipBlank s with
      | ',' :: s => elements? fuel (v :: read) s
      | ']' :: s => some (array (v :: read).reverse, s)
      | _ => none

/-- Reads the members of an object after some read already (newest first), and
its closing brace. -/
def members? : (fuel : Nat) → List (Option (List Char) × Json) → List Char →
    Option (Json × List Char)
  | 0, _, _ => none
  | fuel + 1, read, s =>
    match skipBlank s with
    | '"' :: s =>
      match key? s with
      | none => none
      | some (key, s) =>
        match value? fuel s with
        | none => none
        | some (v, s) =>
          match skipBlank s with
          | ',' :: s => members? fuel ((key, v) :: read) s
          | '\x7d' :: s => some (object ((key, v) :: read).reverse, s)
          | _ => none
    | _ => none

end

/-- The value that a text spells, with nothing but blank characters around
it. -/
def ofText? (s : List Char) : Option Json :=
  match value? (2 * s.length + 2) s with
  | some (v, rest) => if (skipBlank rest).isEmpty then some v else none
  | none => none

end Json

end TokenAlignment
