/-
TokenAlignment/Text/Utf8.lean

UTF-8 over lists of bytes: which characters a byte sequence spells.

A step reads one character:

    next? bs = some (c, rest)   iff   bs = encodeChar c ++ rest

and both readers of whole sequences repeat it.  `decode?` stops at the first
byte where no character begins and refuses the sequence; `decodeLossy` drops
that byte and goes on, so it keeps exactly the characters that stand in the
sequence as a whole.  A byte that continues a character never begins one, which
is why dropping a single byte finds the same characters as dropping the whole
ill-formed stretch.
-/

namespace TokenAlignment

namespace Utf8

/-! ### Writing -/

/-- The bytes that spell one character. -/
abbrev encodeChar (c : Char) : List UInt8 :=
  String.utf8EncodeChar c

/-- The bytes that spell a text. -/
def encode (text : List Char) : List UInt8 :=
  text.flatMap encodeChar

/-! ### Reading one character -/

/-- The character with code point `n`, refused when a shorter spelling exists
(`n < least`) and when `n` is a surrogate or too large. -/
def charFrom? (least n : Nat) : Option Char :=
  if least ≤ n ∧ n.isValidChar then some (Char.ofNat n) else none

/-- The six bits that a continuation byte carries. -/
def continuation? (b : UInt8) : Option Nat :=
  if 0x80 ≤ b.toNat ∧ b.toNat < 0xC0 then some (b.toNat - 0x80) else none

/-- The character that the sequence begins with, and the bytes after it. -/
def next? : List UInt8 → Option (Char × List UInt8)
  | [] => none
  | a :: bs =>
    let lead := a.toNat
    if lead < 0x80 then some (Char.ofNat lead, bs)
    else if lead < 0xC0 then none
    else if lead < 0xE0 then
      match bs with
      | b₁ :: rest =>
        (continuation? b₁).bind fun x₁ =>
          (charFrom? 0x80 ((lead - 0xC0) * 64 + x₁)).map (·, rest)
      | [] => none
    else if lead < 0xF0 then
      match bs with
      | b₁ :: b₂ :: rest =>
        (continuation? b₁).bind fun x₁ =>
          (continuation? b₂).bind fun x₂ =>
            (charFrom? 0x800 (((lead - 0xE0) * 64 + x₁) * 64 + x₂)).map (·, rest)
      | _ => none
    else if lead < 0xF8 then
      match bs with
      | b₁ :: b₂ :: b₃ :: rest =>
        (continuation? b₁).bind fun x₁ =>
          (continuation? b₂).bind fun x₂ =>
            (continuation? b₃).bind fun x₃ =>
              (charFrom? 0x10000 ((((lead - 0xF0) * 64 + x₁) * 64 + x₂) * 64 + x₃)).map
                (·, rest)
      | _ => none
    else none

theorem next?_nil : next? [] = none := rfl

/-- Reading a character uses up at least one byte. -/
theorem length_lt_of_next? {bs rest : List UInt8} {c : Char}
    (h : next? bs = some (c, rest)) : rest.length < bs.length := by
  unfold next? at h
  split at h
  · simp at h
  · rename_i a bs'
    simp only at h
    split at h
    · simp at h
      simp [← h.2]
    split at h
    · simp at h
    split at h
    · split at h
      · simp [Option.bind_eq_some_iff] at h
        obtain ⟨_, _, _, _, _, rfl⟩ := h
        simp only [List.length_cons]; omega
      · simp at h
    split at h
    · split at h
      · simp [Option.bind_eq_some_iff] at h
        obtain ⟨_, _, _, _, _, _, _, rfl⟩ := h
        simp only [List.length_cons]; omega
      · simp at h
    split at h
    · split at h
      · simp [Option.bind_eq_some_iff] at h
        obtain ⟨_, _, _, _, _, _, _, _, _, rfl⟩ := h
        simp only [List.length_cons]; omega
      · simp at h
    · simp at h

/-! ### Reading a sequence -/

/-- Reads characters until none begins; `read` holds those before, newest first.
The result is the text read and the bytes left. -/
def scanOnto (read : List Char) (bs : List UInt8) : List Char × List UInt8 :=
  match h : next? bs with
  | none => (read.reverse, bs)
  | some (c, rest) =>
    have := length_lt_of_next? h
    scanOnto (c :: read) rest
termination_by bs.length
decreasing_by exact this

/-- The longest text that the sequence begins with, and the bytes after it. -/
def scan (bs : List UInt8) : List Char × List UInt8 :=
  scanOnto [] bs

/-- The number of bytes before the first place where no character begins. -/
def validUpTo (bs : List UInt8) : Nat :=
  bs.length - (scan bs).2.length

/-- The text that the whole sequence spells, if it spells one. -/
def decode? (bs : List UInt8) : Option (List Char) :=
  match scan bs with
  | (text, []) => some text
  | (_, _ :: _) => none

/-- Reads every character that begins somewhere in the sequence after the ones
already read, and drops each byte where none begins. -/
def decodeLossyOnto (read : List Char) (bs : List UInt8) : List Char :=
  match bs with
  | [] => read.reverse
  | b :: bs' =>
    match h : next? (b :: bs') with
    | some (c, rest) =>
      have := length_lt_of_next? h
      decodeLossyOnto (c :: read) rest
    | none => decodeLossyOnto read bs'
termination_by bs.length
decreasing_by
  · exact this
  · exact Nat.lt_succ_self _

/-- The characters that the sequence holds as a whole, in order. -/
def decodeLossy (bs : List UInt8) : List Char :=
  decodeLossyOnto [] bs

end Utf8

end TokenAlignment
