/-
TokenAlignment/Score/Total.lean

Totals: counts of tokens and of bytes, as 64-bit words.

A sum that does not fit a word has no value.  Whoever asks for one stops there, so
a total that is there at all is the exact sum.
-/

namespace TokenAlignment

namespace Total

/-- The sum of two totals, if it fits a word. -/
def add? (a b : UInt64) : Option UInt64 :=
  if a.toNat + b.toNat < UInt64.size then some (a + b) else none

theorem add?_eq_some_iff {a b c : UInt64} : add? a b = some c ↔ a.toNat + b.toNat = c.toNat := by
  rw [add?]
  split
  · rename_i h
    rw [Option.some.injEq, ← UInt64.toNat_inj, UInt64.toNat_add, Nat.mod_eq_of_lt h]
  · rename_i h
    have hc := c.toNat_lt_size
    exact iff_of_false (by simp) (by omega)

theorem exists_add? {a b : UInt64} (h : a.toNat + b.toNat < UInt64.size) :
    ∃ c, add? a b = some c :=
  ⟨a + b, if_pos h⟩

end Total

/-- Why an operation gives nothing: an error that it tells, or a sum of totals that
does not fit a word. -/
inductive Stop (ε : Type) where
  | error (e : ε)
  | overflow
  deriving DecidableEq, Repr

namespace Stop

/-- The wording for a sum that does not fit. -/
def overflowMessage : String :=
  "attempt to add with overflow"

/-- What comes out of sums, or else a stop. -/
def ofSums {ε β : Type} : Option β → Except (Stop ε) β
  | some b => .ok b
  | none => .error .overflow

theorem ofSums_eq_ok_iff {ε β : Type} {b? : Option β} {b : β} :
    (ofSums b? : Except (Stop ε) β) = .ok b ↔ b? = some b := by
  cases b? <;> simp [ofSums]

end Stop

end TokenAlignment
