/-
TokenAlignment/Proofs/Report/Totals.lean

The totals of a table are those of its rows, where there are any,

    aggregate  =  ok m,   m with Σ tokens and Σ bytes       if both sums fit a word
    aggregate  =  overflow                                  else,

and as long as rows are merged at all, none that has bytes comes to a record without any
(`aggregate_exact_iff`).

The reader admits every word in a row, so the sums need not fit: two rows of `2 ^ 63` bytes are
a table, and have no totals (`aggregate_stops`).
-/
import TokenAlignment.Proofs.Report.Tables
import TokenAlignment.Proofs.Text.Split

namespace TokenAlignment

namespace Metrics

variable {α : Type} [Scalar α]

/-- Rows at the front of others that are merged are merged too, and their bytes do not vanish. -/
theorem exists_mergeAll?_of_append {before after : List (Metrics α)} {m : Metrics α}
    (h : mergeAll? (before ++ after) = some m)
    (hpos : 0 < byteSum (before : Multiset (Metrics α))) :
    ∃ m₀, mergeAll? before = some m₀ ∧ 0 < m₀.totalBytes := by
  rw [mergeAll?, List.foldlM_append, Option.bind_eq_bind, Option.bind_eq_some_iff] at h
  obtain ⟨m₀, hm₀, -⟩ := h
  refine ⟨m₀, hm₀, ?_⟩
  rw [UInt64.lt_iff_toNat_lt, (merging_sums.of_mergeAll? hm₀).bytes]
  exact hpos

end Metrics

namespace Csv

open Metrics (tokenSum byteSum)

/-- **The totals of a table are those of its rows exactly where these fit a word.**  Otherwise
there are none at all.  In a table that has totals, no row after which there are bytes is
followed by a reset. -/
theorem aggregate_exact_iff {α : Type} [Scalar α] [CsvNumber α] {bytes : List UInt8}
    {rows : List (Metrics α)} (h : read bytes = .ok rows) :
    ((∃ m : Metrics α, aggregate bytes = .ok m ∧
        m.totalTokens.toNat = tokenSum (rows : Multiset (Metrics α)) ∧
        m.totalBytes.toNat = byteSum (rows : Multiset (Metrics α))) ↔
      tokenSum (rows : Multiset (Metrics α)) < 2 ^ 64 ∧
        byteSum (rows : Multiset (Metrics α)) < 2 ^ 64) ∧
    (¬(tokenSum (rows : Multiset (Metrics α)) < 2 ^ 64 ∧
        byteSum (rows : Multiset (Metrics α)) < 2 ^ 64) →
      (aggregate bytes : Except (Stop CsvError) (Metrics α)) = .error .overflow) ∧
    ∀ m : Metrics α, aggregate bytes = .ok m → ∀ before after, rows = before ++ after →
      0 < byteSum (before : Multiset (Metrics α)) →
      ∃ m₀, Metrics.mergeAll? before = some m₀ ∧ 0 < m₀.totalBytes := by
  rw [aggregate_of_read h]
  simp only [Stop.ofSums_eq_ok_iff]
  refine ⟨?_, ?_, ?_⟩
  · rw [← Metrics.exists_mergeAll?_iff]
    constructor
    · rintro ⟨m, hm, -⟩
      exact ⟨m, hm⟩
    · rintro ⟨m, hm⟩
      have hsums := Metrics.merging_sums.of_mergeAll? hm
      exact ⟨m, hm, hsums.tokens, hsums.bytes⟩
  · intro hfits
    rw [← Metrics.exists_mergeAll?_iff] at hfits
    rcases hmerge : Metrics.mergeAll? rows with - | m
    · rfl
    · exact absurd ⟨m, hmerge⟩ hfits
  · rintro m hm before after rfl hpos
    exact Metrics.exists_mergeAll?_of_append hm hpos

/-- A table with as many bytes in each of two rows. -/
def twoRows (bytes : String) : List UInt8 :=
  let row := "1," ++ bytes ++ ",2,1,1,1,1"
  Lines.toBytes ((header :: List.replicate 2 row.toList).map Utf8.encode)

/-- A row of such a table. -/
def rowOf (bytes : UInt64) : Metrics Float :=
  ⟨2, 1, 1, 1, 1, 1, bytes⟩

theorem aggregate_exact_iff_forty : read (twoRows "40") = .ok [rowOf 40, rowOf 40] ∧
    ∃ m : Metrics Float, aggregate (twoRows "40") = .ok m ∧
      m.totalTokens.toNat = 2 ∧ m.totalBytes.toNat = 80 := by
  have hread : read (twoRows "40") = .ok [rowOf 40, rowOf 40] :=
    toOption_eq_some_iff.mp (by decide +kernel)
  exact ⟨hread, (aggregate_exact_iff hread).1.mpr ⟨by decide, by decide⟩⟩

/-- **Two rows of `2 ^ 63` bytes are a table**, and have no totals. -/
theorem aggregate_stops : ∃ rows : List (Metrics Float),
    read (twoRows "9223372036854775808") = .ok rows ∧
      byteSum (rows : Multiset (Metrics Float)) = 2 ^ 64 ∧
      (aggregate (twoRows "9223372036854775808") : Except (Stop CsvError) (Metrics Float))
        = .error .overflow := by
  have hread : read (twoRows "9223372036854775808")
      = .ok [rowOf 0x8000000000000000, rowOf 0x8000000000000000] :=
    toOption_eq_some_iff.mp (by decide +kernel)
  exact ⟨_, hread, by decide, by rw [aggregate_of_read hread]; rfl⟩

end Csv

end TokenAlignment
