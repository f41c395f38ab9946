/-
TokenAlignment/Proofs/Run/CsvStream.lean

The table of a run reproduces the run.

    results ──→ summary                    scored, score of each language
      └──────→ table ──→ text ──→ metrics of the scored documents, in order of arrival

The summary and the reader merge the same records in the same order, so that the metrics
of a table of one language are the record of the language itself, and not only near to
it: no law of the arithmetic is needed.  Where one of them stops for its totals, so does the
other.

Main result: `csv_reproduces`.
-/
import TokenAlignment.Proofs.Report.Csv
import TokenAlignment.Proofs.Run.Alone
import TokenAlignment.Proofs.Run.Summary

namespace TokenAlignment

/-- The metrics of a scored document. -/
def Outcome.metrics? {α : Type} : Outcome α → Option (Metrics α)
  | scored metrics => some metrics
  | _ => none

/-- The metrics of the scored documents, in order. -/
def scoredMetrics {α : Type} (results : List (DocumentResult α)) : List (Metrics α) :=
  results.filterMap (·.outcome.metrics?)

/-! ### Every scored document has a row -/

namespace Runner

variable {σ : Type} (α : Type) [Scalar α]

/-- The language of a scored document is known. -/
theorem exists_language_of_process (r : Runner σ) (item : CorpusItem) (memory : σ)
    (h : (r.process α item memory).1.outcome.isScored = true) :
    ∃ lang, (r.process α item memory).1.language = some lang := by
  rw [process] at h ⊢
  rcases hdocument : item.document with rejection | document
  · rw [hdocument] at h
    cases rejection <;> cases h
  · exact ⟨document.language, rfl⟩

theorem exists_language_of_processAll (r : Runner σ) (memory : σ) (items : List CorpusItem) :
    ∀ result ∈ r.processAll α memory items, result.outcome.isScored = true →
      ∃ lang, result.language = some lang :=
  forall_mem_processAll α (r.exists_language_of_process α) memory items

end Runner

section Rows

variable {α : Type} {results : List (DocumentResult α)}

/-- The metrics of the rows are those of the scored documents. -/
theorem map_snd_rows (h : ∀ result ∈ results, result.outcome.isScored = true →
    ∃ lang, result.language = some lang) : (rows results).map Prod.snd = scoredMetrics results := by
  rw [rows, List.map_filterMap, scoredMetrics]
  refine List.filterMap_congr fun result hresult => ?_
  have hlanguage := h result hresult
  rcases result with ⟨label, language, outcome⟩
  cases outcome with
  | scored metrics =>
      obtain ⟨lang, rfl⟩ := hlanguage rfl
      rfl
  | skipped reason | failed reason | timedOut => cases language <;> rfl

theorem length_scoredMetrics :
    (scoredMetrics results).length = results.countP (·.outcome.isScored) := by
  rw [scoredMetrics, List.length_filterMap_eq_countP]
  refine List.countP_congr fun result _ => ?_
  cases result.outcome <;> simp [Outcome.metrics?, Outcome.isScored]

/-- Rows of scored documents in one language are in this language. -/
theorem language_of_mem_rows {lang : Language}
    (h : ∀ result ∈ results, result.outcome.isScored = true → result.language = some lang) :
    ∀ row ∈ rows results, row.1 = lang := by
  intro row hrow
  obtain ⟨result, hresult, hscored, hlanguage⟩ := exists_of_mem_rows hrow
  rw [h result hresult (by rw [hscored]; rfl)] at hlanguage
  exact (Option.some.inj hlanguage).symm

end Rows

/-! ### The table -/

namespace RunSummary

open Runner

variable {α : Type} [CsvNumber α]

theorem neverFails_csvSink : (Csv.sink α).NeverFails where
  record _ _ _ := rfl
  finish _ := rfl

variable [Scalar α]

/-- The table of a run has a row for each row of its results. -/
theorem ofResults_csvSink {results : List (DocumentResult α)} {summary : RunSummary α}
    (h : (ofResults (Csv.sink α) .empty results).1 = some summary) :
    (ofResults (Csv.sink α) .empty results).2
      = ((rows results).map Prod.snd).foldl Csv.Table.add .empty := by
  rw [ofResults_snd neverFails_csvSink h, List.foldl_map]
  rfl

omit [CsvNumber α] in
/-- The record of a language in which all documents are merges them in order. -/
theorem Tallies.get?_eq_mergeAll? {results : List (DocumentResult α)} {summary : RunSummary α}
    (h : summary.Tallies results) {lang : Language} (hlang : ∀ row ∈ rows results, row.1 = lang) :
    summary.score.get? lang = Metrics.mergeAll? ((rows results).map Prod.snd) := by
  have hall : (rows results).filter (·.1 = lang) = rows results :=
    List.filter_eq_self.mpr fun row hrow => by simp [hlang row hrow]
  rw [CorpusScore.get?_addAll h.score (CorpusScore.get?_new lang), hall]
  rfl

/-- **The table of a run reproduces the run.**  The results may arrive in any order, and there
is a summary just if the totals of their rows fit.  The table is read as the metrics of the
scored documents in this order, one for each document that the summary counts as scored.  If
all scored documents are in one language, the metrics of the table are the record of the
language in the summary.  All this holds for every arithmetic, and for every way to write
numbers that is read back. -/
theorem csv_reproduces {σ : Type} (r : Runner σ) (memory : σ) (items : List CorpusItem)
    {results : List (DocumentResult α)} (hresults : results.Perm (r.processAll α memory items))
    (hback : ∀ m ∈ scoredMetrics results, m.ReadsBack) :
    let run := ofResults (Csv.sink α) .empty results
    (run.1.isSome ↔ Fits (rows results : Multiset (Language × Metrics α))) ∧
    ∀ summary, run.1 = some summary →
      summary.sinkError = none ∧
      Csv.read (Utf8.encode run.2.text) = .ok (scoredMetrics results) ∧
      (run.2.size = summary.scored ∧ (scoredMetrics results).length = summary.scored) ∧
      ∀ lang, (∀ result ∈ results, result.outcome.isScored = true →
          result.language = some lang) →
        ∃ m, Csv.aggregate (Utf8.encode run.2.text) = .ok m ∧
          summary.score.get? lang = some m := by
  intro run
  refine ⟨isSome_ofResults_iff (Csv.sink α) .empty, fun summary hsummary => ?_⟩
  have htallies := tallies_of_ofResults hsummary
  have hlanguages : ∀ result ∈ results, result.outcome.isScored = true →
      ∃ lang, result.language = some lang :=
    fun result hresult => r.exists_language_of_processAll α memory items result
      (hresults.mem_iff.mp hresult)
  have htable : run.2 = (scoredMetrics results).foldl Csv.Table.add .empty := by
    rw [← map_snd_rows hlanguages]
    exact ofResults_csvSink hsummary
  have hscored : (scoredMetrics results).length = summary.scored :=
    length_scoredMetrics.trans htallies.scored.symm
  have hread : Csv.read (Utf8.encode run.2.text) = .ok (scoredMetrics results) := by
    rw [htable]
    exact Csv.read_text hback
  refine ⟨ofResults_sinkError neverFails_csvSink hsummary, hread, ⟨?_, hscored⟩, ?_⟩
  · rw [← hscored, htable, Csv.Table.size, Csv.foldl_add_rows]
    simp [Csv.Table.empty]
  · intro lang hlang
    -- no row is left out for its language, so both sides merge the same list
    have hmerge := htallies.get?_eq_mergeAll? (language_of_mem_rows hlang)
    rw [map_snd_rows hlanguages] at hmerge
    obtain ⟨m, hm⟩ := htallies.gathers.exists_get? lang
    exact ⟨m, Csv.aggregate_eq_ok_iff.mpr ⟨_, hread, hmerge.symm.trans hm⟩, hm⟩

/-- A run with one token for each byte, in a grammar that sees three names in every text. -/
def threeNames : Runner Unit where
  context :=
    { parser := ⟨[.go], fun _ content => some (.node "source_file" 0 content.size
        [.node "identifier" 0 1 [], .node "identifier" 1 3 [],
          .node "identifier" 3 content.size []])⟩
      tokenizer := (byteEncoder Unit).tokenizer
      splitter := fun word => [word] }
  config := EvalConfig.standard

/-- Two texts, and a file that nobody could read between them. -/
def threeNamesCorpus : List CorpusItem :=
  [⟨"a.go", .ok ⟨.go, #[97, 98, 99, 61], by decide⟩⟩, ⟨"b.go", .error (.failed "unreadable")⟩,
    ⟨"c.go", .ok ⟨.go, #[120, 32, 121, 32, 122, 10], by decide⟩⟩]

/-- The results of the two texts, the later one first. -/
def threeNamesResults : List (DocumentResult Float) :=
  (threeNames.processAll Float () threeNamesCorpus).reverse

/-- Their metrics, most of them no finite binary fractions. -/
def threeNamesMetrics : List (Metrics Float) :=
  [⟨1, 2, .ofNat 1 / .ofNat 3, .ofNat 1 / .ofNat 3, 1, 6, 6⟩,
    ⟨1, .ofNat 4 / .ofNat 3, .ofNat 2 / .ofNat 3, .ofNat 2 / .ofNat 3, 1, 4, 4⟩]

theorem scoredMetrics_threeNames : scoredMetrics threeNamesResults = threeNamesMetrics := by
  decide +kernel

theorem readsBack_of_mem_threeNames : ∀ m ∈ scoredMetrics threeNamesResults, m.ReadsBack := by
  rw [scoredMetrics_threeNames]
  decide +kernel

/-- The numbers of their summary. -/
theorem summary_threeNames :
    ((ofResults (Csv.sink Float) .empty threeNamesResults).1.map fun s =>
      (s.scored, (s.score.get? .go).map (·.totalBytes))) = some (2, some 10) := by
  decide +kernel

theorem csv_reproduces_threeNames :
    ∃ summary, (ofResults (Csv.sink Float) .empty threeNamesResults).1 = some summary ∧
      let table := (ofResults (Csv.sink Float) .empty threeNamesResults).2
      Csv.read (Utf8.encode table.text) = .ok threeNamesMetrics ∧
      (table.size = 2 ∧ summary.scored = 2) ∧
      ∃ m, Csv.aggregate (Utf8.encode table.text) = .ok m ∧
        summary.score.get? .go = some m ∧ m.totalBytes = 10 := by
  have hresults : threeNamesResults.Perm (threeNames.processAll Float () threeNamesCorpus) :=
    List.reverse_perm _
  obtain ⟨summary, hsummary, hnumbers⟩ := Option.map_eq_some_iff.mp summary_threeNames
  obtain ⟨hscored, hbytes⟩ := Prod.mk.inj hnumbers
  obtain ⟨-, hrun⟩ :=
    csv_reproduces threeNames () threeNamesCorpus hresults readsBack_of_mem_threeNames
  obtain ⟨-, hread, ⟨hsize, -⟩, hlanguage⟩ := hrun summary hsummary
  have hgo : ∀ result ∈ threeNamesResults, result.outcome.isScored = true →
      result.language = some .go := by
    decide +kernel
  obtain ⟨m, haggregate, hget⟩ := hlanguage .go hgo
  refine ⟨summary, hsummary, hread.trans (congrArg _ scoredMetrics_threeNames),
    ⟨hsize.trans hscored, hscored⟩, m, haggregate, hget, ?_⟩
  rw [hget] at hbytes
  exact Option.some.inj hbytes

end RunSummary

end TokenAlignment
