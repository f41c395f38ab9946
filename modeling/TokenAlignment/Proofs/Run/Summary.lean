/-
TokenAlignment/Proofs/Run/Summary.lean

What a run reports, read off its results.

    results ──→ counts of the outcomes
      └─→ rows ──→ score
            └────→ calls of the sink

There is a summary just if the totals of the rows fit, whatever the sink does
(`isSome_ofResults_iff`).  Its counts and score are those of the results
(`tallies_of_ofResults`): only the error of the sink is its own.  A sink without errors is
called once for each row, in order, and once more to finish (`ofResults_calls`).

Main results: the counts (`Tallies.counts_perm`) and in exact arithmetic the score
(`Tallies.score_perm`) do not depend on the order of the results.
-/
import TokenAlignment.Proofs.Score.Aggregation
import TokenAlignment.Run.Runner
import Mathlib.Data.List.Induction

namespace TokenAlignment

/-- The row of a scored document: its language and its metrics. -/
def DocumentResult.row? {α : Type} (result : DocumentResult α) :
    Option (Language × Metrics α) :=
  match result.outcome, result.language with
  | .scored metrics, some lang => some (lang, metrics)
  | _, _ => none

/-- The rows of some results, in order. -/
def rows {α : Type} (results : List (DocumentResult α)) : List (Language × Metrics α) :=
  results.filterMap (·.row?)

theorem DocumentResult.row?_eq_some_iff {α : Type} {result : DocumentResult α}
    {lang : Language} {metrics : Metrics α} : result.row? = some (lang, metrics)
      ↔ result.outcome = .scored metrics ∧ result.language = some lang := by
  rcases result with ⟨label, language, outcome⟩
  cases outcome <;> cases language <;> simp [row?, and_comm]

theorem rows_concat {α : Type} (results : List (DocumentResult α)) (result : DocumentResult α) :
    rows (results ++ [result]) = rows results ++ result.row?.toList := by
  rw [rows, List.filterMap_append, ← rows]
  rcases hrow : result.row? with - | row <;> simp [hrow]

/-- Each row is that of a scored document. -/
theorem exists_of_mem_rows {α : Type} {results : List (DocumentResult α)}
    {row : Language × Metrics α} (h : row ∈ rows results) :
    ∃ result ∈ results, result.outcome = .scored row.2 ∧ result.language = some row.1 := by
  obtain ⟨result, hresult, hrow⟩ := List.mem_filterMap.mp h
  exact ⟨result, hresult, DocumentResult.row?_eq_some_iff.mp hrow⟩

theorem coe_rows_perm {α : Type} {results results' : List (DocumentResult α)}
    (hperm : results'.Perm results) :
    (rows results' : Multiset (Language × Metrics α)) = rows results :=
  Multiset.coe_eq_coe.mpr (hperm.filterMap _)

theorem CorpusScore.addAll?_append {α : Type} [Scalar α] (s : CorpusScore α)
    (rows more : List (Language × Metrics α)) :
    s.addAll? (rows ++ more) = (s.addAll? rows).bind (·.addAll? more) := by
  simp only [CorpusScore.addAll?, List.foldlM_append]
  rfl

/-- What a sink is asked to do. -/
inductive SinkCall (α : Type) where
  | record (lang : Language) (metrics : Metrics α)
  | finish

/-- The call for a row. -/
def SinkCall.ofRow {α : Type} (row : Language × Metrics α) : SinkCall α :=
  .record row.1 row.2

namespace MetricsSink

variable {α τ : Type}

/-- The sink, with a list of all its calls. -/
def logged (sink : MetricsSink α τ) : MetricsSink α (τ × List (SinkCall α)) where
  record lang metrics state :=
    let (error, t) := sink.record lang metrics state.1
    (error, t, state.2 ++ [.record lang metrics])
  finish state :=
    let (error, t) := sink.finish state.1
    (error, t, state.2 ++ [.finish])

/-- No call of the sink fails. -/
structure NeverFails (sink : MetricsSink α τ) : Prop where
  record : ∀ lang metrics t, (sink.record lang metrics t).1 = none
  finish : ∀ t, (sink.finish t).1 = none

theorem NeverFails.logged {sink : MetricsSink α τ} (h : sink.NeverFails) :
    sink.logged.NeverFails where
  record lang metrics state := h.record lang metrics state.1
  finish state := h.finish state.1

end MetricsSink

namespace RunSummary

variable {α τ : Type}

/-! ### The error of the sink -/

/-- The summary with another error of the sink. -/
def withSinkError (s : RunSummary α) (error : Option String) : RunSummary α :=
  { s with sinkError := error }

theorem noteSinkError_eq (s : RunSummary α) (error : Option String) :
    s.noteSinkError error = s.withSinkError (error.or s.sinkError) := by
  cases error <;> rfl

theorem close_of_sound {sink : MetricsSink α τ} {s : RunSummary α} {t : τ}
    (h : s.sinkError = none) :
    close sink (some s, t) = (some (s.noteSinkError (sink.finish t).1), (sink.finish t).2) := by
  simp only [close, h]

theorem close_of_unsound {sink : MetricsSink α τ} {s : RunSummary α} {t : τ} {error : String}
    (h : s.sinkError = some error) : close sink (some s, t) = (some s, t) := by
  simp only [close, h]

/-- A run that ends with a summary ended the results with one. -/
theorem exists_of_close_eq_some {sink : MetricsSink α τ} {state : Option (RunSummary α) × τ}
    {s' : RunSummary α} (h : (close sink state).1 = some s') : ∃ s t, state = (some s, t) := by
  obtain ⟨s?, t⟩ := state
  cases s? with
  | none => cases h
  | some s => exact ⟨s, t, rfl⟩

variable [Scalar α]

/-! ### Counts and score -/

/-- The summary of some results without a word about the sink. -/
def tally? (results : List (DocumentResult α)) : Option (RunSummary α) :=
  (CorpusScore.new.addAll? (rows results)).map fun score =>
    { scored := results.countP (·.outcome.isScored)
      skipped := results.countP (·.outcome.isSkipped)
      failed := results.countP (·.outcome.isFailed)
      timedOut := results.countP (·.outcome.isTimedOut)
      score := score
      sinkError := none }

theorem record?_withSinkError (s : RunSummary α) (error : Option String)
    (result : DocumentResult α) :
    (s.withSinkError error).record? result
      = (s.record? result).map (·.withSinkError error) := by
  obtain ⟨label, language, outcome⟩ := result
  cases outcome with
  | scored metrics =>
      cases language with
      | none => rfl
      | some lang =>
          simp only [record?, Option.map_map]
          rfl
  | skipped reason | failed reason | timedOut => rfl

theorem sinkError_of_record? {s s' : RunSummary α} {result : DocumentResult α}
    (h : s.record? result = some s') : s'.sinkError = s.sinkError := by
  obtain ⟨label, language, outcome⟩ := result
  cases outcome with
  | scored metrics =>
      cases language with
      | none =>
          cases h
          rfl
      | some lang =>
          obtain ⟨score, -, rfl⟩ := Option.map_eq_some_iff.mp h
          rfl
  | skipped reason | failed reason | timedOut =>
      cases h
      rfl

theorem tally?_concat (results : List (DocumentResult α)) (result : DocumentResult α) :
    tally? (results ++ [result]) = (tally? results).bind (·.record? result) := by
  rw [tally?, tally?, rows_concat, CorpusScore.addAll?_append]
  rcases CorpusScore.new.addAll? (rows results) with - | score
  · rfl
  obtain ⟨label, language, outcome⟩ := result
  cases outcome with
  | scored metrics =>
      cases language with
      | none => simp [record?, DocumentResult.row?, CorpusScore.addAll?, List.countP_append,
          Outcome.isScored, Outcome.isSkipped, Outcome.isFailed, Outcome.isTimedOut]
      | some lang =>
          rcases hadd : score.add? lang metrics with - | score' <;>
            simp [record?, DocumentResult.row?, CorpusScore.addAll?, List.countP_append,
              Outcome.isScored, Outcome.isSkipped, Outcome.isFailed, Outcome.isTimedOut, hadd]
  | skipped reason | failed reason | timedOut =>
      cases language <;> simp [record?, DocumentResult.row?, CorpusScore.addAll?,
        List.countP_append, Outcome.isScored, Outcome.isSkipped, Outcome.isFailed,
        Outcome.isTimedOut]

/-- The summary has the counts and the score of some results. -/
structure Tallies (s : RunSummary α) (results : List (DocumentResult α)) : Prop where
  scored : s.scored = results.countP (·.outcome.isScored)
  skipped : s.skipped = results.countP (·.outcome.isSkipped)
  failed : s.failed = results.countP (·.outcome.isFailed)
  timedOut : s.timedOut = results.countP (·.outcome.isTimedOut)
  score : CorpusScore.new.addAll? (rows results) = some s.score

theorem tallies_of_tally? {results : List (DocumentResult α)} {s : RunSummary α}
    (h : tally? results = some s) (error : Option String) :
    (s.withSinkError error).Tallies results := by
  obtain ⟨score, hscore, rfl⟩ := Option.map_eq_some_iff.mp h
  exact ⟨rfl, rfl, rfl, rfl, hscore⟩

/-! ### One result -/

section Take

variable {sink : MetricsSink α τ} {s : RunSummary α} {t : τ} {result : DocumentResult α}

theorem take_of_no_row (h : result.row? = none) :
    take sink (some s, t) result = (s.record? result, t) := by
  obtain ⟨label, language, outcome⟩ := result
  cases outcome with
  | scored metrics =>
      cases language with
      | none => rfl
      | some lang => cases h
  | skipped reason => rfl
  | failed reason => rfl
  | timedOut => rfl

theorem take_of_unsound {error : String} (h : s.sinkError = some error) :
    take sink (some s, t) result = (s.record? result, t) := by
  obtain ⟨label, language, outcome⟩ := result
  cases outcome <;> cases language <;> simp [take, h]

theorem take_of_row {lang : Language} {metrics : Metrics α}
    (h : result.row? = some (lang, metrics)) (hs : s.sinkError = none) :
    take sink (some s, t) result
      = ((s.noteSinkError (sink.record lang metrics t).1).record? result,
          (sink.record lang metrics t).2) := by
  obtain ⟨label, language, outcome⟩ := result
  -- only a scored document with a language has a row
  cases outcome <;> cases language <;> cases h
  simp [take, hs]

/-- A result is counted in the same way for every sink. -/
theorem take_fst (sink : MetricsSink α τ) (s : RunSummary α) (t : τ)
    (result : DocumentResult α) :
    ∃ error, (take sink (some s, t) result).1
      = (s.record? result).map (·.withSinkError error) := by
  have hsame : s.record? result = (s.record? result).map (·.withSinkError s.sinkError) := by
    rw [← record?_withSinkError]
    rfl
  rcases hrow : result.row? with - | ⟨lang, metrics⟩
  · exact ⟨s.sinkError, by rw [take_of_no_row hrow, ← hsame]⟩
  rcases hs : s.sinkError with - | text
  · -- the sink is called, and only its error is noted
    rw [take_of_row hrow hs, noteSinkError_eq, record?_withSinkError]
    exact ⟨_, rfl⟩
  · exact ⟨s.sinkError, by rw [take_of_unsound hs, ← hsame]⟩

/-- Nothing follows a result that the run ends with. -/
theorem exists_of_take_eq_some {state : Option (RunSummary α) × τ} {s' : RunSummary α}
    (h : (take sink state result).1 = some s') : ∃ s t, state = (some s, t) := by
  obtain ⟨s?, t⟩ := state
  cases s? with
  | none => cases h
  | some s => exact ⟨s, t, rfl⟩

end Take

/-! ### All results -/

theorem foldl_take_fst (sink : MetricsSink α τ) (t : τ) (results : List (DocumentResult α)) :
    ∃ error, (results.foldl (take sink) (some .new, t)).1
      = (tally? results).map (·.withSinkError error) := by
  induction results using List.reverseRecOn with
  | nil => exact ⟨none, rfl⟩
  | append_singleton results result ih =>
      obtain ⟨error, hsummary⟩ := ih
      rw [List.foldl_concat, tally?_concat]
      rcases hstate : results.foldl (take sink) (some .new, t) with ⟨- | s, t'⟩
      · rw [hstate, eq_comm, Option.map_eq_none_iff] at hsummary
        exact ⟨none, by rw [hsummary]; rfl⟩
      · rw [hstate, eq_comm, Option.map_eq_some_iff] at hsummary
        obtain ⟨s₀, hs₀, rfl⟩ := hsummary
        -- the error may be another one after this result, the rest is counted on
        obtain ⟨error', htake⟩ := take_fst sink (s₀.withSinkError error) t' result
        refine ⟨error', ?_⟩
        rw [htake, hs₀, record?_withSinkError, Option.map_map, Option.bind_some]
        rfl

/-- A run goes on as long as its rows add up. -/
theorem isSome_foldl_take (sink : MetricsSink α τ) (t : τ) (results : List (DocumentResult α)) :
    (results.foldl (take sink) (some .new, t)).1.isSome
      = (CorpusScore.new.addAll? (rows results)).isSome := by
  obtain ⟨error, hsummary⟩ := foldl_take_fst sink t results
  rw [hsummary, tally?, Option.isSome_map, Option.isSome_map]

theorem ofResults_fst (sink : MetricsSink α τ) (t : τ) (results : List (DocumentResult α)) :
    ∃ error, (ofResults sink t results).1 = (tally? results).map (·.withSinkError error) := by
  obtain ⟨error, hsummary⟩ := foldl_take_fst sink t results
  rw [ofResults]
  rcases hstate : results.foldl (take sink) (some .new, t) with ⟨- | s, t'⟩
  · rw [hstate] at hsummary
    exact ⟨error, hsummary⟩
  rw [hstate] at hsummary
  rcases hs : s.sinkError with - | text
  · rw [close_of_sound hs, noteSinkError_eq]
    obtain ⟨s₀, hs₀, rfl⟩ := Option.map_eq_some_iff.mp hsummary.symm
    rw [hs₀]
    exact ⟨_, rfl⟩
  · rw [close_of_unsound hs]
    exact ⟨error, hsummary⟩

/-- **The sink has no part in the counts and the score.** -/
theorem tallies_of_ofResults {sink : MetricsSink α τ} {t : τ}
    {results : List (DocumentResult α)} {s : RunSummary α}
    (h : (ofResults sink t results).1 = some s) : s.Tallies results := by
  obtain ⟨error, hsummary⟩ := ofResults_fst sink t results
  rw [h, eq_comm, Option.map_eq_some_iff] at hsummary
  obtain ⟨s₀, hs₀, rfl⟩ := hsummary
  exact tallies_of_tally? hs₀ error

theorem isSome_ofResults (sink : MetricsSink α τ) (t : τ) (results : List (DocumentResult α)) :
    (ofResults sink t results).1.isSome
      = (CorpusScore.new.addAll? (rows results)).isSome := by
  obtain ⟨error, hsummary⟩ := ofResults_fst sink t results
  rw [hsummary, tally?, Option.isSome_map, Option.isSome_map]

/-- **There is a summary just if the totals of the rows fit.** -/
theorem isSome_ofResults_iff (sink : MetricsSink α τ) (t : τ)
    {results : List (DocumentResult α)} : (ofResults sink t results).1.isSome ↔
      Fits (rows results : Multiset (Language × Metrics α)) := by
  rw [isSome_ofResults]
  exact (CorpusScore.new_yields_rows Metrics.merging_sums (rows results)).isSome_iff

theorem exists_summary (sink : MetricsSink α τ) (t : τ) {results : List (DocumentResult α)}
    (h : Fits (rows results : Multiset (Language × Metrics α))) :
    ∃ s, (ofResults sink t results).1 = some s ∧ s.Tallies results := by
  obtain ⟨s, hs⟩ := Option.isSome_iff_exists.mp ((isSome_ofResults_iff sink t).mpr h)
  exact ⟨s, hs, tallies_of_ofResults hs⟩

/-! ### The calls of a sink -/

/-- As long as no call failed, there was one call for each row. -/
theorem foldl_take_calls (sink : MetricsSink α τ) (t : τ) (results : List (DocumentResult α))
    {s : RunSummary α}
    (h : (results.foldl (take sink.logged) (some .new, t, [])).1 = some s)
    (hsound : s.sinkError = none) :
    (results.foldl (take sink.logged) (some .new, t, [])).2.2
      = (rows results).map SinkCall.ofRow := by
  induction results using List.reverseRecOn generalizing s with
  | nil => rfl
  | append_singleton results result ih =>
      rw [List.foldl_concat] at h ⊢
      obtain ⟨s₀, ⟨t', calls⟩, hstate⟩ := exists_of_take_eq_some h
      rw [hstate] at h ih ⊢
      -- by the error before this result, where the induction hypothesis needs none
      rcases hs : s₀.sinkError with - | text
      · have hcalls : calls = _ := ih rfl hs
        rw [rows_concat, List.map_append]
        rcases hrow : result.row? with - | ⟨lang, metrics⟩
        · rw [take_of_no_row hrow, hcalls]
          simp
        · rw [take_of_row hrow hs]
          show calls ++ [.record lang metrics] = _
          rw [hcalls]
          rfl
      · -- an error of the sink stays
        rw [take_of_unsound hs] at h
        rw [sinkError_of_record? h, hs] at hsound
        cases hsound

/-- **A sink without errors** is called once for each row, in order, and then finished. -/
theorem ofResults_calls {sink : MetricsSink α τ} {t : τ} {results : List (DocumentResult α)}
    {s : RunSummary α} (h : (ofResults sink.logged (t, []) results).1 = some s)
    (hsound : s.sinkError = none) :
    (ofResults sink.logged (t, []) results).2.2
      = (rows results).map SinkCall.ofRow ++ [.finish] := by
  rw [ofResults] at h ⊢
  obtain ⟨s₀, ⟨t', calls⟩, hstate⟩ := exists_of_close_eq_some h
  rw [hstate] at h ⊢
  rcases hs : s₀.sinkError with - | text
  · have hcalls := foldl_take_calls sink t results (congrArg Prod.fst hstate) hs
    rw [hstate] at hcalls
    rw [close_of_sound hs]
    show calls ++ [.finish] = _
    rw [← hcalls]
  · rw [close_of_unsound hs] at h
    obtain rfl : s₀ = s := Option.some.inj h
    rw [hs] at hsound
    cases hsound

/-- One more result leaves a sink that never fails without an error. -/
theorem take_sinkError {sink : MetricsSink α τ} (hsink : sink.NeverFails) {s s' : RunSummary α}
    {t : τ} {result : DocumentResult α} (hs : s.sinkError = none)
    (h : (take sink (some s, t) result).1 = some s') : s'.sinkError = none := by
  rcases hrow : result.row? with - | ⟨lang, metrics⟩
  · rw [take_of_no_row hrow] at h
    rw [sinkError_of_record? h, hs]
  · rw [take_of_row hrow hs, hsink.record] at h
    rw [sinkError_of_record? h]
    exact hs

theorem foldl_take_sinkError {sink : MetricsSink α τ} (hsink : sink.NeverFails) (t : τ)
    (results : List (DocumentResult α)) {s : RunSummary α}
    (h : (results.foldl (take sink) (some .new, t)).1 = some s) : s.sinkError = none := by
  induction results using List.reverseRecOn generalizing s with
  | nil =>
      cases h
      rfl
  | append_singleton results result ih =>
      rw [List.foldl_concat] at h
      obtain ⟨s₀, t', hstate⟩ := exists_of_take_eq_some h
      rw [hstate] at h ih
      exact take_sinkError hsink (ih rfl) h

theorem ofResults_sinkError {sink : MetricsSink α τ} (hsink : sink.NeverFails) {t : τ}
    {results : List (DocumentResult α)} {s : RunSummary α}
    (h : (ofResults sink t results).1 = some s) : s.sinkError = none := by
  rw [ofResults] at h
  obtain ⟨s₀, t', hstate⟩ := exists_of_close_eq_some h
  have hsound := foldl_take_sinkError hsink t results (congrArg Prod.fst hstate)
  rw [hstate, close_of_sound hsound, hsink.finish] at h
  obtain rfl : s₀ = s := Option.some.inj h
  exact hsound

theorem foldl_take_snd {sink : MetricsSink α τ} (hsink : sink.NeverFails) (t : τ)
    (results : List (DocumentResult α)) {s : RunSummary α}
    (h : (results.foldl (take sink) (some .new, t)).1 = some s) :
    (results.foldl (take sink) (some .new, t)).2
      = (rows results).foldl (fun t row => (sink.record row.1 row.2 t).2) t := by
  induction results using List.reverseRecOn generalizing s with
  | nil => rfl
  | append_singleton results result ih =>
      rw [List.foldl_concat] at h ⊢
      obtain ⟨s₀, t', hstate⟩ := exists_of_take_eq_some h
      have hsound := foldl_take_sinkError hsink t results (congrArg Prod.fst hstate)
      rw [hstate] at ih ⊢
      rw [rows_concat, List.foldl_append, ← ih rfl]
      rcases hrow : result.row? with - | ⟨lang, metrics⟩
      · rw [take_of_no_row hrow]
        rfl
      · rw [take_of_row hrow hsound]
        rfl

/-- **A sink that never fails** has taken each row, in order, and is finished. -/
theorem ofResults_snd {sink : MetricsSink α τ} (hsink : sink.NeverFails) {t : τ}
    {results : List (DocumentResult α)} {s : RunSummary α}
    (h : (ofResults sink t results).1 = some s) :
    (ofResults sink t results).2 = (sink.finish
      ((rows results).foldl (fun t row => (sink.record row.1 row.2 t).2) t)).2 := by
  rw [ofResults] at h ⊢
  obtain ⟨s₀, t', hstate⟩ := exists_of_close_eq_some h
  have hfirst := congrArg Prod.fst hstate
  rw [← foldl_take_snd hsink t results hfirst, hstate,
    close_of_sound (foldl_take_sinkError hsink t results hfirst)]

/-! ### The order of the results -/

theorem Tallies.counts_perm {s s' : RunSummary α} {results results' : List (DocumentResult α)}
    (h : s.Tallies results) (h' : s'.Tallies results') (hperm : results'.Perm results) :
    s'.scored = s.scored ∧ s'.skipped = s.skipped ∧ s'.failed = s.failed ∧
      s'.timedOut = s.timedOut := by
  rw [h.scored, h.skipped, h.failed, h.timedOut, h'.scored, h'.skipped, h'.failed, h'.timedOut]
  exact ⟨hperm.countP_eq _, hperm.countP_eq _, hperm.countP_eq _, hperm.countP_eq _⟩

/-- The score of a summary has the totals of the rows. -/
theorem Tallies.gathers {s : RunSummary α} {results : List (DocumentResult α)}
    (h : s.Tallies results) : s.score.Gathers Metrics.Sums (rows results) := by
  have hyields := CorpusScore.new_yields_rows Metrics.merging_sums (rows results)
  rw [h.score] at hyields
  exact hyields.gathers

/-- In exact arithmetic it has the means of the rows too. -/
theorem Tallies.represents {s : RunSummary ℚ} {results : List (DocumentResult ℚ)}
    (h : s.Tallies results) : s.score.Represents (rows results) := by
  have hyields := CorpusScore.new_yields_rows Metrics.merging_isMeanOf (rows results)
  rw [h.score] at hyields
  exact hyields.gathers

/-- Every order of results whose totals fit has a summary. -/
theorem exists_summary_perm (sink : MetricsSink α τ) (t : τ)
    {results results' : List (DocumentResult α)} (hperm : results'.Perm results)
    (hfits : Fits (rows results : Multiset (Language × Metrics α))) :
    ∃ s s', (ofResults sink t results).1 = some s ∧ (ofResults sink t results').1 = some s' ∧
      s.Tallies results ∧ s'.Tallies results' := by
  obtain ⟨s, hs, htallies⟩ := exists_summary sink t hfits
  obtain ⟨s', hs', htallies'⟩ := exists_summary sink t (coe_rows_perm hperm ▸ hfits)
  exact ⟨s, s', hs, hs', htallies, htallies'⟩

/-- **The score does not depend on the order of the results.** -/
theorem Tallies.score_perm {s s' : RunSummary ℚ} {results results' : List (DocumentResult ℚ)}
    (h : s.Tallies results) (h' : s'.Tallies results') (hperm : results'.Perm results) :
    s'.score = s.score := by
  have hscore' := h'.represents
  rw [coe_rows_perm hperm] at hscore'
  exact hscore'.unique h.represents

end RunSummary

end TokenAlignment
