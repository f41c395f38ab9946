/-
TokenAlignment/Proofs/Run/SinkProtocol.lean

What a sink is asked to do when any of its calls may fail.

    all rows taken       record r₁ ✓ … record rₙ ✓, finish ?
    row k refused        record r₁ ✓ … record rₖ ✗

No call follows a refused row, and the run itself goes on: every result is counted
and merged, also those whose rows were dropped.  Only totals that do not fit end a run, with
the row that they do not fit with: no other row, and no end (`SinkBreak`).

Design.  A sink is watched through a second one (`answering`) that passes each call
on and keeps it together with its answer.  Watching changes nothing
(`ofResults_answering`).  Before the end of a run its calls are in `SinkProgress`, which
one result keeps (`SinkProgress.take`); ending the run makes it a `SinkProtocol`.

Main result: `ofResults_protocol`.
-/
import TokenAlignment.Proofs.Run.Summary

namespace TokenAlignment

/-- A call of a sink and the error that it answered with, if it failed. -/
abbrev AnsweredCall (α : Type) : Type :=
  SinkCall α × Option String

namespace MetricsSink

variable {α τ : Type}

/-- The sink, with a list of all its calls and their answers. -/
def answering (sink : MetricsSink α τ) : MetricsSink α (τ × List (AnsweredCall α)) where
  record lang metrics state :=
    let (error, t) := sink.record lang metrics state.1
    (error, t, state.2 ++ [(.record lang metrics, error)])
  finish state :=
    let (error, t) := sink.finish state.1
    (error, t, state.2 ++ [(.finish, error)])

end MetricsSink

/-! ### What the calls of a sink look like -/

section Calls

variable {α : Type}

/-- The calls for rows that were all taken. -/
def takenRows (rows : List (Language × Metrics α)) : List (AnsweredCall α) :=
  rows.map fun row => (.ofRow row, none)

/-- The calls for some rows and the error of the sink, before the end of a run. -/
inductive SinkProgress :
    List (Language × Metrics α) → List (AnsweredCall α) → Option String → Prop
  /-- The sink took every row. -/
  | taken (rows : List (Language × Metrics α)) : SinkProgress rows (takenRows rows) none
  /-- The sink refused a row, and was left alone from there on. -/
  | refused (before : List (Language × Metrics α)) (row : Language × Metrics α)
      (after : List (Language × Metrics α)) (error : String) :
      SinkProgress (before ++ row :: after) (takenRows before ++ [(.ofRow row, some error)])
        (some error)

/-- The calls for the rows of a whole run. -/
inductive SinkProtocol : List (Language × Metrics α) → List (AnsweredCall α) → Prop
  /-- The sink took every row and was then asked to finish, once. -/
  | finished (rows : List (Language × Metrics α)) (answer : Option String) :
      SinkProtocol rows (takenRows rows ++ [(.finish, answer)])
  /-- The sink refused a row: no other row, and no end. -/
  | refused (before : List (Language × Metrics α)) (row : Language × Metrics α)
      (after : List (Language × Metrics α)) (error : String) :
      SinkProtocol (before ++ row :: after) (takenRows before ++ [(.ofRow row, some error)])

/-- The calls for the rows of a run that totals which do not fit have ended.  The row that does
not fit was still given to the sink, if that was sound, and nothing followed. -/
inductive SinkBreak [Scalar α] : List (Language × Metrics α) → List (AnsweredCall α) → Prop
  | stopped {before : List (Language × Metrics α)} {row : Language × Metrics α}
      (after : List (Language × Metrics α)) {calls : List (AnsweredCall α)}
      {error : Option String} (hbefore : (CorpusScore.new.addAll? before).isSome)
      (hrow : CorpusScore.new.addAll? (before ++ [row]) = none)
      (hcalls : SinkProgress (before ++ [row]) calls error) :
      SinkBreak (before ++ row :: after) calls

/-- The error of the first call that failed. -/
def firstError (calls : List (AnsweredCall α)) : Option String :=
  calls.findSome? Prod.snd

theorem firstError_takenRows_append (rows : List (Language × Metrics α))
    (call : SinkCall α) (answer : Option String) :
    firstError (takenRows rows ++ [(call, answer)]) = answer := by
  have hnone : (takenRows rows).findSome? Prod.snd = none := by
    rw [takenRows, List.findSome?_map, List.findSome?_eq_none_iff]
    exact fun _ _ => rfl
  rw [firstError, List.findSome?_append, hnone]
  cases answer <;> rfl

end Calls

namespace RunSummary

variable {α τ : Type}

/-! ### Watching changes nothing -/

/-- The state of a run without the calls of the sink. -/
def unwatched (state : Option (RunSummary α) × τ × List (AnsweredCall α)) :
    Option (RunSummary α) × τ :=
  (state.1, state.2.1)

theorem close_answering (sink : MetricsSink α τ)
    (state : Option (RunSummary α) × τ × List (AnsweredCall α)) :
    unwatched (close sink.answering state) = close sink (unwatched state) := by
  obtain ⟨- | s, t, calls⟩ := state
  · rfl
  show unwatched (close sink.answering (some s, t, calls)) = close sink (some s, t)
  rcases hs : s.sinkError with - | error
  · rw [close_of_sound hs, close_of_sound hs]
    rfl
  · rw [close_of_unsound hs, close_of_unsound hs]
    rfl

variable [Scalar α]

theorem take_answering (sink : MetricsSink α τ)
    (state : Option (RunSummary α) × τ × List (AnsweredCall α)) (result : DocumentResult α) :
    unwatched (take sink.answering state result) = take sink (unwatched state) result := by
  obtain ⟨- | s, t, calls⟩ := state
  · rfl
  show unwatched (take sink.answering (some s, t, calls) result) = take sink (some s, t) result
  rcases hrow : result.row? with - | ⟨lang, metrics⟩
  · rw [take_of_no_row hrow, take_of_no_row hrow]
    rfl
  rcases hs : s.sinkError with - | error
  · rw [take_of_row hrow hs, take_of_row hrow hs]
    rfl
  · rw [take_of_unsound hs, take_of_unsound hs]
    rfl

theorem foldl_take_answering (sink : MetricsSink α τ) (t : τ)
    (results : List (DocumentResult α)) :
    unwatched (results.foldl (take sink.answering) (some .new, t, []))
      = results.foldl (take sink) (some .new, t) :=
  (List.foldl_hom unwatched (fun state result => (take_answering sink state result).symm)).symm

/-- The summary and the sink end as they do unwatched. -/
theorem ofResults_answering (sink : MetricsSink α τ) (t : τ)
    (results : List (DocumentResult α)) :
    unwatched (ofResults sink.answering (t, []) results) = ofResults sink t results := by
  rw [ofResults, close_answering, foldl_take_answering]
  rfl

end RunSummary

/-! ### One result -/

section Step

open RunSummary

variable {α τ : Type} {s : RunSummary α} {calls : List (AnsweredCall α)}

/-- **One result keeps the progress**, also if the run ends with it. -/
theorem SinkProgress.take [Scalar α] {results : List (DocumentResult α)}
    (h : SinkProgress (rows results) calls s.sinkError) (sink : MetricsSink α τ) (t : τ)
    (result : DocumentResult α) :
    ∃ error, SinkProgress (rows (results ++ [result]))
        (take sink.answering (some s, t, calls) result).2.2 error ∧
      ∀ s', (take sink.answering (some s, t, calls) result).1 = some s' →
        s'.sinkError = error := by
  rw [rows_concat]
  rcases hrow : result.row? with - | ⟨lang, metrics⟩
  · rw [take_of_no_row hrow, Option.toList_none, List.append_nil]
    exact ⟨s.sinkError, h, fun s' => sinkError_of_record?⟩
  rw [Option.toList_some]
  generalize rows results = taken at h
  generalize herror : s.sinkError = error at h
  cases h with
  | taken =>
      -- the sink is asked, and its answer decides
      rw [take_of_row hrow herror, noteSinkError_eq, herror, Option.or_none]
      refine ⟨(sink.record lang metrics t).1, ?_, fun s' => sinkError_of_record?⟩
      show SinkProgress _
        (takenRows taken ++ [(.record lang metrics, (sink.record lang metrics t).1)]) _
      rcases (sink.record lang metrics t).1 with - | text
      · simpa [takenRows, SinkCall.ofRow] using SinkProgress.taken (taken ++ [(lang, metrics)])
      · exact .refused taken (lang, metrics) [] text
  | refused before row after text =>
      rw [take_of_unsound herror, List.append_assoc, List.cons_append]
      exact ⟨some text, .refused before row (after ++ [(lang, metrics)]) text,
        fun s' hs' => (sinkError_of_record? hs').trans herror⟩

/-- What has ended a run stays. -/
theorem SinkBreak.append [Scalar α] {taken : List (Language × Metrics α)}
    (h : SinkBreak taken calls) (more : List (Language × Metrics α)) :
    SinkBreak (taken ++ more) calls := by
  cases h with
  | stopped after hbefore hrow hcalls =>
      rw [List.append_assoc, List.cons_append]
      exact .stopped (after ++ more) hbefore hrow hcalls

/-! ### The end of a run -/

/-- A sink that took every row is finished. -/
theorem SinkProgress.close {sink : MetricsSink α τ} {t : τ}
    {taken : List (Language × Metrics α)} {s' : RunSummary α}
    (h : SinkProgress taken calls s.sinkError)
    (hs' : (close sink.answering (some s, t, calls)).1 = some s') :
    SinkProtocol taken (close sink.answering (some s, t, calls)).2.2 ∧
      s'.sinkError = firstError (close sink.answering (some s, t, calls)).2.2 := by
  generalize herror : s.sinkError = error at h
  cases h with
  | taken =>
      rw [close_of_sound herror, noteSinkError_eq, herror, Option.or_none] at hs'
      rw [close_of_sound herror]
      show SinkProtocol taken (takenRows taken ++ [(.finish, (sink.finish t).1)]) ∧
        s'.sinkError = firstError (takenRows taken ++ [(.finish, (sink.finish t).1)])
      rw [firstError_takenRows_append, ← Option.some.inj hs']
      exact ⟨.finished taken _, rfl⟩
  | refused before row after text =>
      rw [close_of_unsound herror] at hs' ⊢
      obtain rfl : s = s' := Option.some.inj hs'
      rw [firstError_takenRows_append]
      exact ⟨.refused before row after text, herror⟩

end Step

/-! ### All results -/

namespace RunSummary

variable {α τ : Type} [Scalar α]

theorem foldl_take_progress (sink : MetricsSink α τ) (t : τ)
    (results : List (DocumentResult α)) :
    let state := results.foldl (take sink.answering) (some .new, t, [])
    (∀ s, state.1 = some s → SinkProgress (rows results) state.2.2 s.sinkError) ∧
      (state.1 = none → SinkBreak (rows results) state.2.2) := by
  induction results using List.reverseRecOn with
  | nil => exact ⟨fun s hs => Option.some.inj hs ▸ .taken [], fun h => (nomatch h)⟩
  | append_singleton results result ih =>
      have hbefore := isSome_foldl_take sink.answering (t, []) results
      have hafter := isSome_foldl_take sink.answering (t, []) (results ++ [result])
      rw [List.foldl_concat] at hafter ⊢
      generalize results.foldl (take sink.answering) (some .new, t, []) = state
        at ih hbefore hafter
      obtain ⟨- | s, t', calls⟩ := state
      · -- the run has ended before this result
        rw [rows_concat]
        exact ⟨fun s hs => (nomatch hs), fun _ => (ih.2 rfl).append _⟩
      obtain ⟨error, hprogress, herror⟩ := (ih.1 s rfl).take sink t' result
      refine ⟨fun s' hs' => herror s' hs' ▸ hprogress, fun hnone => ?_⟩
      rw [hnone, rows_concat] at hafter
      rw [rows_concat] at hprogress ⊢
      -- it ended with this one, which therefore is a row
      rcases hrow : result.row? with - | row
      · rw [hrow, Option.toList_none, List.append_nil, ← hbefore] at hafter
        cases hafter
      · rw [hrow] at hafter hprogress
        exact .stopped [] hbefore.symm (by simpa using hafter.symm) hprogress

/-- What a whole run has asked of a sink, with a summary and without one. -/
theorem ofResults_progress (sink : MetricsSink α τ) (t : τ)
    (results : List (DocumentResult α)) :
    (∀ s, (ofResults sink.answering (t, []) results).1 = some s →
      SinkProtocol (rows results) (ofResults sink.answering (t, []) results).2.2 ∧
        s.sinkError = firstError (ofResults sink.answering (t, []) results).2.2) ∧
      ((ofResults sink.answering (t, []) results).1 = none →
        SinkBreak (rows results) (ofResults sink.answering (t, []) results).2.2) := by
  obtain ⟨hgoing, hended⟩ := foldl_take_progress sink t results
  rw [ofResults]
  generalize results.foldl (take sink.answering) (some .new, t, []) = state at hgoing hended ⊢
  obtain ⟨- | s, t', calls⟩ := state
  · refine ⟨fun s hs => ?_, fun _ => hended rfl⟩
    cases hs
  refine ⟨fun s' hs' => (hgoing s rfl).close hs', fun hnone => ?_⟩
  -- the end of a run takes no summary away
  rcases herror : s.sinkError with - | text
  · rw [close_of_sound herror] at hnone
    cases hnone
  · rw [close_of_unsound herror] at hnone
    cases hnone

/-- Every result has exactly one outcome. -/
theorem Tallies.total_eq {s : RunSummary α} {results : List (DocumentResult α)}
    (h : s.Tallies results) : s.total = results.length := by
  rw [total, h.scored, h.skipped, h.failed, h.timedOut]
  clear h
  induction results with
  | nil => rfl
  | cons result results ih =>
      simp only [List.countP_cons, List.length_cons]
      rw [← ih]
      cases result.outcome <;>
        simp [Outcome.isScored, Outcome.isSkipped, Outcome.isFailed, Outcome.isTimedOut] <;>
        omega

/-- **A sink may fail at any call.**  It gets the rows of the scored documents in order,
each when its result is taken, up to the first that it refuses; it is finished once,
after the last result, if it refuses none.  The summary keeps the first error, and its
counts and score are those of all results.  There is one if the rows can be added up; if not,
the run ends with the first row that does not fit, and the sink gets nothing after it. -/
theorem ofResults_protocol (sink : MetricsSink α τ) (t : τ)
    (results : List (DocumentResult α)) :
    let summary? := (ofResults sink t results).1
    let watched := ofResults sink.answering (t, []) results
    (watched.1 = summary? ∧ watched.2.1 = (ofResults sink t results).2) ∧
    (∀ n, let state := (results.take n).foldl (take sink.answering) (some .new, t, [])
      (∀ s, state.1 = some s →
        SinkProgress (rows (results.take n)) state.2.2 s.sinkError) ∧
      (state.1 = none → SinkBreak (rows (results.take n)) state.2.2)) ∧
    (∀ score, CorpusScore.new.addAll? (rows results) = some score →
      ∃ summary, summary? = some summary ∧
      SinkProtocol (rows results) watched.2.2 ∧
      summary.sinkError = firstError watched.2.2 ∧
      (summary.scored = results.countP (·.outcome.isScored) ∧
        summary.skipped = results.countP (·.outcome.isSkipped) ∧
        summary.failed = results.countP (·.outcome.isFailed) ∧
        summary.timedOut = results.countP (·.outcome.isTimedOut) ∧
        summary.scored + summary.skipped + summary.failed + summary.timedOut
          = results.length) ∧
      summary.score = score) ∧
    (CorpusScore.new.addAll? (rows results) = none →
      summary? = none ∧ SinkBreak (rows results) watched.2.2) := by
  intro summary? watched
  have hwatched : unwatched watched = ofResults sink t results := ofResults_answering sink t results
  have hfirst : watched.1 = summary? := congrArg Prod.fst hwatched
  have hisSome : watched.1.isSome = (CorpusScore.new.addAll? (rows results)).isSome :=
    isSome_ofResults sink.answering (t, []) results
  obtain ⟨hend, hbreak⟩ := ofResults_progress sink t results
  refine ⟨⟨hfirst, congrArg Prod.snd hwatched⟩,
    fun n => foldl_take_progress sink t (results.take n), fun score hscore => ?_, fun hnone => ?_⟩
  · rw [hscore] at hisSome
    obtain ⟨summary, hsummary⟩ := Option.isSome_iff_exists.mp hisSome
    have htallies : summary.Tallies results := tallies_of_ofResults hsummary
    obtain ⟨hcalls, herror⟩ := hend summary hsummary
    refine ⟨summary, hfirst ▸ hsummary, hcalls, herror, ⟨htallies.scored, htallies.skipped,
      htallies.failed, htallies.timedOut, htallies.total_eq⟩, ?_⟩
    exact Option.some.inj (htallies.score.symm.trans hscore)
  · rw [hnone] at hisSome
    have hended : watched.1 = none := by simpa using hisSome
    exact ⟨hfirst ▸ hended, hbreak hended⟩

end RunSummary

end TokenAlignment
