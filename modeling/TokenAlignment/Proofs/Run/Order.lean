/-
TokenAlignment/Proofs/Run/Order.lean

The order of a corpus does not matter.

    item  ──→  result, alone
    results  ──→  tally              counts and byte-weighted means
    results  ──→  calls of a sink    one for each row

The first line is `processAll_eq`: the results of a corpus are those of its items,
each scored by a tokenizer that has seen nothing.  So another order of the items
gives the same results in another order, and the other two lines see them as a
multiset.

Totals that fit give a summary in every order, and in every arithmetic: the totals of the rows
are the same in all of them (`fits_rows_iff`).

Main result: `run_perm`, for every time budget, which also covers runs without one.
-/
import TokenAlignment.Proofs.Run.Totals

namespace TokenAlignment

namespace Runner

theorem pieces_perm {σ : Type} (r : Runner σ) {items items' : List CorpusItem}
    (hperm : items'.Perm items) : r.pieces items' = r.pieces items :=
  List.toFinset_eq_of_perm _ _ (hperm.flatMap_right _)

/-- **The order of a corpus does not matter.**  Where all pieces have ids and the
totals fit their words, the documents of a corpus are scored as if each were alone, and every
order gives a summary; in any other order there are as many of each outcome, the score is the
same in exact arithmetic, and a sink that never fails gets the same rows in another order. -/
theorem run_perm {r : Runner PieceTable} (htokenizer : r.context.tokenizer.Supported)
    {items items' : List CorpusItem} (hperm : items'.Perm items)
    (hpieces : (r.pieces items).card < 2 ^ 32)
    (hfits : Fits (rows (items.map (r.alone ℚ)) : Multiset (Language × Metrics ℚ))) :
    (∀ (α : Type) [Scalar α],
      r.processAll α .empty items = items.map (r.alone α) ∧
      r.processAll α .empty items' = items'.map (r.alone α)) ∧
    (∀ (α : Type) [Scalar α] {τ : Type} (sink : MetricsSink α τ) (t : τ),
      ∃ summary summary', (r.run α .empty items sink t).1 = some summary ∧
        (r.run α .empty items' sink t).1 = some summary' ∧
        summary'.scored = summary.scored ∧ summary'.skipped = summary.skipped ∧
        summary'.failed = summary.failed ∧ summary'.timedOut = summary.timedOut) ∧
    (∀ {τ : Type} (sink : MetricsSink ℚ τ) (t : τ),
      ∃ summary summary', (r.run ℚ .empty items sink t).1 = some summary ∧
        (r.run ℚ .empty items' sink t).1 = some summary' ∧ summary'.score = summary.score) ∧
    (∀ (α : Type) [Scalar α] {τ : Type} (sink : MetricsSink α τ), sink.NeverFails → ∀ t,
      (r.run α .empty items sink.logged (t, [])).2.2
        = (rows (items.map (r.alone α))).map SinkCall.ofRow ++ [.finish] ∧
      List.Perm (r.run α .empty items' sink.logged (t, [])).2.2
        (r.run α .empty items sink.logged (t, [])).2.2) := by
  have hitems (α : Type) [Scalar α] : r.processAll α .empty items = items.map (r.alone α) :=
    processAll_eq α htokenizer (Nat.le_of_lt hpieces)
  have hitems' (α : Type) [Scalar α] :
      r.processAll α .empty items' = items'.map (r.alone α) := by
    apply processAll_eq α htokenizer
    rw [r.pieces_perm hperm]
    exact Nat.le_of_lt hpieces
  have hresults (α : Type) [Scalar α] :
      (items'.map (r.alone α)).Perm (items.map (r.alone α)) := hperm.map _
  -- so both orders have a summary in every arithmetic, whatever the sink does
  have hsummaries (α : Type) [Scalar α] {τ : Type} (sink : MetricsSink α τ) (t : τ) :
      ∃ summary summary', (r.run α .empty items sink t).1 = some summary ∧
        (r.run α .empty items' sink t).1 = some summary' ∧
        summary.Tallies (items.map (r.alone α)) ∧
        summary'.Tallies (items'.map (r.alone α)) := by
    rw [run, run, hitems, hitems']
    exact RunSummary.exists_summary_perm sink t (hresults α) ((r.fits_rows_iff ℚ α items).mp hfits)
  refine ⟨fun α _ => ⟨hitems α, hitems' α⟩, ?_, ?_, ?_⟩
  · intro α _ τ sink t
    obtain ⟨summary, summary', hsummary, hsummary', htallies, htallies'⟩ := hsummaries α sink t
    exact ⟨summary, summary', hsummary, hsummary',
      htallies.counts_perm htallies' (hresults α)⟩
  · intro τ sink t
    obtain ⟨summary, summary', hsummary, hsummary', htallies, htallies'⟩ := hsummaries ℚ sink t
    exact ⟨summary, summary', hsummary, hsummary', htallies.score_perm htallies' (hresults ℚ)⟩
  · intro α _ τ sink hsink t
    obtain ⟨summary, summary', hsummary, hsummary', -⟩ := hsummaries α sink.logged (t, [])
    have hcalls {items : List CorpusItem} {summary : RunSummary α}
        (h : (RunSummary.ofResults sink.logged (t, []) (items.map (r.alone α))).1
          = some summary) :=
      RunSummary.ofResults_calls h (RunSummary.ofResults_sinkError hsink.logged h)
    rw [run, hitems] at hsummary
    rw [run, hitems'] at hsummary'
    rw [run, run, hitems, hitems', hcalls hsummary, hcalls hsummary']
    exact ⟨rfl, (((hresults α).filterMap _).map _).append_right _⟩

/-- A run without a time budget in which two documents have a piece in common. -/
def sharedPieces : Runner PieceTable where
  context :=
    { parser := ⟨[.python, .java], fun _ content => some (.node "identifier" 0 content.size [])⟩
      tokenizer := pretokenEncoder.tokenizer
      splitter := fun word => [word] }
  config := { EvalConfig.standard with timeoutMillis := 10 ^ 22 }

/-- The text `x y`. -/
def sharedFirst : Document := ⟨.python, #[120, 32, 121], by decide⟩

/-- The text ` y yx`. -/
def sharedSecond : Document := ⟨.java, #[32, 121, 32, 121, 120], by decide⟩

theorem tokenize_sharedFirst : (pretokenEncoder.tokenize sharedFirst .empty).1
    = .ok [⟨0, 1, by decide⟩, ⟨1, 3, by decide⟩] :=
  (tokenize_empty sharedFirst).trans (by decide +kernel)

theorem tokenize_sharedSecond : (pretokenEncoder.tokenize sharedSecond .empty).1
    = .ok [⟨0, 2, by decide⟩, ⟨2, 5, by decide⟩] :=
  (tokenize_empty sharedSecond).trans (by decide +kernel)

/-- Both texts, and a file that nobody could read. -/
def sharedCorpus : List CorpusItem :=
  [⟨"x.py", .ok sharedFirst⟩, ⟨"y.java", .ok sharedSecond⟩, ⟨"z.go", .error (.failed "unreadable")⟩]

theorem run_perm_sharedCorpus :
    (sharedPieces.pieces sharedCorpus).card < 2 ^ 32 ∧
    Fits (rows (sharedCorpus.map (sharedPieces.alone ℚ)) : Multiset (Language × Metrics ℚ)) ∧
    Deadline.after sharedPieces.config.timeoutMillis = .unbounded ∧
    ∃ summary summary',
      (sharedPieces.run ℚ .empty sharedCorpus (.null ℚ) ()).1 = some summary ∧
      (sharedPieces.run ℚ .empty sharedCorpus.reverse (.null ℚ) ()).1 = some summary' ∧
      summary'.score = summary.score := by
  have hpieces : (sharedPieces.pieces sharedCorpus).card < 2 ^ 32 := by decide +kernel
  have hfits : Fits (rows (sharedCorpus.map (sharedPieces.alone ℚ)) :
      Multiset (Language × Metrics ℚ)) := by
    rw [sharedCorpus, List.map_cons, List.map_cons,
      alone_eq ℚ sharedPieces "x.py" (by decide +kernel) tokenize_sharedFirst,
      alone_eq ℚ sharedPieces "y.java" (by decide +kernel) tokenize_sharedSecond]
    exact ⟨by decide +kernel, by decide +kernel⟩
  exact ⟨hpieces, hfits, by decide +kernel,
    (run_perm .pretoken (List.reverse_perm _) hpieces hfits).2.2.1 (.null ℚ) ()⟩

end Runner

end TokenAlignment
