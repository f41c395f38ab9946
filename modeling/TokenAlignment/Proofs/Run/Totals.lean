/-
TokenAlignment/Proofs/Run/Totals.lean

The totals of a row are counts, and so the same in every arithmetic.

    item ──→ result, alone ──→ row ──→ language, tokens, bytes

Averages are numbers of some kind, and no step of a run looks at them: whether a document is
scored, and with which totals, does not depend on what kind that is (`map_totals_rows`).  So
totals that fit in one arithmetic fit in every other (`fits_rows_iff`).
-/
import TokenAlignment.Proofs.Run.Alone
import TokenAlignment.Proofs.Run.Summary

namespace TokenAlignment

/-- The totals of a score. -/
def DocumentScore.totals {α : Type} (s : DocumentScore α) : UInt64 × UInt64 :=
  (s.metrics.totalTokens, s.metrics.totalBytes)

/-- The language and the totals of a row. -/
def rowTotals {α : Type} (row : Language × Metrics α) : Language × UInt64 × UInt64 :=
  (row.1, row.2.totalTokens, row.2.totalBytes)

/-! ### One document -/

theorem Runner.map_totals_outcomeOfScore {α β : Type} (label : String) (lang : Language)
    {score : Except ScoreError (DocumentScore α)} {score' : Except ScoreError (DocumentScore β)}
    (h : score.map (·.totals) = score'.map (·.totals)) :
    (DocumentResult.mk label (some lang) (outcomeOfScore α score)).row?.map rowTotals
      = (DocumentResult.mk label (some lang) (outcomeOfScore β score')).row?.map rowTotals := by
  cases score with
  | error e =>
      cases score' with
      | error e' =>
          rw [outcomeOfScore, outcomeOfScore]
          cases e.isTimeout <;> cases e'.isTimeout <;> rfl
      | ok s' => cases h
  | ok s =>
      cases score' with
      | error e' => cases h
      | ok s' => exact congrArg (fun totals => some (lang, totals)) (Except.ok.inj h)

section Totals

variable (α β : Type) [Scalar α] [Scalar β]

theorem map_totals_scoreTokens (d : Document) (syntaxTokens identifiers : List SyntaxToken)
    (tokens : List Span) (splitter : IdentifierSplitter) (deadline : Deadline) :
    (scoreTokens α d syntaxTokens identifiers tokens splitter deadline).map (·.totals)
      = (scoreTokens β d syntaxTokens identifiers tokens splitter deadline).map (·.totals) := by
  rw [scoreTokens, scoreTokens, tokenSpanScore, tokenSpanScore, scoreIdentifiers,
    scoreIdentifiers]
  rcases checkCover tokens d.length with e | ⟨⟩
  · rfl
  -- the time is all that the scores ask for, and they ask for it alike
  cases tokens.isEmpty <;> cases identifiers.isEmpty <;> cases deadline.check <;> rfl

theorem map_totals_scoreDocument (parser : Parser) (d : Document) (tokens : List Span)
    (splitter : IdentifierSplitter) (deadline : Deadline) :
    (scoreDocument α parser d tokens splitter deadline).map (·.totals)
      = (scoreDocument β parser d tokens splitter deadline).map (·.totals) := by
  rw [scoreDocument, scoreDocument]
  rcases parser.identifierKinds d.language with e | kinds
  · rfl
  rcases parser.parse d deadline with e | tree
  · rfl
  dsimp only [Except.mapError, bind, Except.bind]
  rcases tree.identifiers kinds deadline with e | identifiers
  · rfl
  rcases tree.tokens d.length deadline with e | syntaxTokens
  · rfl
  exact map_totals_scoreTokens α β d syntaxTokens identifiers tokens splitter deadline

namespace Runner

/-- **The row of an item** has the same totals in every arithmetic. -/
theorem map_totals_alone (r : Runner PieceTable) (item : CorpusItem) :
    (r.alone α item).row?.map rowTotals = (r.alone β item).row?.map rowTotals := by
  rw [alone, alone, process, process]
  rcases item.document with rejection | d
  · cases rejection <;> rfl
  dsimp only
  rw [scoreDocument, scoreDocument]
  rcases r.rejection? d with - | reason
  · dsimp only
    rcases r.context.tokenizer.tokenize d .empty with ⟨e | tokens, t⟩
    · cases e <;> rfl
    · exact map_totals_outcomeOfScore item.label d.language
        (map_totals_scoreDocument α β r.context.parser d tokens r.context.splitter _)
  · rfl

/-! ### A corpus -/

theorem map_totals_rows (r : Runner PieceTable) (items : List CorpusItem) :
    (rows (items.map (r.alone α))).map rowTotals
      = (rows (items.map (r.alone β))).map rowTotals := by
  simp only [rows, List.map_filterMap, List.filterMap_map]
  exact List.filterMap_congr fun item _ => r.map_totals_alone α β item

end Runner

end Totals

theorem fits_iff_rowTotals {α : Type} {rows : List (Language × Metrics α)} :
    Fits (rows : Multiset (Language × Metrics α)) ↔
      ((rows.map rowTotals).map fun totals => totals.2.1.toNat).sum < 2 ^ 64 ∧
      ((rows.map rowTotals).map fun totals => totals.2.2.toNat).sum < 2 ^ 64 := by
  have htokens : Metrics.tokenSum ((rows : Multiset (Language × Metrics α)).map Prod.snd)
      = ((rows.map rowTotals).map fun totals => totals.2.1.toNat).sum := by
    rw [Metrics.tokenSum, Multiset.map_map, Multiset.map_coe, Multiset.sum_coe, List.map_map]
    rfl
  have hbytes : Metrics.byteSum ((rows : Multiset (Language × Metrics α)).map Prod.snd)
      = ((rows.map rowTotals).map fun totals => totals.2.2.toNat).sum := by
    rw [Metrics.byteSum, Multiset.map_map, Multiset.map_coe, Multiset.sum_coe, List.map_map]
    rfl
  rw [← htokens, ← hbytes]
  exact ⟨fun h => ⟨h.tokens, h.bytes⟩, fun h => ⟨h.1, h.2⟩⟩

/-- **Totals that fit in one arithmetic fit in every other.** -/
theorem Runner.fits_rows_iff (α β : Type) [Scalar α] [Scalar β] (r : Runner PieceTable)
    (items : List CorpusItem) :
    Fits (rows (items.map (r.alone α)) : Multiset (Language × Metrics α)) ↔
      Fits (rows (items.map (r.alone β)) : Multiset (Language × Metrics β)) := by
  rw [fits_iff_rowTotals, fits_iff_rowTotals, r.map_totals_rows α β]

end TokenAlignment
