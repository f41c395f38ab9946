/-
TokenAlignment/Proofs/Run/Counting.lean

A run and a count of the frequencies see the same tokens.

    item  ──→  pieces of its tokens  ──→  table of frequencies
      └─────→  row, if it is scored  ──→  totals of the score

A run parses and scores, a count of the frequencies does neither and passes over what fails.
So they may differ in a document that fails or runs out of time, and in no other: one that
is skipped has no pieces, and one that is scored has a piece for each of its tokens, which
cover it (`totals_alone`).

Main result: `frequencies_agree`.
-/
import TokenAlignment.Proofs.Run.Counted
import TokenAlignment.Proofs.Run.Order
import TokenAlignment.Proofs.Tokenizer.Contract

namespace TokenAlignment

namespace Runner

/-- The pieces of the tokens of a document, for a tokenizer that has seen nothing. -/
def documentTokens (r : Runner PieceTable) (d : Document) : List (List UInt8) :=
  if (r.rejection? d).isSome then []
  else
    match (r.context.tokenizer.tokenize d .empty).1 with
    | .ok tokens => d.tokenPieces tokens
    | .error _ => []

/-- The pieces of the tokens of an item. -/
def itemTokens (r : Runner PieceTable) (item : CorpusItem) : List (List UInt8) :=
  match item.document with
  | .error _ => []
  | .ok d => r.documentTokens d

/-! ### The frequencies -/

section Frequencies

variable {r : Runner PieceTable} {known : Finset (List Char)} {t : PieceTable}

theorem countedPieces_tokenizeItem (r : Runner PieceTable) (item : CorpusItem) :
    countedPieces (r.tokenizeItem item .empty).1.toList = r.itemTokens item := by
  rw [tokenizeItem, itemTokens]
  rcases item.document with rejection | d
  · rfl
  dsimp only [documentTokens]
  split
  · rfl
  rcases r.context.tokenizer.tokenize d .empty with ⟨e | tokens, t⟩
  · rfl
  · exact List.append_nil _

/-- **The frequencies of a corpus** are those of the tokens of its items, in any order. -/
theorem frequencies?_eq_ofPieces (htokenizer : r.context.tokenizer.Supported)
    (hroom : r.context.tokenizer.HasRoom known) {items : List CorpusItem}
    (hitems : ∀ item ∈ items, ∀ piece ∈ r.itemPieces item, piece ∈ known)
    (ht : t.Within known) :
    r.frequencies? t items = (TokenFrequencies.ofPieces? (items.flatMap r.itemTokens)).map
      (·.seed r.context.tokenizer.vocabulary) := by
  have hpieces : countedPieces (r.counted t items) = items.flatMap r.itemTokens := by
    rw [counted_eq htokenizer hroom hitems ht, countedPieces, List.filterMap_eq_flatMap_toList,
      List.flatMap_assoc]
    exact List.flatMap_congr fun item _ => r.countedPieces_tokenizeItem item
  rw [frequencies?_eq, hpieces]

end Frequencies

/-! ### The rows -/

/-- The rows have as many tokens and bytes as the pieces; the tokens as long as their number
fits a word, as a row has no other. -/
structure Totals {α : Type} (records : Multiset (Language × Metrics α))
    (pieces : List (List UInt8)) : Prop where
  tokens : pieces.length < 2 ^ 64 → Metrics.tokenSum (records.map Prod.snd) = pieces.length
  bytes : Metrics.byteSum (records.map Prod.snd) = (pieces.map List.length).sum

section Totals

variable {α : Type}

theorem totals_zero : Totals (0 : Multiset (Language × Metrics α)) [] :=
  ⟨fun _ => rfl, rfl⟩

theorem Totals.add {R S : Multiset (Language × Metrics α)} {pieces more : List (List UInt8)}
    (h : Totals R pieces) (h' : Totals S more) : Totals (R + S) (pieces ++ more) where
  tokens hfits := by
    rw [List.length_append] at hfits
    rw [Multiset.map_add, Metrics.tokenSum_add, List.length_append, h.tokens (by omega),
      h'.tokens (by omega)]
  bytes := by
    rw [Multiset.map_add, Metrics.byteSum_add, List.map_append, List.sum_append, h.bytes,
      h'.bytes]

/-- Metrics of a cover have the totals of its pieces. -/
theorem totals_of_ofCover {m : Metrics α} {d : Document} {tokens : List Span}
    (h : m.OfCover d tokens) (lang : Language) : Totals {(lang, m)} (d.tokenPieces tokens) where
  tokens hfits := by
    rw [h.chain.length_tokenPieces] at hfits ⊢
    simpa [Metrics.tokenSum, h.tokens_eq] using Nat.mod_eq_of_lt hfits
  bytes := by
    have hsize : d.length < UInt64.size := Nat.lt_of_le_of_lt d.size_le (by decide)
    rw [h.chain.sum_length_tokenPieces]
    simp [Metrics.byteSum, h.bytes_eq, Nat.mod_eq_of_lt hsize]

/-- A score that neither failed nor ran out of time gives a row. -/
theorem totals_outcomeOfScore (label : String) {d : Document} {tokens : List Span}
    {score : Except ScoreError (DocumentScore α)}
    (hcover : ∀ s, score = .ok s → s.metrics.OfCover d tokens)
    (hfailed : (outcomeOfScore α score).isFailed = false)
    (htimedOut : (outcomeOfScore α score).isTimedOut = false) :
    Totals (rows [⟨label, some d.language, outcomeOfScore α score⟩] :
      Multiset (Language × Metrics α)) (d.tokenPieces tokens) := by
  cases score with
  | error e =>
      rw [outcomeOfScore] at hfailed htimedOut
      by_cases htimeout : e.isTimeout
      · rw [if_pos htimeout] at htimedOut
        cases htimedOut
      · rw [if_neg htimeout] at hfailed
        cases hfailed
  | ok s => exact totals_of_ofCover (hcover s rfl) d.language

variable [Scalar α] {r : Runner PieceTable}

theorem totals_scoreDocument (label : String) {d : Document}
    (hfailed : (r.scoreDocument α d .empty).1.isFailed = false)
    (htimedOut : (r.scoreDocument α d .empty).1.isTimedOut = false) :
    Totals (rows [⟨label, some d.language, (r.scoreDocument α d .empty).1⟩] :
      Multiset (Language × Metrics α)) (r.documentTokens d) := by
  rw [scoreDocument] at hfailed htimedOut ⊢
  rw [documentTokens]
  rcases hreason : r.rejection? d with - | reason
  · rw [hreason] at hfailed htimedOut
    dsimp only at hfailed htimedOut ⊢
    generalize r.context.tokenizer.tokenize d .empty = answer at hfailed htimedOut ⊢
    obtain ⟨e | tokens, t⟩ := answer
    · -- a document that is no text is skipped, with any other error it fails
      cases e with
      | decode e => exact totals_zero
      | violation v => cases hfailed
      | span e => cases hfailed
      | backend name reason => cases hfailed
    · exact totals_outcomeOfScore label (fun _ => ofCover_of_scoreDocument_eq_ok) hfailed
        htimedOut
  · exact totals_zero

/-- **One item that neither fails nor runs out of time** has a row with the totals of its
pieces, or neither a row nor a piece. -/
theorem totals_alone {item : CorpusItem} (hfailed : (r.alone α item).outcome.isFailed = false)
    (htimedOut : (r.alone α item).outcome.isTimedOut = false) :
    Totals (rows [r.alone α item] : Multiset (Language × Metrics α)) (r.itemTokens item) := by
  rw [alone, process] at hfailed htimedOut ⊢
  rw [itemTokens]
  rcases hdocument : item.document with rejection | d
  · cases rejection <;> exact totals_zero
  · rw [hdocument] at hfailed htimedOut
    exact totals_scoreDocument item.label hfailed htimedOut

theorem totals_rows {items : List CorpusItem}
    (hfailed : ∀ result ∈ items.map (r.alone α), result.outcome.isFailed = false)
    (htimedOut : ∀ result ∈ items.map (r.alone α), result.outcome.isTimedOut = false) :
    Totals (rows (items.map (r.alone α)) : Multiset (Language × Metrics α))
      (items.flatMap r.itemTokens) := by
  induction items with
  | nil => exact totals_zero
  | cons item items ih =>
      rw [List.map_cons, List.forall_mem_cons] at hfailed htimedOut
      have hrows : (rows ((item :: items).map (r.alone α)) : Multiset (Language × Metrics α))
          = (rows [r.alone α item] : Multiset (Language × Metrics α))
            + rows (items.map (r.alone α)) := by
        rw [Multiset.coe_add, rows, rows, rows, ← List.filterMap_append]
        rfl
      rw [hrows, List.flatMap_cons]
      exact (totals_alone hfailed.1 htimedOut.1).add (ih hfailed.2 htimedOut.2)

end Totals

/-! ### The agreement -/

/-- **A run and a count of the frequencies agree.**  If there is a summary of a run in which no
document failed and none ran out of time, then the frequencies of the same documents, in any
order, have as many tokens as the score of the run, and their pieces, each as often as it is
counted, have as many bytes.  There are frequencies just if the number of tokens fits.  The
tokenizer may start the run with any table, and count with any table between none and the one
after the run. -/
theorem frequencies_agree {r : Runner PieceTable}
    (htokenizer : r.context.tokenizer.Supported) {t : PieceTable} (ht : t.Consistent)
    {items items' : List CorpusItem} (hperm : items'.Perm items) (α : Type) [Scalar α]
    {τ : Type} (sink : MetricsSink α τ) (s : τ) {summary : RunSummary α}
    (hrun : (r.run α t items sink s).1 = some summary) (hfailed : summary.failed = 0)
    (htimedOut : summary.timedOut = 0)
    {t' : PieceTable} (ht' : t'.Within (r.piecesAfter t items)) :
    ((r.frequencies? t' items').isSome ↔ (items.flatMap r.itemTokens).length < 2 ^ 64) ∧
    ∀ table, r.frequencies? t' items' = some table →
      table.total = summary.score.totalTokens ∧
      table.byteCount = summary.score.totalBytes.toNat := by
  have htallies : summary.Tallies (r.processAll α t items) := RunSummary.tallies_of_ofResults hrun
  have hgood : ∀ result ∈ r.processAll α t items, result.outcome.isFailed = false := by
    intro result hresult
    simpa using List.countP_eq_zero.mp (htallies.failed.symm.trans hfailed) result hresult
  have hintime : ∀ result ∈ r.processAll α t items, result.outcome.isTimedOut = false := by
    intro result hresult
    simpa using List.countP_eq_zero.mp (htallies.timedOut.symm.trans htimedOut) result hresult
  -- so there are ids for all pieces, and every document might as well be alone
  have hroom := hasRoom_of_not_failed α htokenizer ht hgood
  have hresults := processAll_eq_map α htokenizer hroom
    (fun _ hitem => r.mem_piecesAfter t hitem) (r.within_piecesAfter ht items)
  rw [hresults] at hgood hintime htallies
  have hpieces := hperm.flatMap_right r.itemTokens
  have hfrequencies : r.frequencies? t' items'
      = (TokenFrequencies.ofPieces? (items.flatMap r.itemTokens)).map
          (·.seed r.context.tokenizer.vocabulary) := by
    rw [frequencies?_eq_ofPieces htokenizer hroom
      (fun _ hitem => r.mem_piecesAfter t (hperm.mem_iff.mp hitem)) ht',
      TokenFrequencies.ofPieces?_perm hpieces]
  refine ⟨by rw [hfrequencies, Option.isSome_map, TokenFrequencies.isSome_ofPieces?_iff], ?_⟩
  intro table htable
  rw [hfrequencies, Option.map_eq_some_iff] at htable
  obtain ⟨f, hf, rfl⟩ := htable
  have htable := TokenFrequencies.ofPieces?_eq_some_iff.mp hf
  -- both sides have the totals of the same pieces
  have hrows := totals_rows hgood hintime
  have hscore := htallies.gathers
  refine ⟨?_, ?_⟩
  · rw [← UInt64.toNat_inj, hscore.tokens, hrows.tokens htable.length_lt]
    exact htable.total_eq
  · rw [hscore.bytes, hrows.bytes]
    exact (htable.toTallies.seed _).byteCount_eq

/-- Two texts with a piece in common, and a file that is too large. -/
def sharedDocuments : List CorpusItem :=
  [⟨"x.py", .ok sharedFirst⟩, ⟨"y.java", .ok sharedSecond⟩,
    ⟨"z.go", .error (.skipped (DocumentTooLarge.mk (2 ^ 32)).message)⟩]

theorem processAll_sharedDocuments :
    sharedPieces.processAll ℚ .empty sharedDocuments
      = sharedDocuments.map (sharedPieces.alone ℚ) ∧
    (sharedPieces.memoryAfter ℚ .empty sharedDocuments).Within
      (sharedPieces.piecesAfter .empty sharedDocuments) := by
  have hcard : (sharedPieces.piecesAfter .empty sharedDocuments).card ≤ UInt32.size := by
    decide +kernel
  have hitems := fun item (hitem : item ∈ sharedDocuments) =>
    sharedPieces.mem_piecesAfter .empty hitem
  have hempty := PieceTable.within_empty (sharedPieces.piecesAfter .empty sharedDocuments)
  exact ⟨processAll_eq_map ℚ .pretoken (.inr hcard) hitems hempty,
    within_memoryAfter ℚ .pretoken (.inr hcard) hitems hempty⟩

theorem frequencies_agree_sharedDocuments :
    let later := sharedPieces.memoryAfter ℚ .empty sharedDocuments
    ∃ summary, (sharedPieces.run ℚ .empty sharedDocuments (.null ℚ) ()).1 = some summary ∧
      summary.failed = 0 ∧ summary.timedOut = 0 ∧
      ∃ table, sharedPieces.frequencies? later sharedDocuments.reverse = some table ∧
        table.total = 4 ∧ table.byteCount = 8 := by
  obtain ⟨hresults, hlater⟩ := processAll_sharedDocuments
  rw [sharedDocuments, List.map_cons, List.map_cons,
    alone_eq ℚ sharedPieces "x.py" (by decide +kernel) tokenize_sharedFirst,
    alone_eq ℚ sharedPieces "y.java" (by decide +kernel) tokenize_sharedSecond] at hresults
  have hsome : ((sharedPieces.run ℚ .empty sharedDocuments (.null ℚ) ()).1.map fun s =>
      (s.failed, s.timedOut, s.score.totalTokens, s.score.totalBytes)) = some (0, 0, 4, 8) := by
    rw [run, sharedDocuments, hresults]
    decide +kernel
  obtain ⟨summary, hrun, hnumbers⟩ := Option.map_eq_some_iff.mp hsome
  obtain ⟨hfailed, htimedOut, htokens, hbytes⟩ : summary.failed = 0 ∧ summary.timedOut = 0 ∧
      summary.score.totalTokens = 4 ∧ summary.score.totalBytes = 8 := by
    simpa using hnumbers
  obtain ⟨hthere, hagree⟩ := frequencies_agree .pretoken PieceTable.consistent_empty
    (List.reverse_perm sharedDocuments) ℚ (.null ℚ) () hrun hfailed htimedOut hlater
  have hfits : (sharedDocuments.flatMap sharedPieces.itemTokens).length < 2 ^ 64 := by
    simp only [sharedDocuments, List.flatMap_cons, List.flatMap_nil, ← countedPieces_tokenizeItem]
    rw [tokenizeItem_of_tokens sharedPieces "x.py" (by decide +kernel) tokenize_sharedFirst,
      tokenizeItem_of_tokens sharedPieces "y.java" (by decide +kernel) tokenize_sharedSecond]
    decide +kernel
  obtain ⟨table, htable⟩ := Option.isSome_iff_exists.mp (hthere.mpr hfits)
  obtain ⟨htotal, hcount⟩ := hagree table htable
  refine ⟨summary, hrun, hfailed, htimedOut, table, htable, htotal.trans htokens, ?_⟩
  rw [hcount, hbytes]
  rfl

end Runner

end TokenAlignment
