/-
TokenAlignment/Proofs/Score/Ranges.lean

Where scores lie, in exact arithmetic.

    splitting scores of a document     0 ≤ mean of similarities ≤ 1
    document without bytes             every average is 0
    score of documents                 Σ (value · bytes) / Σ bytes, between its parts

The last line needs no bound on the documents: a score that is there at all has exact totals,
and so divides by the weights of all its parts.

Main result: `score_ranges`, for documents and for every tree of additions and absorptions.
-/
import TokenAlignment.Proofs.Score.Aggregation
import TokenAlignment.Proofs.Score.DocumentScore
import TokenAlignment.Proofs.Score.Similarity
import TokenAlignment.Proofs.Score.SpanOverlap

namespace TokenAlignment

/-! ### Identifiers -/

namespace IdentifierScores

variable {splits : List IdentifierSplits} {pieces : IdentifierSplits → List (List Char)}

/-- A splitting score: how similar some pieces of each identifier are to its words. -/
def meanSimilarity (pieces : IdentifierSplits → List (List Char))
    (splits : List IdentifierSplits) : ℚ :=
  mean (splits.map fun s => jaccard ℚ (pieces s) s.authoritative)

theorem similarity_mem_unit :
    ∀ x ∈ splits.map fun s => jaccard ℚ (pieces s) s.authoritative, 0 ≤ x ∧ x ≤ 1 := by
  intro x hx
  obtain ⟨s, -, rfl⟩ := List.mem_map.mp hx
  exact ⟨jaccard_nonneg, jaccard_le_one⟩

theorem meanSimilarity_mem_unit :
    0 ≤ meanSimilarity pieces splits ∧ meanSimilarity pieces splits ≤ 1 :=
  mean_mem_unit similarity_mem_unit

theorem meanSimilarity_eq_one_iff (hne : splits ≠ []) : meanSimilarity pieces splits = 1 ↔
    ∀ s ∈ splits, (pieces s).toFinset = s.authoritative.toFinset ∧
      (pieces s).toFinset.Nonempty := by
  rw [meanSimilarity, mean_eq_one_iff similarity_mem_unit (by simpa using hne),
    List.forall_mem_map]
  simp only [jaccard_eq_one_iff]

theorem meanSimilarity_eq_zero_iff : meanSimilarity pieces splits = 0 ↔
    ∀ s ∈ splits, Disjoint (pieces s).toFinset s.authoritative.toFinset := by
  rw [meanSimilarity, mean_eq_zero_iff similarity_mem_unit, List.forall_mem_map]
  simp only [jaccard_eq_zero_iff]

end IdentifierScores

/-! ### Documents without bytes -/

section Empty

variable {d : Document} {tokens : List Span}

theorem stop_eq_zero_of_chain (h : Span.Chain 0 tokens 0) :
    ∀ token ∈ tokens, token.stop = 0 :=
  fun _ htoken => Nat.le_zero.mp (h.stop_le htoken)

/-- In a document without bytes an identifier has no pieces. -/
theorem pieces_of_empty (hd : d.length = 0) (hchain : Span.Chain 0 tokens d.length)
    (identifiers : List SyntaxToken) (splitter : IdentifierSplitter) :
    ∀ s ∈ identifierSplits d identifiers tokens splitter, s.raw = [] ∧ s.clipped = [] := by
  intro s hs
  obtain ⟨identifier, text, htext, rfl⟩ := IdentifierSplits.exists_of_mem_filterMap_of? hs
  have hstop : identifier.span.stop = 0 := by
    have hle := (Document.start_add_length htext).2
    omega
  have hraw : IdentifierSplits.endingIn tokens.toArray identifier.span = [] := by
    rw [IdentifierSplits.endingIn_eq hchain, List.filter_eq_nil_iff]
    intro t _
    simp only [hstop, Bool.and_eq_true, decide_eq_true_eq, Bool.not_eq_true',
      decide_eq_false_iff_not]
    omega
  have htouching : IdentifierSplits.touching tokens.toArray identifier.span = [] := by
    rw [IdentifierSplits.touching_eq hchain, List.filter_eq_nil_iff]
    intro t _
    simp [hstop]
  simp [IdentifierSplits.ofIdentifier, hraw, htouching]

/-- **A document without bytes has zero in every average.** -/
theorem value_of_empty (hd : d.length = 0) (hchain : Span.Chain 0 tokens d.length)
    (syntaxTokens identifiers : List SyntaxToken) (splitter : IdentifierSplitter) (k : Metric) :
    (documentScore ℚ d syntaxTokens identifiers tokens splitter).metrics.value k = 0 := by
  have hpieces := pieces_of_empty hd hchain identifiers splitter
  cases k with
  | compression =>
      show Scalar.ratio ℚ d.length tokens.length = 0
      rw [hd, ratio_rat, Nat.cast_zero, zero_div]
  | identifierFertility =>
      have hraw : (identifierSplits d identifiers tokens splitter).map (fun s => s.raw.length)
          = List.replicate (identifierSplits d identifiers tokens splitter).length 0 :=
        List.map_eq_replicate_iff.mpr fun s hs => by rw [(hpieces s hs).1, List.length_nil]
      show Scalar.ratio ℚ (((identifierSplits d identifiers tokens splitter).map
        fun s => s.raw.length).foldl (· + ·) 0) _ = 0
      rw [hraw, ← List.sum_eq_foldl, List.sum_replicate, nsmul_zero, ratio_rat, Nat.cast_zero,
        zero_div]
  | identifierSplitting =>
      refine IdentifierScores.meanSimilarity_eq_zero_iff.mpr fun s hs => ?_
      rw [(hpieces s hs).2]
      exact Finset.disjoint_empty_left _
  | rawIdentifierSplitting =>
      refine IdentifierScores.meanSimilarity_eq_zero_iff.mpr fun s hs => ?_
      rw [(hpieces s hs).1]
      exact Finset.disjoint_empty_left _
  | tokenSpan =>
      show Scalar.ratio ℚ (SpanOverlap.count syntaxTokens tokens) tokens.length = 0
      rw [hd] at hchain
      rw [SpanOverlap.count_of_stop_eq_zero syntaxTokens (stop_eq_zero_of_chain hchain),
        ratio_rat, Nat.cast_zero, zero_div]

end Empty

/-! ### Aggregation -/

namespace Metrics

/-- The metrics of a document. -/
def OfDocument (m : Metrics ℚ) : Prop :=
  ∃ d syntaxTokens identifiers tokens splitter deadline score,
    scoreTokens ℚ d syntaxTokens identifiers tokens splitter deadline = .ok score ∧
      m = score.metrics

/-- The average lies between zero and one. -/
def InUnit (m : Metrics ℚ) (k : Metric) : Prop :=
  0 ≤ m.value k ∧ m.value k ≤ 1

/-- The splitting scores of a document lie between zero and one. -/
theorem OfDocument.inUnit {m : Metrics ℚ} (h : m.OfDocument) :
    m.InUnit .identifierSplitting ∧ m.InUnit .rawIdentifierSplitting := by
  obtain ⟨d, syntaxTokens, identifiers, tokens, splitter, deadline, score, hscore, rfl⟩ := h
  obtain ⟨-, rfl⟩ := eq_of_scoreTokens_eq_ok hscore
  exact ⟨IdentifierScores.meanSimilarity_mem_unit, IdentifierScores.meanSimilarity_mem_unit⟩

variable {k : Metric} {records : Multiset (Metrics ℚ)}

/-- A weight of averages between zero and one is at most the bytes. -/
theorem weightedSum_mem (h : ∀ m ∈ records, m.InUnit k) :
    0 ≤ weightedSum k records ∧ weightedSum k records ≤ byteSum records := by
  induction records using Multiset.induction_on with
  | empty => simp
  | cons m records ih =>
      obtain ⟨hlow, hhigh⟩ := ih fun m' hm' => h m' (Multiset.mem_cons_of_mem hm')
      obtain ⟨hpos, hone⟩ := h m (Multiset.mem_cons_self m records)
      have hbytes : (0 : ℚ) ≤ m.totalBytes.toNat := Nat.cast_nonneg _
      have hm := mul_le_of_le_one_left hbytes hone
      have hm' := mul_nonneg hpos hbytes
      simp only [weightedSum, byteSum, Multiset.map_cons, Multiset.sum_cons, Nat.cast_add]
        at hlow hhigh ⊢
      exact ⟨add_nonneg hm' hlow, add_le_add hm hhigh⟩

/-- **A mean lies between zero and one if its parts do.** -/
theorem byteMean_mem_unit (h : ∀ m ∈ records, m.InUnit k) :
    0 ≤ byteMean k records ∧ byteMean k records ≤ 1 := by
  obtain ⟨hlow, hhigh⟩ := weightedSum_mem h
  rw [byteMean]
  split
  · exact ⟨le_rfl, zero_le_one⟩
  · exact ⟨div_nonneg hlow (Nat.cast_nonneg _), div_le_one_of_le₀ hhigh (Nat.cast_nonneg _)⟩

end Metrics

theorem exists_of_mem_ofLanguage {α : Type} {lang : Language} {m : Metrics α}
    {records : Multiset (Language × Metrics α)} (h : m ∈ ofLanguage lang records) :
    ∃ record ∈ records, record.2 = m := by
  obtain ⟨record, hrecord, hm⟩ := Multiset.mem_map.mp h
  exact ⟨record, Multiset.mem_of_mem_filter hrecord, hm⟩

namespace Accumulation

/-- **An average between zero and one stays there.** -/
theorem inUnit {k : Metric} {acc : Accumulation ℚ} {s : CorpusScore ℚ}
    (hs : acc.score? = some s) (h : ∀ record ∈ acc.records, record.2.InUnit k)
    {lang : Language} {m : Metrics ℚ} (hm : s.get? lang = some m) : m.InUnit k := by
  have hyields := acc.yields_score Metrics.merging_isMeanOf
  rw [hs] at hyields
  obtain ⟨m', hm', hmean⟩ := hyields.gathers.entry lang
  obtain rfl : m = m' := Option.some.inj (hm.symm.trans hm')
  rw [Metrics.InUnit, hmean.mean]
  refine Metrics.byteMean_mem_unit fun m hm => ?_
  obtain ⟨record, hrecord, rfl⟩ := exists_of_mem_ofLanguage hm
  exact h record hrecord

/-- **Where scores lie.**  There are scores unless the time is up or the tokens do not cover
the document.  The splitting scores of the identifiers of a document lie between
zero and one.  With an identifier that is scored, each is one just if the pieces of every
identifier are its words, as sets, and there are some; and zero just if they share none of
them; without one, the fertility is zero too.  A document without bytes has zero in every
average.  However documents are added to scores and scores absorbed by others, there is a
score just if the totals of the documents fit, and then the splitting scores of every language
lie between zero and one. -/
theorem score_ranges :
    (∀ d identifiers tokens splitter deadline,
      (deadline ≠ .expired → ∃ scores,
        scoreIdentifiers ℚ d identifiers tokens splitter deadline = .ok scores) ∧
      ∀ scores, scoreIdentifiers ℚ d identifiers tokens splitter deadline = .ok scores →
      (0 ≤ scores.splitting ∧ scores.splitting ≤ 1) ∧
      (0 ≤ scores.rawSplitting ∧ scores.rawSplitting ≤ 1) ∧
      (scores.splits ≠ [] →
        (scores.splitting = 1 ↔ ∀ s ∈ scores.splits,
          s.clipped.toFinset = s.authoritative.toFinset ∧ s.clipped.toFinset.Nonempty) ∧
        (scores.rawSplitting = 1 ↔ ∀ s ∈ scores.splits,
          s.raw.toFinset = s.authoritative.toFinset ∧ s.raw.toFinset.Nonempty) ∧
        (scores.splitting = 0 ↔ ∀ s ∈ scores.splits,
          Disjoint s.clipped.toFinset s.authoritative.toFinset) ∧
        (scores.rawSplitting = 0 ↔ ∀ s ∈ scores.splits,
          Disjoint s.raw.toFinset s.authoritative.toFinset)) ∧
      (scores.splits = [] →
        scores.splitting = 0 ∧ scores.rawSplitting = 0 ∧ scores.fertility = 0)) ∧
    (∀ d syntaxTokens identifiers tokens splitter deadline,
      (checkCover tokens d.length = .ok () → deadline ≠ .expired → ∃ score,
        scoreTokens ℚ d syntaxTokens identifiers tokens splitter deadline = .ok score) ∧
      ∀ score, scoreTokens ℚ d syntaxTokens identifiers tokens splitter deadline = .ok score →
      d.length = 0 → ∀ k, score.metrics.value k = 0) ∧
    ∀ acc : Accumulation ℚ, (∀ record ∈ acc.records, record.2.OfDocument) →
      (acc.score?.isSome ↔ Fits acc.records) ∧
      ∀ s, acc.score? = some s → ∀ lang, ∃ m, s.get? lang = some m ∧
        (0 ≤ m.identifierSplitting ∧ m.identifierSplitting ≤ 1) ∧
        (0 ≤ m.rawIdentifierSplitting ∧ m.rawIdentifierSplitting ≤ 1) := by
  refine ⟨?_, ?_, ?_⟩
  · intro d identifiers tokens splitter deadline
    refine ⟨exists_scoreIdentifiers_eq_ok ℚ d identifiers tokens splitter, ?_⟩
    intro scores hscores
    rw [splits_of_scoreIdentifiers_eq_ok hscores]
    generalize identifiers.filterMap _ = splits
    refine ⟨IdentifierScores.meanSimilarity_mem_unit, IdentifierScores.meanSimilarity_mem_unit,
      fun hne => ⟨IdentifierScores.meanSimilarity_eq_one_iff hne,
        IdentifierScores.meanSimilarity_eq_one_iff hne,
        IdentifierScores.meanSimilarity_eq_zero_iff,
        IdentifierScores.meanSimilarity_eq_zero_iff⟩, ?_⟩
    intro hnil
    obtain rfl : splits = [] := hnil
    exact ⟨rfl, rfl, rfl⟩
  · intro d syntaxTokens identifiers tokens splitter deadline
    refine ⟨fun hcover htime => ⟨_, scoreTokens_eq (checkCover_eq_ok_iff.mp hcover) htime⟩, ?_⟩
    intro score hscore hd k
    obtain ⟨hchain, rfl⟩ := eq_of_scoreTokens_eq_ok hscore
    exact value_of_empty hd hchain syntaxTokens identifiers splitter k
  · intro acc hrecords
    refine ⟨acc.isSome_score?_iff, fun s hs lang => ?_⟩
    have hyields := acc.yields_score Metrics.merging_sums
    rw [hs] at hyields
    obtain ⟨m, hm⟩ := hyields.gathers.exists_get? lang
    exact ⟨m, hm, inUnit hs (fun record h => (hrecords record h).inUnit.1) hm,
      inUnit hs (fun record h => (hrecords record h).inUnit.2) hm⟩

/-- An identifier of some bytes. -/
def identifierAt (start width : Nat) : SyntaxToken :=
  ⟨⟨start, start + width, Nat.le_add_right ..⟩, "identifier"⟩

/-- The text `ab c`. -/
def twoWords : Document := ⟨.python, #[0x61, 0x62, 0x20, 0x63], by decide⟩

/-- The words in it. -/
def twoWordsIdentifiers : List SyntaxToken :=
  [identifierAt 0 2, identifierAt 3 1]

/-- A cover that cuts the first word and keeps the second. -/
def twoWordsCut : List Span :=
  Span.layout 0 [1, 3]

/-- Its metrics. -/
def twoWordsMetrics : Metrics ℚ :=
  ⟨2, 1, 1 / 2, 0, 0, 2, 4⟩

theorem scoreTokens_twoWords : ∃ score,
    scoreTokens ℚ twoWords [] twoWordsIdentifiers twoWordsCut (fun word => [word]) .pending
      = .ok score ∧ twoWordsMetrics = score.metrics :=
  ⟨_, scoreTokens_eq (checkCover_eq_ok_iff.mp (by decide)) (by decide), by decide +kernel⟩

theorem scoreTokens_empty : ∃ score,
    scoreTokens ℚ (.empty .go) [] [identifierAt 0 0] (Span.layout 0 [0]) (fun word => [word])
      .pending = .ok score :=
  ⟨_, scoreTokens_eq (checkCover_eq_ok_iff.mp (by decide)) (by decide)⟩

theorem scoreIdentifiers_twoWords : ∃ scores,
    scoreIdentifiers ℚ twoWords twoWordsIdentifiers twoWordsCut (fun word => [word]) .pending
      = .ok scores ∧ scores.splits ≠ [] ∧
      ∃ s ∈ scores.splits, s.clipped.toFinset ≠ s.authoritative.toFinset := by
  obtain ⟨scores, hscores⟩ := exists_scoreIdentifiers_eq_ok ℚ twoWords twoWordsIdentifiers
    twoWordsCut (fun word => [word]) (by decide : Deadline.pending ≠ .expired)
  refine ⟨scores, hscores, ?_⟩
  rw [splits_of_scoreIdentifiers_eq_ok hscores]
  decide +kernel

/-- Two scores of it, one of which absorbs the other. -/
def twoWordsTwice : Accumulation ℚ :=
  .absorb (.add .new .python twoWordsMetrics) (.add .new .python twoWordsMetrics)

theorem ofDocument_of_mem_twoWordsTwice :
    ∀ record ∈ twoWordsTwice.records, record.2.OfDocument := by
  intro record hrecord
  obtain ⟨score, hscore, hmetrics⟩ := scoreTokens_twoWords
  have hsame : record = (.python, twoWordsMetrics) := by
    simpa [twoWordsTwice, records] using hrecord
  rw [hsame]
  exact ⟨_, _, _, _, _, _, score, hscore, hmetrics⟩

theorem score_ranges_twoWords :
    (∃ scores, scoreIdentifiers ℚ twoWords twoWordsIdentifiers twoWordsCut (fun word => [word])
        .pending = .ok scores ∧ 0 ≤ scores.splitting ∧ scores.splitting ≤ 1 ∧
      scores.splitting ≠ 1) ∧
    (∃ score, scoreTokens ℚ (.empty .go) [] [identifierAt 0 0] (Span.layout 0 [0])
        (fun word => [word]) .pending = .ok score ∧ ∀ k, score.metrics.value k = 0) ∧
    ∃ s m, twoWordsTwice.score? = some s ∧ s.get? .python = some m ∧
      0 ≤ m.identifierSplitting ∧ m.identifierSplitting ≤ 1 := by
  obtain ⟨hidentifiers, hempty, hscores⟩ := score_ranges
  refine ⟨?_, ?_, ?_⟩
  · obtain ⟨scores, hscores, hne, s, hs, hcut⟩ := scoreIdentifiers_twoWords
    obtain ⟨hunit, -, hextreme, -⟩ := (hidentifiers _ _ _ _ _).2 scores hscores
    exact ⟨scores, hscores, hunit.1, hunit.2,
      fun hone => hcut (((hextreme hne).1.mp hone s hs).1)⟩
  · obtain ⟨score, hscore⟩ := scoreTokens_empty
    exact ⟨score, hscore, (hempty _ _ _ _ _ _).2 _ hscore rfl⟩
  · obtain ⟨hsome, hunit⟩ := hscores twoWordsTwice ofDocument_of_mem_twoWordsTwice
    obtain ⟨s, hs⟩ := Option.isSome_iff_exists.mp (hsome.mpr ⟨by decide, by decide⟩)
    obtain ⟨m, hm, hsplitting, -⟩ := hunit s hs .python
    exact ⟨s, m, hs, hm, hsplitting⟩

end Accumulation

end TokenAlignment
