/-
TokenAlignment/Proofs/Run/Baseline.lean

One token for each byte is an exact baseline.

    a text of n bytes     n tokens, compression 1, token span 1
    a run                 Σ tokens = Σ bytes, means of ones, no two languages apart

A document without bytes has zero instead of one.  It has no weight in a mean, and so does
not show in a language that has a byte elsewhere.

Main result: `byte_baseline`.
-/
import TokenAlignment.Proofs.Run.Alone
import TokenAlignment.Proofs.Run.Summary
import TokenAlignment.Proofs.Score.ByteTokens
import TokenAlignment.Proofs.Syntax.Identifiers

namespace TokenAlignment

/-! ### Where the rows come from -/

namespace Runner

variable {σ : Type} {α : Type} [Scalar α]

/-- The metrics are those of a document and the tokens that the tokenizer gave for it. -/
def Scores (r : Runner σ) (m : Metrics α) : Prop :=
  ∃ d memory tokens score, (r.context.tokenizer.tokenize d memory).1 = .ok tokens ∧
    TokenAlignment.scoreDocument α r.context.parser d tokens r.context.splitter
      (Deadline.after r.config.timeoutMillis) = .ok score ∧ m = score.metrics

omit [Scalar α] in
theorem metrics_of_outcomeOfScore {result : Except ScoreError (DocumentScore α)}
    {m : Metrics α} (h : outcomeOfScore α result = .scored m) :
    ∃ score, result = .ok score ∧ m = score.metrics := by
  cases result with
  | ok score =>
      cases h
      exact ⟨score, rfl, rfl⟩
  | error e =>
      rw [outcomeOfScore] at h
      split at h <;> cases h

theorem scores_of_scoreDocument (r : Runner σ) {d : Document} {memory : σ} {m : Metrics α}
    (h : (r.scoreDocument α d memory).1 = .scored m) : r.Scores m := by
  rw [scoreDocument] at h
  rcases hreason : r.rejection? d with - | reason
  · rw [hreason] at h
    dsimp only at h
    rcases htokens : r.context.tokenizer.tokenize d memory with ⟨e | tokens, memory'⟩
    · rw [htokens] at h
      cases e <;> cases h
    · rw [htokens] at h
      obtain ⟨score, hscore, hm⟩ := metrics_of_outcomeOfScore h
      exact ⟨d, memory, tokens, score, by rw [htokens], hscore, hm⟩
  · rw [hreason] at h
    cases h

theorem scores_of_process (r : Runner σ) (item : CorpusItem) (memory : σ) {m : Metrics α}
    (h : (r.process α item memory).1.outcome = .scored m) : r.Scores m := by
  rw [process] at h
  rcases hdocument : item.document with rejection | d
  · rw [hdocument] at h
    cases rejection <;> cases h
  · rw [hdocument] at h
    exact r.scores_of_scoreDocument h

/-- **Each row of a run is the score of a document.** -/
theorem scores_of_mem_rows (r : Runner σ) (memory : σ) {items : List CorpusItem}
    {results : List (DocumentResult α)} (hresults : results.Perm (r.processAll α memory items)) :
    ∀ row ∈ rows results, r.Scores row.2 := by
  intro row hrow
  obtain ⟨result, hresult, hscored, -⟩ := exists_of_mem_rows hrow
  exact forall_mem_processAll α (P := fun result => ∀ m, result.outcome = .scored m → r.Scores m)
    (fun item memory _ => r.scores_of_process item memory) memory items result
    (hresults.mem_iff.mp hresult) row.2 hscored

/-- With one token for each byte, all rows are bytewise. -/
theorem bytewise_of_scores {r : Runner σ}
    (hbytes : r.context.tokenizer = (byteEncoder σ).tokenizer) {m : Metrics ℚ}
    (h : r.Scores m) : m.Bytewise := by
  obtain ⟨d, memory, tokens, score, htokens, hscore, rfl⟩ := h
  rw [hbytes] at htokens
  obtain ⟨-, rfl⟩ := tokenize_byteEncoder.mp htokens
  obtain ⟨tree, syntaxTokens, identifiers, hleaves, hscore⟩ :=
    exists_of_scoreDocument_eq_ok hscore
  obtain ⟨-, rfl⟩ := eq_of_scoreTokens_eq_ok hscore
  exact bytewise_documentScore (SyntaxTree.chain_of_tokens_eq_ok hleaves) identifiers _

end Runner

/-! ### Merges -/

namespace Metrics

theorem tokenSum_eq_byteSum {records : Multiset (Metrics ℚ)}
    (h : ∀ m ∈ records, m.totalTokens = m.totalBytes) : tokenSum records = byteSum records :=
  congrArg Multiset.sum (Multiset.map_congr rfl fun m hm => congrArg UInt64.toNat (h m hm))

/-- **A mean of bytewise records is bytewise.** -/
theorem IsMeanOf.bytewise {m : Metrics ℚ} {records : Multiset (Metrics ℚ)}
    (h : m.IsMeanOf records) (hrecords : ∀ record ∈ records, record.Bytewise) : m.Bytewise := by
  have hbytes (hne : m.totalBytes ≠ 0) : byteSum records ≠ 0 := by
    rwa [← h.bytes, Ne, ← UInt64.toNat_zero, UInt64.toNat_inj]
  refine ⟨?_, fun hne => ?_, fun hne => ?_⟩
  · rw [← UInt64.toNat_inj, h.tokens, h.bytes,
      tokenSum_eq_byteSum fun record hrecord => (hrecords record hrecord).tokens]
  · exact (h.mean .compression).trans (byteMean_of_forall_eq
      (fun record hrecord => (hrecords record hrecord).compression) (hbytes hne))
  · exact (h.mean .tokenSpan).trans (byteMean_of_forall_eq
      (fun record hrecord => (hrecords record hrecord).tokenSpan) (hbytes hne))

end Metrics

/-! ### Languages apart -/

namespace CorpusScore

variable {c : ℚ}

/-- Equal numbers do not lie apart. -/
theorem pairDistances_of_forall_eq {values : List ℚ} (h : ∀ x ∈ values, x = c) :
    ∀ x ∈ pairDistances values, x = 0 := by
  induction values with
  | nil =>
      intro x hx
      cases hx
  | cons value values ih =>
      rw [List.forall_mem_cons] at h
      rw [pairDistances, List.forall_mem_append, List.forall_mem_map]
      refine ⟨fun other hother => ?_, ih h.2⟩
      show (value - other).abs = 0
      rw [h.1, h.2 other hother, sub_self]
      rfl

/-- **Languages with the same compression are not apart.** -/
theorem compressionParity_of_forall_eq {s : CorpusScore ℚ}
    (h : ∀ entry ∈ s.withData, entry.2.compression = c) : s.compressionParity = 0 := by
  have hzero := pairDistances_of_forall_eq (List.forall_mem_map.mpr h)
  rw [compressionParity]
  split
  · rfl
  · rw [← List.sum_eq_foldl, List.sum_eq_zero hzero]
    exact zero_div _

theorem get?_of_mem_withData {α : Type} [Scalar α] {s : CorpusScore α}
    {entry : Language × Metrics α} (h : entry ∈ s.withData) :
    s.get? entry.1 = some entry.2 ∧ entry.2.totalBytes ≠ 0 := by
  obtain ⟨hentry, hpos⟩ := List.mem_filter.mp h
  obtain ⟨lang, -, hget⟩ := List.mem_filterMap.mp hentry
  obtain ⟨m, hm, rfl⟩ := Option.map_eq_some_iff.mp hget
  refine ⟨hm, fun hzero => ?_⟩
  rw [hzero] at hpos
  cases hpos

end CorpusScore

/-! ### The baseline -/

namespace Runner

/-- The bytes of the rows in a language. -/
def rowBytes (results : List (DocumentResult ℚ)) (lang : Language) : Nat :=
  Metrics.byteSum (ofLanguage lang (rows results : Multiset (Language × Metrics ℚ)))

/-- **One language of a run** with one token for each byte. -/
theorem bytewise_of_tallies {results : List (DocumentResult ℚ)} {summary : RunSummary ℚ}
    (h : summary.Tallies results) (hrows : ∀ row ∈ rows results, row.2.Bytewise)
    (lang : Language) :
    ∃ m, summary.score.get? lang = some m ∧ m.totalBytes.toNat = rowBytes results lang ∧
      m.Bytewise := by
  obtain ⟨m, hm, hmean⟩ := h.represents.entry lang
  refine ⟨m, hm, hmean.bytes, hmean.bytewise fun record hrecord => ?_⟩
  obtain ⟨row, hrow, rfl⟩ := Multiset.mem_map.mp hrecord
  exact hrows row (Multiset.mem_coe.mp (Multiset.mem_filter.mp hrow).1)

/-- **All languages of a run** with one token for each byte. -/
theorem totals_of_tallies {results : List (DocumentResult ℚ)} {summary : RunSummary ℚ}
    (h : summary.Tallies results) (hrows : ∀ row ∈ rows results, row.2.Bytewise) :
    summary.score.totalTokens = summary.score.totalBytes := by
  rw [← UInt64.toNat_inj, h.represents.tokens, h.represents.bytes]
  refine Metrics.tokenSum_eq_byteSum fun m hm => ?_
  obtain ⟨row, hrow, rfl⟩ := Multiset.mem_map.mp hm
  exact (hrows row (Multiset.mem_coe.mp hrow)).tokens

/-- A text whose tree has spans is scored, with one for all that is counted by bytes. -/
theorem exists_score_of_text {σ : Type} (memory : σ) {parser : Parser} {d : Document}
    {text : List Char} {tree : SyntaxTree} (splitter : IdentifierSplitter)
    (htext : Utf8.encode text = d.content.toList)
    (hsupports : parser.supports d.language = true)
    (htree : parser.grammar d.language d.content = some tree)
    (hspans : ∀ node ∈ tree.preorder, node.HasSpan) :
    ∃ tokens score, ((byteEncoder σ).tokenizer.tokenize d memory).1 = .ok tokens ∧
      TokenAlignment.scoreDocument ℚ parser d tokens splitter .unbounded = .ok score ∧
      score.metrics.totalBytes = UInt64.ofNat d.length ∧ score.metrics.Bytewise ∧
      tree.identifiers d.language.identifierKinds .unbounded = .ok score.identifiers ∧
      score.metrics.identifierFertility
        = meanLength (score.identifiers.filter fun t => d.IsText t.span) := by
  have hleaves := tree.tokens_eq_ok d.size_le
    fun t ht => hspans t (List.mem_filter.mp ht).1
  have hidentifiers : tree.identifiers d.language.identifierKinds .unbounded = .ok _ :=
    tree.identifiers_eq_ok fun t ht => hspans t (List.mem_filter.mp ht).1
  refine ⟨_, _, tokenize_byteEncoder.mpr ⟨⟨text, htext⟩, rfl⟩,
    TokenAlignment.scoreDocument_eq hsupports htree hleaves hidentifiers
      (Span.chain_singles d.length), rfl,
    bytewise_documentScore (SyntaxTree.chain_of_tokens_eq_ok hleaves) _ _, hidentifiers, ?_⟩
  exact identifierFertility_singles d _ _ splitter

/-- **One token for each byte is an exact baseline.**  A text with a byte, in a tree whose
nodes have spans, has as many tokens as bytes, one byte and one syntax token for each token,
and for each of its identifiers as many tokens as it has bytes, on average.  A run, whatever
its documents are and in which order their results arrive, has a summary just if the totals
fit.  In this there are as many tokens as bytes, in all and in each language; each token of a
language that has any has one byte and one syntax token on average; and no two languages are
apart. -/
theorem byte_baseline :
    (∀ {σ : Type} (memory : σ) (parser : Parser) (d : Document) (text : List Char)
      (tree : SyntaxTree) (splitter : IdentifierSplitter),
      d.length ≠ 0 → Utf8.encode text = d.content.toList →
      parser.supports d.language = true → parser.grammar d.language d.content = some tree →
      (∀ node ∈ tree.preorder, node.HasSpan) →
      ∃ tokens score, ((byteEncoder σ).tokenizer.tokenize d memory).1 = .ok tokens ∧
        TokenAlignment.scoreDocument ℚ parser d tokens splitter .unbounded = .ok score ∧
        score.metrics.totalTokens.toNat = d.length ∧
        score.metrics.totalBytes.toNat = d.length ∧
        score.metrics.compression = 1 ∧ score.metrics.tokenSpan = 1 ∧
        tree.identifiers d.language.identifierKinds .unbounded = .ok score.identifiers ∧
        score.metrics.identifierFertility
          = meanLength (score.identifiers.filter fun t => d.IsText t.span)) ∧
    ∀ {σ : Type} (r : Runner σ), r.context.tokenizer = (byteEncoder σ).tokenizer →
      ∀ (memory : σ) (items : List CorpusItem) (results : List (DocumentResult ℚ)),
      results.Perm (r.processAll ℚ memory items) →
      ∀ {τ : Type} (sink : MetricsSink ℚ τ) (t : τ),
      ((RunSummary.ofResults sink t results).1.isSome ↔
        Fits (rows results : Multiset (Language × Metrics ℚ))) ∧
      ∀ summary, (RunSummary.ofResults sink t results).1 = some summary →
        summary.score.totalTokens = summary.score.totalBytes ∧
        (∀ lang, ∃ m, summary.score.get? lang = some m ∧ m.totalTokens = m.totalBytes ∧
          m.totalBytes.toNat = rowBytes results lang ∧
          (rowBytes results lang ≠ 0 → m.compression = 1 ∧ m.tokenSpan = 1)) ∧
        summary.score.compressionParity = 0 := by
  refine ⟨?_, ?_⟩
  · intro σ memory parser d text tree splitter hlength htext hsupports htree hspans
    obtain ⟨tokens, score, htokens, hscore, hbytes, hbytewise, hidentifiers, hfertility⟩ :=
      exists_score_of_text memory splitter htext hsupports htree hspans
    have hsize : score.metrics.totalBytes.toNat = d.length := by
      rw [hbytes]
      exact UInt64.toNat_ofNat_of_lt' (Nat.lt_of_le_of_lt d.size_le (by decide))
    have hne : score.metrics.totalBytes ≠ 0 := by
      rwa [Ne, ← UInt64.toNat_inj, hsize]
    exact ⟨tokens, score, htokens, hscore, hbytewise.tokens ▸ hsize, hsize,
      hbytewise.compression hne, hbytewise.tokenSpan hne, hidentifiers, hfertility⟩
  · intro σ r hbytes memory items results hresults τ sink t
    refine ⟨RunSummary.isSome_ofResults_iff sink t, fun summary hsummary => ?_⟩
    have hrows : ∀ row ∈ rows results, row.2.Bytewise := fun row hrow =>
      bytewise_of_scores hbytes (r.scores_of_mem_rows memory hresults row hrow)
    have htallies := RunSummary.tallies_of_ofResults hsummary
    refine ⟨totals_of_tallies htallies hrows, ?_, ?_⟩
    · intro lang
      obtain ⟨m, hm, hsize, hbytewise⟩ := bytewise_of_tallies htallies hrows lang
      refine ⟨m, hm, hbytewise.tokens, hsize, fun hsome => ?_⟩
      have hne : m.totalBytes ≠ 0 := by
        rwa [Ne, ← UInt64.toNat_inj, hsize]
      exact ⟨hbytewise.compression hne, hbytewise.tokenSpan hne⟩
    · refine CorpusScore.compressionParity_of_forall_eq (c := 1) fun entry hentry => ?_
      obtain ⟨hget, hne⟩ := CorpusScore.get?_of_mem_withData hentry
      obtain ⟨m, hm, -, hbytewise⟩ := bytewise_of_tallies htallies hrows entry.1
      obtain rfl : m = entry.2 := Option.some.inj (hm.symm.trans hget)
      exact hbytewise.compression hne

/-- Two identifiers, with an empty token between them. -/
def twoNamesTree : SyntaxTree :=
  .node "module" 0 4 [.node "identifier" 0 2 [], .node "newline" 2 2 [], .node "identifier" 3 4 []]

/-- A run with one token for each byte, in a grammar that sees two names in every text. -/
def twoNames : Runner Unit where
  context :=
    { parser := ⟨[.go, .python], fun _ _ => some twoNamesTree⟩
      tokenizer := (byteEncoder Unit).tokenizer
      splitter := fun word => [word] }
  config := EvalConfig.standard

/-- The text `xy z`. -/
def twoNamesText : Document := ⟨.python, #[0x78, 0x79, 0x20, 0x7A], by decide⟩

/-- A text in each language, and one without bytes. -/
def twoNamesCorpus : List CorpusItem :=
  [⟨"a.py", .ok twoNamesText⟩, ⟨"b.go", .ok (.empty .go)⟩,
    ⟨"c.go", .ok ⟨.go, #[0x78, 0x79, 0x0A], by decide⟩⟩]

/-- Its results, the last one first. -/
def twoNamesResults : List (DocumentResult ℚ) :=
  (twoNames.processAll ℚ () twoNamesCorpus).reverse

theorem hasSpan_twoNamesTree : ∀ node ∈ twoNamesTree.preorder, node.HasSpan := by
  decide +kernel

theorem rowBytes_twoNames (lang : Language) : rowBytes twoNamesResults lang
    = if lang = .python then 4 else if lang = .go then 3 else 0 := by
  cases lang <;> decide +kernel

theorem fits_twoNames : Fits (rows twoNamesResults : Multiset (Language × Metrics ℚ)) :=
  ⟨by decide +kernel, by decide +kernel⟩

theorem byte_baseline_twoNames :
    (∃ tokens score, ((byteEncoder Unit).tokenizer.tokenize twoNamesText ()).1 = .ok tokens ∧
      TokenAlignment.scoreDocument ℚ twoNames.context.parser twoNamesText tokens
        twoNames.context.splitter .unbounded = .ok score ∧
      score.metrics.totalTokens.toNat = 4 ∧ score.metrics.identifierFertility = 3 / 2) ∧
    ∃ summary, (RunSummary.ofResults (.null ℚ) () twoNamesResults).1 = some summary ∧
      (∃ m, summary.score.get? .python = some m ∧ m.totalBytes.toNat = 4 ∧ m.compression = 1) ∧
      (∃ m, summary.score.get? .go = some m ∧ m.totalBytes.toNat = 3 ∧ m.compression = 1) ∧
      summary.score.compressionParity = 0 := by
  obtain ⟨htexts, hruns⟩ := byte_baseline
  have hidentifiers : twoNamesTree.identifiers Language.python.identifierKinds .unbounded
      = .ok _ :=
    twoNamesTree.identifiers_eq_ok fun t ht => hasSpan_twoNamesTree t (List.mem_filter.mp ht).1
  refine ⟨?_, ?_⟩
  · obtain ⟨tokens, score, htokens, hscore, hcount, -, -, -, hfound, hfertility⟩ :=
      htexts () twoNames.context.parser twoNamesText ['x', 'y', ' ', 'z'] twoNamesTree
        twoNames.context.splitter (by decide) (by decide +kernel) rfl rfl hasSpan_twoNamesTree
    refine ⟨tokens, score, htokens, hscore, hcount, ?_⟩
    rw [hfertility, ← Except.ok.inj (hidentifiers.symm.trans hfound)]
    decide +kernel
  · obtain ⟨hthere, hsummary⟩ := hruns twoNames rfl () twoNamesCorpus twoNamesResults
      (List.reverse_perm _) (.null ℚ) ()
    obtain ⟨summary, hsome⟩ := Option.isSome_iff_exists.mp (hthere.mpr fits_twoNames)
    obtain ⟨-, hlanguages, hparity⟩ := hsummary summary hsome
    obtain ⟨m, hm, -, hsize, hone⟩ := hlanguages .python
    obtain ⟨m', hm', -, hsize', hone'⟩ := hlanguages .go
    rw [rowBytes_twoNames] at hsize hone hsize' hone'
    exact ⟨summary, hsome, ⟨m, hm, hsize, (hone (by decide)).1⟩,
      ⟨m', hm', hsize', (hone' (by decide)).1⟩, hparity⟩

end Runner

end TokenAlignment
