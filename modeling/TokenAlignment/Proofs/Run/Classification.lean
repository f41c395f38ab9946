/-
TokenAlignment/Proofs/Run/Classification.lean

What becomes of a document, and why.  The first line that applies decides:

    too long, not asked for, or no text          skipped
    no tokens, or no grammar                     failed
    no time                                      timed out
    a leaf or an identifier that is no span      failed
    none of these                                scored

Each line is a check of its own in the code, and the time is looked at in five places.  The
first of them comes before any work on the tree, so that the others never decide; and the
tokens of an encoder cover the document, so that checking them once more does not either.

Main result: `scoreDocument_classified`.
-/
import TokenAlignment.Proofs.Score.DocumentScore
import TokenAlignment.Proofs.Syntax.Identifiers
import TokenAlignment.Proofs.Tokenizer.Bytes
import TokenAlignment.Run.Runner

namespace TokenAlignment

/-! ### What keeps a document from its score -/

section

variable {α : Type} [Scalar α] {parser : Parser} {d : Document} {tokens : List Span}
  {splitter : IdentifierSplitter} {deadline : Deadline}

/-- A deadline that has not passed is none at all. -/
theorem scoreDocument_eq_unbounded (h : deadline ≠ .expired) :
    scoreDocument α parser d tokens splitter deadline
      = scoreDocument α parser d tokens splitter .unbounded := by
  cases deadline with
  | unbounded => rfl
  | pending => rfl
  | expired => exact absurd rfl h

theorem scoreDocument_unsupported (h : parser.supports d.language = false) :
    scoreDocument α parser d tokens splitter deadline
      = .error (.parse (.missingGrammar d.language)) := by
  rw [scoreDocument, Parser.identifierKinds, h]
  rfl

/-- The first to ask for the time is the parser, and it asks before any work. -/
theorem scoreDocument_expired (h : parser.supports d.language = true) :
    scoreDocument α parser d tokens splitter .expired = .error (.parse .timeout) := by
  rw [scoreDocument, identifierKinds_eq_ok h, Parser.parse, if_pos h]
  rfl

/-- **A range that counts and is no span ends the scoring.** -/
theorem scoreDocument_unspanned {tree : SyntaxTree} (hsupports : parser.supports d.language = true)
    (htree : parser.grammar d.language d.content = some tree)
    (h : ¬ tree.Spanned d.language.identifierKinds) :
    ∃ e, scoreDocument α parser d tokens splitter .unbounded = .error (.parse (.span e)) := by
  rw [scoreDocument, identifierKinds_eq_ok hsupports, parse_eq_ok hsupports htree]
  dsimp only [Except.mapError, bind, Except.bind]
  by_cases hidentifiers : ∀ t ∈ tree.ofKinds d.language.identifierKinds, t.HasSpan
  · -- the identifiers are found, and the leaves are to blame
    have hleaves : ∃ t ∈ tree.leaves, ¬ t.HasSpan := by
      rw [SyntaxTree.spanned_iff, not_and'] at h
      simpa using h hidentifiers
    obtain ⟨e, he⟩ := tree.tokens_eq_error d.size_le hleaves
    rw [tree.identifiers_eq_ok hidentifiers]
    dsimp only
    rw [show tree.tokens d.length .unbounded = _ from he]
    exact ⟨e, rfl⟩
  · obtain ⟨e, he⟩ := tree.identifiers_eq_error (by simpa using hidentifiers)
    rw [he]
    exact ⟨e, rfl⟩

/-- **All ranges that count are spans**, the tokens cover the document: there is a score. -/
theorem exists_scoreDocument_eq_ok {tree : SyntaxTree}
    (hsupports : parser.supports d.language = true)
    (htree : parser.grammar d.language d.content = some tree)
    (h : tree.Spanned d.language.identifierKinds) (hcover : Span.Chain 0 tokens d.length) :
    ∃ score, scoreDocument α parser d tokens splitter .unbounded = .ok score := by
  obtain ⟨hleaves, hidentifiers⟩ := SyntaxTree.spanned_iff.mp h
  exact ⟨_, scoreDocument_eq hsupports htree (tree.tokens_eq_ok d.size_le hleaves)
    (tree.identifiers_eq_ok hidentifiers) hcover⟩

end

/-! ### The outcome of a document -/

namespace Runner

variable {σ : Type} (α : Type) [Scalar α] (r : Runner σ) (d : Document) (memory : σ)

/-- Whether the document is passed over: it is too long, nobody asked for its language, or the
tokenizer finds no text in it. -/
def Skips : Prop :=
  r.config.maxDocumentBytes < d.length ∨ d.language ∉ r.config.languages ∨
    ∃ e, (r.context.tokenizer.tokenize d memory).1 = .error (.decode e)

/-- Whether there are no tokens to score, or no grammar to score them against. -/
def Lacks : Prop :=
  (∃ e, (r.context.tokenizer.tokenize d memory).1 = .error e) ∨
    d.language ∉ r.context.parser.languages

/-- Whether the time of a document is up from the start. -/
def IsLate : Prop :=
  Deadline.after r.config.timeoutMillis = .expired

theorem rejection?_eq_none_iff : r.rejection? d = none ↔
    ¬ (r.config.maxDocumentBytes < d.length ∨ d.language ∉ r.config.languages) := by
  rw [rejection?, EvalConfig.accepts]
  by_cases hlength : r.config.maxDocumentBytes < d.length
  · simp [hlength]
  · by_cases hlanguage : d.language ∈ r.config.languages <;> simp [hlength, hlanguage]

/-- An outcome, with what led to it. -/
inductive Classified (tree : SyntaxTree) : Outcome α → Prop
  | skipped (reason : String) : r.Skips d memory → Classified tree (.skipped reason)
  | lacking (reason : String) :
      ¬ r.Skips d memory → r.Lacks d memory → Classified tree (.failed reason)
  | timedOut : ¬ r.Skips d memory → ¬ r.Lacks d memory → r.IsLate → Classified tree .timedOut
  | unspanned (reason : String) : ¬ r.Skips d memory → ¬ r.Lacks d memory → ¬ r.IsLate →
      ¬ tree.Spanned d.language.identifierKinds → Classified tree (.failed reason)
  | scored (m : Metrics α) (tokens : List Span) :
      ¬ r.Skips d memory → ¬ r.Lacks d memory → ¬ r.IsLate →
      tree.Spanned d.language.identifierKinds →
      (r.context.tokenizer.tokenize d memory).1 = .ok tokens → m.OfCover d tokens →
      Classified tree (.scored m)

variable {α r d memory}

/-- The class of a document that has tokens. -/
theorem classified_of_tokens {tree : SyntaxTree} (hadapter : Adapter r.context.tokenizer)
    (htree : r.context.parser.grammar d.language d.content = some tree)
    (hskips : ¬ r.Skips d memory) {tokens : List Span}
    (htokens : (r.context.tokenizer.tokenize d memory).1 = .ok tokens) :
    r.Classified α d memory tree (outcomeOfScore α (TokenAlignment.scoreDocument α
      r.context.parser d tokens r.context.splitter
      (Deadline.after r.config.timeoutMillis))) := by
  rcases hsupports : r.context.parser.supports d.language with - | -
  · rw [scoreDocument_unsupported hsupports]
    refine .lacking _ hskips (.inr ?_)
    simpa [Parser.supports] using hsupports
  have hlacks : ¬ r.Lacks d memory := by
    rintro (⟨e, he⟩ | hlanguage)
    · rw [htokens] at he
      cases he
    · exact hlanguage (by simpa [Parser.supports] using hsupports)
  -- there is a grammar: now the time decides, and then the tree
  by_cases hlate : Deadline.after r.config.timeoutMillis = .expired
  · rw [hlate, scoreDocument_expired hsupports]
    exact .timedOut hskips hlacks hlate
  rw [scoreDocument_eq_unbounded hlate]
  by_cases hspanned : tree.Spanned d.language.identifierKinds
  · obtain ⟨score, hscore⟩ : ∃ score, TokenAlignment.scoreDocument α r.context.parser d tokens
        r.context.splitter .unbounded = .ok score :=
      exists_scoreDocument_eq_ok hsupports htree hspanned (hadapter.chain htokens)
    rw [hscore]
    exact .scored _ tokens hskips hlacks hlate hspanned htokens
      (ofCover_of_scoreDocument_eq_ok hscore)
  · obtain ⟨e, he⟩ : ∃ e, TokenAlignment.scoreDocument α r.context.parser d tokens
        r.context.splitter .unbounded = .error (.parse (.span e)) :=
      scoreDocument_unspanned hsupports htree hspanned
    rw [he]
    exact .unspanned _ hskips hlacks hlate hspanned

/-- **Every document has a class.** -/
theorem classified_scoreDocument {tree : SyntaxTree} (hadapter : Adapter r.context.tokenizer)
    (htree : r.context.parser.grammar d.language d.content = some tree) :
    r.Classified α d memory tree (r.scoreDocument α d memory).1 := by
  rw [scoreDocument]
  rcases hreason : r.rejection? d with - | reason
  · rw [rejection?_eq_none_iff] at hreason
    dsimp only
    rcases htokens : r.context.tokenizer.tokenize d memory with ⟨e | tokens, memory'⟩
    · have herror : (r.context.tokenizer.tokenize d memory).1 = .error e := by rw [htokens]
      -- of all errors of the tokenizer only this one skips the document
      by_cases hdecode : ∃ e', e = .decode e'
      · obtain ⟨e', rfl⟩ := hdecode
        exact .skipped _ (.inr (.inr ⟨e', herror⟩))
      · have hskips : ¬ r.Skips d memory := by
          rintro (hlength | hlanguage | ⟨e', he'⟩)
          · exact hreason (.inl hlength)
          · exact hreason (.inr hlanguage)
          · exact hdecode ⟨e', Except.error.inj (herror.symm.trans he')⟩
        cases e with
        | decode e' => exact absurd ⟨e', rfl⟩ hdecode
        | violation v | span e' | backend name reason =>
            exact .lacking _ hskips (.inl ⟨_, herror⟩)
    · have hok : (r.context.tokenizer.tokenize d memory).1 = .ok tokens := by rw [htokens]
      refine classified_of_tokens hadapter htree ?_ hok
      rintro (hlength | hlanguage | ⟨e, he⟩)
      · exact hreason (.inl hlength)
      · exact hreason (.inr hlanguage)
      · rw [hok] at he
        cases he
  · refine .skipped reason ?_
    by_contra hskips
    rw [Skips, not_or, not_or] at hskips
    have hnone : r.rejection? d = none :=
      (rejection?_eq_none_iff r d).mpr (not_or.mpr ⟨hskips.1, hskips.2.1⟩)
    rw [hreason] at hnone
    cases hnone

/-- **The outcome of a document is decided by the first thing that stands in its way.**  For
every tokenizer made of an encoder, every set of grammars, every tree and every time budget:
a document is skipped exactly if it is too long, in a language that was not asked for, or no
text for the tokenizer; else it fails exactly if the tokenizer fails otherwise or there is no
grammar, or, when its time is not up, if a leaf or an identifier of the tree has a range that
is no span; it times out exactly if none of the first reasons holds and its time is up; and
it is scored in all other cases, with its length and the number of its tokens as totals. -/
theorem scoreDocument_classified {tree : SyntaxTree} (hadapter : Adapter r.context.tokenizer)
    (htree : r.context.parser.grammar d.language d.content = some tree) :
    let outcome := (r.scoreDocument α d memory).1
    let spanned := tree.Spanned d.language.identifierKinds
    (outcome.isSkipped = true ↔ r.Skips d memory) ∧
    (outcome.isFailed = true ↔
      ¬ r.Skips d memory ∧ (r.Lacks d memory ∨ ¬ r.IsLate ∧ ¬ spanned)) ∧
    (outcome.isTimedOut = true ↔ ¬ r.Skips d memory ∧ ¬ r.Lacks d memory ∧ r.IsLate) ∧
    (outcome.isScored = true ↔
      ¬ r.Skips d memory ∧ ¬ r.Lacks d memory ∧ ¬ r.IsLate ∧ spanned) ∧
    ∀ m, outcome = .scored m → ∃ tokens, (r.context.tokenizer.tokenize d memory).1 = .ok tokens ∧
      m.totalBytes.toNat = d.length ∧ m.totalTokens = UInt64.ofNat tokens.length := by
  intro outcome spanned
  have hclass : r.Classified α d memory tree outcome := classified_scoreDocument hadapter htree
  generalize outcome = result at hclass ⊢
  -- each class denies the reasons of the classes before it, so no two reasons hold
  cases hclass with
  | skipped reason hskips => simp [hskips, Outcome.isSkipped, Outcome.isFailed,
      Outcome.isTimedOut, Outcome.isScored]
  | lacking reason hskips hlacks => simp [hskips, hlacks, Outcome.isSkipped, Outcome.isFailed,
      Outcome.isTimedOut, Outcome.isScored]
  | timedOut hskips hlacks hlate => simp [hskips, hlacks, hlate, Outcome.isSkipped,
      Outcome.isFailed, Outcome.isTimedOut, Outcome.isScored]
  | unspanned reason hskips hlacks hlate hspanned => simp [hskips, hlacks, hlate, hspanned,
      spanned, Outcome.isSkipped, Outcome.isFailed, Outcome.isTimedOut, Outcome.isScored]
  | scored m tokens hskips hlacks hlate hspanned htokens hcover =>
      have hbytes : m.totalBytes.toNat = d.length := by
        rw [hcover.bytes_eq]
        exact UInt64.toNat_ofNat_of_lt' (Nat.lt_of_le_of_lt d.size_le (by decide))
      simp [hskips, hlacks, hlate, hspanned, spanned, htokens, hbytes, hcover.tokens_eq,
        Outcome.isSkipped, Outcome.isFailed, Outcome.isTimedOut, Outcome.isScored]

/-- A tree in which a node with children ends before it starts. -/
def crossedTree : SyntaxTree :=
  .node "module" 0 3 [.node "identifier" 0 1 [], .node "pair" 3 1 [.node "identifier" 2 3 []]]

/-- A runner with one token for each byte, and a grammar for one of two languages. -/
def crossed (timeoutMillis : Nat) : Runner Unit where
  context :=
    { parser := ⟨[.python], fun _ _ => some crossedTree⟩
      tokenizer := (byteEncoder Unit).tokenizer
      splitter := fun word => [word] }
  config := { EvalConfig.standard with timeoutMillis, maxDocumentBytes := 3 }

/-- The text `x-y` in one of the languages. -/
def crossedText (lang : Language) : Document := ⟨lang, #[0x78, 0x2d, 0x79], by decide⟩

theorem spanned_crossedTree : crossedTree.Spanned Language.python.identifierKinds := by
  rw [SyntaxTree.spanned_iff]
  decide +kernel

theorem tokenize_crossed (timeoutMillis : Nat) (lang : Language) :
    ((crossed timeoutMillis).context.tokenizer.tokenize (crossedText lang) ()).1
      = .ok (Span.singles 3) :=
  tokenize_byteEncoder.mpr ⟨⟨['x', '-', 'y'], rfl⟩, rfl⟩

theorem not_skips_crossed (timeoutMillis : Nat) (lang : Language) :
    ¬ (crossed timeoutMillis).Skips (crossedText lang) () := by
  rintro (hlength | hlanguage | ⟨e, he⟩)
  · exact Nat.lt_irrefl 3 hlength
  · exact hlanguage lang.mem_all
  · rw [tokenize_crossed] at he
    cases he

theorem not_lacks_crossed (timeoutMillis : Nat) :
    ¬ (crossed timeoutMillis).Lacks (crossedText .python) () := by
  rintro (⟨e, he⟩ | hlanguage)
  · rw [tokenize_crossed] at he
    cases he
  · exact hlanguage (List.mem_singleton_self _)

theorem scoreDocument_classified_crossed :
    let outcome (timeoutMillis : Nat) (lang : Language) : Outcome ℚ :=
      ((crossed timeoutMillis).scoreDocument ℚ (crossedText lang) ()).1
    (outcome 1 .python).isScored = true ∧ (outcome 0 .python).isTimedOut = true ∧
      (outcome 0 .go).isFailed = true := by
  intro outcome
  have hclass (timeoutMillis : Nat) (lang : Language) :=
    @scoreDocument_classified Unit ℚ _ (crossed timeoutMillis) (crossedText lang) () crossedTree
      (.bytes (byteEncoder Unit)) rfl
  refine ⟨?_, ?_, ?_⟩
  · have htime : ¬ (crossed 1).IsLate := by
      unfold IsLate
      decide
    exact (hclass 1 .python).2.2.2.1.mpr
      ⟨not_skips_crossed 1 .python, not_lacks_crossed 1, htime, spanned_crossedTree⟩
  · exact (hclass 0 .python).2.2.1.mpr ⟨not_skips_crossed 0 .python, not_lacks_crossed 0, rfl⟩
  · -- without a grammar nobody asks for the time
    have hlacks : (crossed 0).Lacks (crossedText .go) () := by
      refine .inr ?_
      show Language.go ∉ [Language.python]
      decide
    exact (hclass 0 .go).2.1.mpr ⟨not_skips_crossed 0 .go, .inl hlacks⟩

end Runner

end TokenAlignment
