/-
TokenAlignment/Proofs/Tokenizer/Contract.lean

The cover contract, and the two kinds of encoders that keep it.

    checkCover tokens n = ok   iff   the tokens are a chain from 0 to n

An encoder may report anything: ids without bytes, more or fewer bytes than the document
has, ranges in any order.  What it reports either makes a chain or is refused, so whoever
gets tokens from it need not fear that a later check of the contract fails.

Main result: `Adapter.keeps_contract`.
-/
import TokenAlignment.Proofs.Document
import TokenAlignment.Proofs.Tokenizer.ByteLevel
import TokenAlignment.Proofs.Tokenizer.CharOffsets
import TokenAlignment.Score.DocumentScore

namespace TokenAlignment

/-! ### The check -/

theorem checkCoverFrom_eq_ok_iff {tokens : List Span} {length index expected : Nat} :
    checkCoverFrom length index expected tokens = .ok ()
      ↔ Span.Chain expected tokens length := by
  induction tokens generalizing index expected with
  | nil => simp [checkCoverFrom, Span.Chain]
  | cons token tokens ih =>
      rw [checkCoverFrom, Span.Chain]
      split
      · rename_i hstart
        rw [ih, and_iff_right hstart]
      · rename_i hstart
        simp [hstart]

/-- **The check accepts the chains over the whole document**, and nothing else. -/
theorem checkCover_eq_ok_iff {tokens : List Span} {length : Nat} :
    checkCover tokens length = .ok () ↔ Span.Chain 0 tokens length :=
  checkCoverFrom_eq_ok_iff

/-- Scoring tokens that cover the document fails for no reason but time. -/
theorem scoreTokens_ne_error_tokenizer {α : Type} [Scalar α] {d : Document}
    {tokens : List Span} (h : checkCover tokens d.length = .ok ())
    (syntaxTokens identifiers : List SyntaxToken) (splitter : IdentifierSplitter)
    (deadline : Deadline) (e : TokenizerError) :
    scoreTokens α d syntaxTokens identifiers tokens splitter deadline
      ≠ .error (.tokenizer e) := by
  rw [scoreTokens, h]
  rcases tokenSpanScore α syntaxTokens tokens deadline with timeout | span
  · intro herror
    cases herror
  rcases scoreIdentifiers α d identifiers tokens splitter deadline with timeout | ids
  · intro herror
    cases herror
  · intro herror
    cases herror

/-! ### What is scored -/

theorem exists_of_bind_eq_ok {ε β γ : Type} {x : Except ε β} {f : β → Except ε γ} {c : γ}
    (h : x >>= f = .ok c) : ∃ b, x = .ok b ∧ f b = .ok c := by
  cases x with
  | error e => cases h
  | ok b => exact ⟨b, rfl, h⟩

theorem eq_ok_of_mapError_eq_ok {ε δ β : Type} {x : Except ε β} {f : ε → δ} {b : β}
    (h : x.mapError f = .ok b) : x = .ok b := by
  cases x with
  | error e => cases h
  | ok b' =>
      cases h
      rfl

/-- The tokens cover the document, and the metrics count its bytes and them. -/
structure Metrics.OfCover {α : Type} (m : Metrics α) (d : Document) (tokens : List Span) :
    Prop where
  chain : Span.Chain 0 tokens d.length
  tokens_eq : m.totalTokens = UInt64.ofNat tokens.length
  bytes_eq : m.totalBytes = UInt64.ofNat d.length

theorem ofCover_of_scoreTokens_eq_ok {α : Type} [Scalar α] {d : Document} {tokens : List Span}
    {syntaxTokens identifiers : List SyntaxToken} {splitter : IdentifierSplitter}
    {deadline : Deadline} {score : DocumentScore α}
    (h : scoreTokens α d syntaxTokens identifiers tokens splitter deadline = .ok score) :
    score.metrics.OfCover d tokens := by
  rw [scoreTokens] at h
  obtain ⟨⟨⟩, hcover, h⟩ := exists_of_bind_eq_ok h
  obtain ⟨span, -, h⟩ := exists_of_bind_eq_ok h
  obtain ⟨ids, -, h⟩ := exists_of_bind_eq_ok h
  cases h
  exact ⟨checkCover_eq_ok_iff.mp (eq_ok_of_mapError_eq_ok hcover), rfl, rfl⟩

/-- **A score is one of a cover**, whatever the parser found. -/
theorem ofCover_of_scoreDocument_eq_ok {α : Type} [Scalar α] {parser : Parser} {d : Document}
    {tokens : List Span} {splitter : IdentifierSplitter} {deadline : Deadline}
    {score : DocumentScore α}
    (h : scoreDocument α parser d tokens splitter deadline = .ok score) :
    score.metrics.OfCover d tokens := by
  rw [scoreDocument] at h
  obtain ⟨kinds, -, h⟩ := exists_of_bind_eq_ok h
  obtain ⟨tree, -, h⟩ := exists_of_bind_eq_ok h
  obtain ⟨identifiers, -, h⟩ := exists_of_bind_eq_ok h
  obtain ⟨syntaxTokens, -, h⟩ := exists_of_bind_eq_ok h
  exact ofCover_of_scoreTokens_eq_ok h

/-! ### The encoders -/

/-- **When an encoder with ids gives tokens, and which.** -/
theorem ByteEncoder.tokenize_eq_ok_iff {σ : Type} {e : ByteEncoder σ} {d : Document}
    {memory : σ} {tokens : List Span} :
    (e.tokenize d memory).1 = .ok tokens
      ↔ ∃ text ids blocks, Utf8.encode text = d.content.toList ∧
        (e.encode text memory).1 = .ok ids ∧
        List.Forall₂ (fun id block => e.tokenBytes (e.encode text memory).2 id = some block)
          ids blocks ∧
        (blocks.map List.length).sum = d.length ∧
        tokens = Span.layout 0 (blocks.map List.length) := by
  rw [tokenize]
  rcases d.fullText_cases with ⟨error, htext, hnone⟩ | ⟨text, htext, hunique⟩
  · rw [htext]
    constructor
    · intro htokens
      cases htokens
    · rintro ⟨text, ids, blocks, hspells, -⟩
      exact absurd hspells (hnone text)
  rw [htext]
  simp only [hunique, exists_and_left, exists_eq_left']
  rcases e.encode text memory with ⟨error | ids, memory'⟩
  · simp
  · simp only [Except.ok.injEq, exists_eq_left']
    exact spans_eq_ok_iff d.size_le

/-- **When an encoder with ranges gives tokens, and which.** -/
theorem OffsetEncoder.spans_eq_ok_iff {e : OffsetEncoder} {d : Document}
    {tokens : List Span} :
    e.spans d = .ok tokens
      ↔ ∃ text encoding, Utf8.encode text = d.content.toList ∧
        e.encode text = .ok encoding ∧
        encoding.offsets.length = encoding.tokenCount ∧
        (∀ range ∈ encoding.offsets, CharOffsets.InText text range) ∧
        (encoding.offsets.map Prod.snd).max?.getD 0 = text.length ∧
        tokens = CharOffsets.spansFrom text 0 encoding.offsets := by
  rw [spans]
  rcases d.fullText_cases with ⟨error, htext, hnone⟩ | ⟨text, htext, hunique⟩
  · rw [htext]
    constructor
    · intro htokens
      cases htokens
    · rintro ⟨text, encoding, hspells, -⟩
      exact absurd hspells (hnone text)
  have hfits : (Utf8.encode text).length ≤ maxOffset := by
    rw [(hunique text).mpr rfl, Array.length_toList]
    exact d.size_le
  rw [htext]
  simp only [hunique, exists_and_left, exists_eq_left']
  rcases e.encode text with error | encoding
  · simp
  · simp only [Except.ok.injEq, exists_eq_left', ← CharOffsets.furthest_zero]
    split
    · rename_i hcount
      rw [and_iff_right hcount]
      exact CharOffsets.spans_eq_ok_iff hfits
    · rename_i hcount
      simp [hcount]

/-! ### The contract -/

/-- A tokenizer made of an encoder. -/
inductive Adapter {σ : Type} : Tokenizer σ → Prop
  | bytes (e : ByteEncoder σ) : Adapter e.tokenizer
  | offsets (e : OffsetEncoder) : Adapter (e.tokenizer σ)

/-- The tokens of an encoder are a chain over the document. -/
theorem Adapter.chain {σ : Type} {t : Tokenizer σ} (ht : Adapter t) {d : Document}
    {memory : σ} {tokens : List Span} (h : (t.tokenize d memory).1 = .ok tokens) :
    Span.Chain 0 tokens d.length := by
  cases ht with
  | bytes e =>
      obtain ⟨text, ids, blocks, -, -, -, hsum, rfl⟩ := ByteEncoder.tokenize_eq_ok_iff.mp h
      rw [← hsum, ← Nat.zero_add (List.sum _)]
      exact Span.chain_layout 0 _
  | offsets e =>
      obtain ⟨text, encoding, hspells, -, -, -, hreach, rfl⟩ :=
        OffsetEncoder.spans_eq_ok_iff.mp h
      have hlength : d.length = (Utf8.encode text).length := by
        rw [hspells, Array.length_toList]
        rfl
      rw [hlength, ← CharOffsets.byteAt_length, ← hreach, ← CharOffsets.furthest_zero]
      exact CharOffsets.chain_spansFrom text 0 encoding.offsets

/-- **Encoders keep the cover contract.**  An encoder with ids gives tokens iff the document
is a text that it encodes into ids that stand for as many bytes; token `i` is as wide as the
bytes of id `i`.  An encoder with ranges gives tokens iff it reports one range in the text
for each of its tokens and the largest end is that of the text; tokens end where the
furthest range so far does.  Either way the tokens pass the check of the cover, and scoring
them never fails because of them. -/
theorem Adapter.keeps_contract :
    (∀ {σ : Type} (e : ByteEncoder σ) (d : Document) (memory : σ) (tokens : List Span),
      (e.tokenizer.tokenize d memory).1 = .ok tokens
        ↔ ∃ text ids blocks, Utf8.encode text = d.content.toList ∧
          (e.encode text memory).1 = .ok ids ∧
          List.Forall₂ (fun id block => e.tokenBytes (e.encode text memory).2 id = some block)
            ids blocks ∧
          (blocks.map List.length).sum = d.length ∧
          tokens = Span.layout 0 (blocks.map List.length)) ∧
    (∀ {σ : Type} (e : OffsetEncoder) (d : Document) (memory : σ) (tokens : List Span),
      ((e.tokenizer σ).tokenize d memory).1 = .ok tokens
        ↔ ∃ text encoding, Utf8.encode text = d.content.toList ∧
          e.encode text = .ok encoding ∧
          encoding.offsets.length = encoding.tokenCount ∧
          (∀ range ∈ encoding.offsets, range.1 ≤ text.length ∧ range.2 ≤ text.length) ∧
          (encoding.offsets.map Prod.snd).max?.getD 0 = text.length ∧
          tokens = CharOffsets.spansFrom text 0 encoding.offsets) ∧
    ∀ {σ : Type} (t : Tokenizer σ), Adapter t → ∀ (d : Document) (memory : σ)
      (tokens : List Span), (t.tokenize d memory).1 = .ok tokens →
        checkCover tokens d.length = .ok () ∧
        ∀ {α : Type} [Scalar α] (syntaxTokens identifiers : List SyntaxToken)
          (splitter : IdentifierSplitter) (deadline : Deadline) (e : TokenizerError),
          scoreTokens α d syntaxTokens identifiers tokens splitter deadline
            ≠ .error (.tokenizer e) := by
  refine ⟨?_, ?_, ?_⟩
  · intro σ e d memory tokens
    exact ByteEncoder.tokenize_eq_ok_iff
  · intro σ e d memory tokens
    exact OffsetEncoder.spans_eq_ok_iff
  · intro σ t ht d memory tokens htokens
    have hcover : checkCover tokens d.length = .ok () :=
      checkCover_eq_ok_iff.mpr (ht.chain htokens)
    refine ⟨hcover, ?_⟩
    intro α _ syntaxTokens identifiers splitter deadline e
    exact scoreTokens_ne_error_tokenizer hcover syntaxTokens identifiers splitter deadline e

/-- An encoder that reports three ranges for any text: an empty one, the first character,
and one that goes back to the start. -/
def backAndForth : OffsetEncoder :=
  ⟨"back and forth", fun _ => .ok ⟨3, [(0, 0), (0, 1), (1, 0)]⟩, []⟩

/-- The text `é`. -/
def accented : Document := ⟨.python, #[0xC3, 0xA9], by decide⟩

theorem Adapter.keeps_contract_backAndForth :
    ((backAndForth.tokenizer Unit).tokenize accented ()).1
      = .ok [⟨0, 0, by decide⟩, ⟨0, 2, by decide⟩, ⟨2, 2, by decide⟩] ∧
    checkCover [⟨0, 0, by decide⟩, ⟨0, 2, by decide⟩, ⟨2, 2, by decide⟩] 2 = .ok () := by
  have htokens := (Adapter.keeps_contract.2.1 backAndForth accented () _).mpr
    ⟨['é'], ⟨3, [(0, 0), (0, 1), (1, 0)]⟩, by decide, rfl, rfl, by decide, by decide, rfl⟩
  have hcover := Adapter.keeps_contract.2.2 _ (.offsets backAndForth) accented () _ htokens
  exact ⟨htokens, hcover.1⟩

end TokenAlignment
