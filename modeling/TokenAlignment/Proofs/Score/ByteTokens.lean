/-
TokenAlignment/Proofs/Score/ByteTokens.lean

Scores of one token for each byte.

    syntax tokens cover the text   →   each byte overlaps exactly one of them
    identifier of n bytes          →   n tokens end in it

The first line also holds with empty syntax tokens around: there is no offset strictly
inside a byte where one of them could lie.  So a text has one byte, and one syntax token,
for each token, and only the fertility of its identifiers tells it from another
(`bytewise_documentScore`, `identifierFertility_singles`).
-/
import TokenAlignment.Proofs.Score.Aggregation
import TokenAlignment.Proofs.Score.DocumentScore
import TokenAlignment.Proofs.Score.Similarity
import TokenAlignment.Proofs.Score.SpanOverlap
import TokenAlignment.Proofs.Tokenizer.Bytes

namespace TokenAlignment

/-! ### Syntax tokens -/

namespace SpanOverlap

variable {syntaxTokens : List SyntaxToken} {n : Nat}

/-- **A byte overlaps one syntax token**, the one that holds it. -/
theorem overlapping_single (h : Span.Chain 0 (syntaxTokens.map (·.span)) n) {i : Nat}
    (hi : i < n) : overlapping syntaxTokens (Span.single i) = 1 := by
  obtain ⟨s, hs⟩ := h.filter_holds (Nat.zero_le i) hi
  have hholds : (syntaxTokens.filter fun t => (Span.single i).overlaps t.span)
      = syntaxTokens.filter ((Span.holds · i) ∘ (·.span)) := by
    refine List.filter_congr fun t _ => ?_
    have hstart : (Span.single i).start = i := rfl
    have hstop : (Span.single i).stop = i + 1 := rfl
    rw [Bool.eq_iff_iff, Function.comp_apply, Span.holds_iff]
    simp only [Span.overlaps, Bool.and_eq_true, decide_eq_true_eq]
    omega
  rw [overlapping, hholds, ← List.length_map (·.span), ← List.filter_map, hs,
    List.length_singleton]

theorem count_singles (h : Span.Chain 0 (syntaxTokens.map (·.span)) n) :
    count syntaxTokens (Span.singles n) = n := by
  have hones : (Span.singles n).map (overlapping syntaxTokens) = List.replicate n 1 := by
    rw [Span.singles, List.map_map, List.eq_replicate_iff, List.length_map, List.length_range,
      List.forall_mem_map]
    exact ⟨rfl, fun i hi => overlapping_single h (List.mem_range.mp hi)⟩
  rw [count_eq_sum h.ascending (Span.chain_singles n).ascending, hones, List.sum_replicate_nat,
    Nat.mul_one]

end SpanOverlap

/-! ### Identifiers -/

section Identifiers

variable (d : Document) (syntaxTokens identifiers : List SyntaxToken)
  (splitter : IdentifierSplitter)

/-- As many tokens end in an identifier as it has bytes. -/
theorem length_raw_singles : ∀ s ∈ identifierSplits d identifiers (Span.singles d.length) splitter,
    s.raw.length = s.identifier.span.length := by
  intro s hs
  obtain ⟨identifier, text, htext, rfl⟩ := IdentifierSplits.exists_of_mem_filterMap_of? hs
  show ((IdentifierSplits.endingIn (Span.singles d.length).toArray identifier.span).map
    d.visibleText).length = identifier.span.length
  rw [List.length_map, IdentifierSplits.endingIn_eq (Span.chain_singles d.length)]
  exact Span.length_filter_singles (Document.start_add_length htext).2

theorem map_length_raw_singles :
    (identifierSplits d identifiers (Span.singles d.length) splitter).map (fun s => s.raw.length)
      = (identifiers.filter fun t => d.IsText t.span).map (·.span.length) := by
  rw [← IdentifierSplits.map_identifier_filterMap_of? (Span.singles d.length).toArray splitter,
    List.map_map]
  exact List.map_congr_left (length_raw_singles d identifiers splitter)

/-- The mean number of bytes of some tokens, zero without any. -/
def meanLength (tokens : List SyntaxToken) : ℚ :=
  ((tokens.map (·.span.length)).sum : ℕ) / (tokens.length : ℚ)

/-- **The fertility of bytes** is the mean number of bytes of the identifiers that are
text. -/
theorem identifierFertility_singles :
    (documentScore ℚ d syntaxTokens identifiers (Span.singles d.length)
        splitter).metrics.identifierFertility
      = meanLength (identifiers.filter fun t => d.IsText t.span) := by
  show Scalar.ratio ℚ (((identifierSplits d identifiers (Span.singles d.length) splitter).map
    fun s => s.raw.length).foldl (· + ·) 0)
      (identifierSplits d identifiers (Span.singles d.length) splitter).length = _
  rw [← List.length_map fun s : IdentifierSplits => s.raw.length, map_length_raw_singles,
    List.length_map, ← List.sum_eq_foldl, ratio_rat, meanLength]

end Identifiers

/-! ### Metrics -/

namespace Metrics

/-- The tokens are bytes, and each is one syntax token. -/
structure Bytewise (m : Metrics ℚ) : Prop where
  tokens : m.totalTokens = m.totalBytes
  compression : m.totalBytes ≠ 0 → m.compression = 1
  tokenSpan : m.totalBytes ≠ 0 → m.tokenSpan = 1

end Metrics

/-- **One token for each byte gives one byte, and one syntax token, for each token.** -/
theorem bytewise_documentScore {d : Document} {syntaxTokens : List SyntaxToken}
    (h : Span.Chain 0 (syntaxTokens.map (·.span)) d.length) (identifiers : List SyntaxToken)
    (splitter : IdentifierSplitter) :
    (documentScore ℚ d syntaxTokens identifiers (Span.singles d.length)
      splitter).metrics.Bytewise := by
  have hone (hbytes : UInt64.ofNat d.length ≠ 0) : Scalar.ratio ℚ d.length d.length = 1 := by
    have hlength : d.length ≠ 0 := fun hzero => hbytes (by rw [hzero]; rfl)
    rw [ratio_rat, div_self (Nat.cast_ne_zero.mpr hlength)]
  refine ⟨?_, fun hbytes => ?_, fun hbytes => ?_⟩
  · show UInt64.ofNat (Span.singles d.length).length = UInt64.ofNat d.length
    rw [Span.length_singles]
  · show Scalar.ratio ℚ d.length (Span.singles d.length).length = 1
    rw [Span.length_singles, hone hbytes]
  · show Scalar.ratio ℚ (SpanOverlap.count syntaxTokens (Span.singles d.length))
      (Span.singles d.length).length = 1
    rw [SpanOverlap.count_singles h, Span.length_singles, hone hbytes]

end TokenAlignment
