/-
TokenAlignment/Proofs/Score/Clipped.lean

What the clipped splits of an identifier are made of.

Each token of a cover holds some characters of the identifier as a whole.  The clipped
split is what the tokens hold, in order, without underscores and without the tokens that
hold nothing else (`clipped_eq`).  A character lies in at most one token, so

    the pieces, put together  =  the characters that one token holds, without `_`

and that is the whole identifier without `_` unless a token ends inside a character.

Main result: `scoreIdentifiers_clipped`.
-/
import TokenAlignment.Proofs.Document
import TokenAlignment.Proofs.Score.Partition
import TokenAlignment.Proofs.Tokenizer.Contract
import Mathlib.Data.Rat.Init

namespace TokenAlignment

namespace IdentifierSplits

variable {d : Document} {tokens : List Span} {span : Span} {text : List Char} {a b : Nat}

/-! ### The tokens of a span -/

/-- The two searches select the tokens that stop behind the start of the span and start
before its stop. -/
theorem touching_eq (h : Span.Chain a tokens b) :
    touching tokens.toArray span
      = tokens.filter fun t => t.start < span.stop && !(t.stop ≤ span.start : Bool) :=
  extract_partitionPoint (h.ascending.stop_le span.start) (h.ascending.start_lt span.stop)

/-- The two searches select the tokens that stop behind the start of the span and not
behind its stop. -/
theorem endingIn_eq (h : Span.Chain a tokens b) :
    endingIn tokens.toArray span
      = tokens.filter fun t => t.stop ≤ span.stop && !(t.stop ≤ span.start : Bool) :=
  extract_partitionPoint (h.ascending.stop_le span.start) (h.ascending.stop_le span.stop)

/-- The tokens left out share no byte with the span. -/
theorem filterMap_touching (h : Span.Chain a tokens b) :
    (touching tokens.toArray span).filterMap (·.intersect? span)
      = tokens.filterMap (·.intersect? span) := by
  rw [touching_eq h, List.filterMap_filter]
  apply List.filterMap_congr
  intro t _
  split
  · rfl
  · rename_i hapart
    simp only [Bool.and_eq_true, decide_eq_true_eq, Bool.not_eq_true', decide_eq_false_iff_not]
      at hapart
    exact (Span.intersect?_eq_none_iff.mpr (by omega)).symm

/-! ### What a token holds -/

/-- The characters of a text at `offset` that a span contains, without underscores. -/
def held (offset : Nat) (text : List Char) (t : Span) : List Char :=
  withoutUnderscores (((Utf8.located offset text).filter fun x => t.contains x.2).map Prod.fst)

theorem span_contains_of_mem_located (htext : d.bytes span = .ok (Utf8.encode text))
    {x : Char × Span} (hx : x ∈ Utf8.located span.start text) : span.contains x.2 = true := by
  have hlength := Document.start_add_length htext
  have hbounds := Utf8.mem_located_bounds hx
  rw [Span.contains_iff]
  omega

/-- A token without a byte of the span holds nothing of it. -/
theorem held_of_intersect?_eq_none (htext : d.bytes span = .ok (Utf8.encode text)) {t : Span}
    (h : t.intersect? span = none) : held span.start text t = [] := by
  have hnone : (Utf8.located span.start text).filter (fun x => t.contains x.2) = [] := by
    rw [List.filter_eq_nil_iff]
    intro x hx hin
    -- the bytes of a character in the token would be shared with the span
    have hpos := Utf8.start_lt_stop_of_mem_located hx
    have hspan := span_contains_of_mem_located htext hx
    rw [Span.contains_iff] at hin hspan
    exact Span.intersect?_eq_none_iff.mp h (by omega)
  rw [held, hnone]
  rfl

/-- A token holds what is seen of its bytes in the span. -/
theorem held_of_intersect?_eq_some (htext : d.bytes span = .ok (Utf8.encode text))
    {t cut : Span} (h : t.intersect? span = some cut) :
    withoutUnderscores (d.visibleText cut) = held span.start text t := by
  have hcut := Span.intersect?_eq_some_iff.mp h
  have hinside : span.contains cut = true := by
    have := cut.start_le_stop
    rw [Span.contains_iff]
    omega
  -- all characters of the text lie in the span, so the token contains those of its cut
  have hsame : (Utf8.located span.start text).filter (fun x => cut.contains x.2)
      = (Utf8.located span.start text).filter (fun x => t.contains x.2) := by
    apply List.filter_congr
    intro x hx
    have hspan := span_contains_of_mem_located htext hx
    rw [Span.contains_iff] at hspan
    rw [Bool.eq_iff_iff, Span.contains_iff, Span.contains_iff]
    omega
  rw [held, Document.visibleText_cut htext hinside, hsame]

/-- **The clipped split is what the tokens hold**, without those that hold nothing. -/
theorem clipped_eq (h : Span.Chain a tokens b) {identifier : SyntaxToken}
    (htext : d.bytes identifier.span = .ok (Utf8.encode text)) (splitter : IdentifierSplitter) :
    (ofIdentifier d tokens.toArray splitter identifier text).clipped
      = (tokens.map (held identifier.span.start text)).filter (!·.isEmpty) := by
  show (((touching tokens.toArray identifier.span).filterMap
    (·.intersect? identifier.span)).map fun cut =>
      withoutUnderscores (d.visibleText cut)).filter (!·.isEmpty) = _
  rw [filterMap_touching h]
  -- from here on each token stands for itself, in a chain or not
  clear h
  induction tokens with
  | nil => rfl
  | cons t tokens ih =>
      rw [List.filterMap_cons]
      rcases hcut : t.intersect? identifier.span with - | cut
      · rw [List.map_cons, held_of_intersect?_eq_none htext hcut,
          List.filter_cons_of_neg (by simp)]
        exact ih
      · rw [List.map_cons, List.map_cons, held_of_intersect?_eq_some htext hcut,
          List.filter_cons, List.filter_cons, ih]

/-! ### The pieces put together -/

/-- All that the tokens of a chain hold is what one of them contains. -/
theorem flatMap_held (h : Span.Chain a tokens b) (offset : Nat) (text : List Char) :
    tokens.flatMap (held offset text)
      = ((Utf8.located offset text).filter fun x =>
          x.1 ≠ '_' ∧ ∃ t ∈ tokens, t.contains x.2 = true).map Prod.fst := by
  have hdealt := h.flatMap_filter (fun x hx => Utf8.start_lt_stop_of_mem_located hx)
    (Utf8.pairwise_located offset text)
  have hheld : tokens.flatMap (held offset text)
      = withoutUnderscores ((tokens.flatMap fun t =>
          (Utf8.located offset text).filter fun x => t.contains x.2).map Prod.fst) := by
    rw [withoutUnderscores, List.map_flatMap, List.filter_flatMap]
    rfl
  rw [hheld, hdealt, withoutUnderscores, List.filter_map, List.filter_filter]
  apply congrArg (List.map Prod.fst)
  apply List.filter_congr
  intro x _
  rw [Bool.eq_iff_iff]
  simp

/-- Nothing is missing if no token ends inside a character. -/
theorem filter_located_of_uncut (h : Span.Chain 0 tokens d.length)
    (htext : d.bytes span = .ok (Utf8.encode text))
    (huncut : ∀ x ∈ Utf8.located span.start text, Span.Uncut tokens x.2) :
    ((Utf8.located span.start text).filter fun x =>
        x.1 ≠ '_' ∧ ∃ t ∈ tokens, t.contains x.2 = true).map Prod.fst
      = withoutUnderscores text := by
  have hstop := (Document.bytes_eq_ok_iff.mp htext).1
  have hall : (Utf8.located span.start text).filter (fun x =>
        x.1 ≠ '_' ∧ ∃ t ∈ tokens, t.contains x.2 = true)
      = (Utf8.located span.start text).filter ((fun c => c ≠ '_') ∘ Prod.fst) := by
    apply List.filter_congr
    intro x hx
    have hspan := (Span.contains_iff ..).mp (span_contains_of_mem_located htext hx)
    have hone := h.exists_contains (Utf8.start_lt_stop_of_mem_located hx) (Nat.zero_le _)
      (Nat.le_trans hspan.2 hstop) (huncut x hx)
    rw [Bool.eq_iff_iff, Function.comp_apply, decide_eq_true_eq, decide_eq_true_eq,
      and_iff_left hone]
  rw [hall, ← List.filter_map, Utf8.map_fst_located]
  rfl

/-! ### The records of a document -/

theorem of?_eq_some_iff {tokens : Array Span} {splitter : IdentifierSplitter}
    {identifier : SyntaxToken} {splits : IdentifierSplits} :
    of? d tokens splitter identifier = some splits
      ↔ ∃ text, d.bytes identifier.span = .ok (Utf8.encode text) ∧
        splits = ofIdentifier d tokens splitter identifier text := by
  rw [of?]
  rcases htext : d.text identifier.span with e | text
  · refine iff_of_false (fun hnone => nomatch hnone) ?_
    rintro ⟨text, hspells, -⟩
    rw [← Document.text_eq_ok_iff, htext] at hspells
    cases hspells
  · simp only [← Document.text_eq_ok_iff, htext, Except.ok.injEq, exists_eq_left',
      Option.some.injEq, eq_comm]

/-- A record is that of an identifier with a text. -/
theorem exists_of_mem_filterMap_of? {tokens : Array Span} {splitter : IdentifierSplitter}
    {identifiers : List SyntaxToken} {s : IdentifierSplits}
    (h : s ∈ identifiers.filterMap (of? d tokens splitter)) : ∃ identifier text,
      d.bytes identifier.span = .ok (Utf8.encode text) ∧
        s = ofIdentifier d tokens splitter identifier text := by
  obtain ⟨identifier, -, hone⟩ := List.mem_filterMap.mp h
  exact ⟨identifier, of?_eq_some_iff.mp hone⟩

/-- There is one record for each identifier that is a text, in order. -/
theorem map_identifier_filterMap_of? (tokens : Array Span) (splitter : IdentifierSplitter)
    (identifiers : List SyntaxToken) :
    (identifiers.filterMap (of? d tokens splitter)).map (·.identifier)
      = identifiers.filter fun identifier => d.IsText identifier.span := by
  induction identifiers with
  | nil => rfl
  | cons identifier identifiers ih =>
      rw [List.filterMap_cons, List.filter_cons]
      rcases hone : of? d tokens splitter identifier with - | splits
      · -- no record, hence no text
        have hnot : ¬ d.IsText identifier.span := by
          rintro ⟨text, htext⟩
          have hsome : of? d tokens splitter identifier = some _ :=
            of?_eq_some_iff.mpr ⟨text, htext, rfl⟩
          rw [hone] at hsome
          cases hsome
        rw [if_neg (by simpa using hnot)]
        exact ih
      · obtain ⟨text, htext, rfl⟩ := of?_eq_some_iff.mp hone
        rw [if_pos (by simpa using ⟨text, htext⟩), List.map_cons, ih]
        rfl

end IdentifierSplits

open IdentifierSplits

/-- Scoring identifiers takes their records, if there is time. -/
theorem splits_of_scoreIdentifiers_eq_ok {α : Type} [Scalar α] {d : Document}
    {identifiers : List SyntaxToken} {tokens : List Span} {splitter : IdentifierSplitter}
    {deadline : Deadline} {scores : IdentifierScores α}
    (h : scoreIdentifiers α d identifiers tokens splitter deadline = .ok scores) :
    scores = .ofSplits α (identifiers.filterMap (of? d tokens.toArray splitter)) := by
  rw [scoreIdentifiers] at h
  split at h
  · cases h
    rfl
  · rcases hcheck : deadline.check with timeout | done
    · rw [hcheck] at h
      cases h
    · rw [hcheck] at h
      cases h
      rfl

/-- Nothing but the end of its time keeps a document from its scores. -/
theorem exists_scoreIdentifiers_eq_ok (α : Type) [Scalar α] (d : Document)
    (identifiers : List SyntaxToken) (tokens : List Span) (splitter : IdentifierSplitter)
    {deadline : Deadline} (h : deadline ≠ .expired) :
    ∃ scores, scoreIdentifiers α d identifiers tokens splitter deadline = .ok scores := by
  rw [scoreIdentifiers]
  split
  · exact ⟨_, rfl⟩
  · cases deadline with
    | expired => exact absurd rfl h
    | unbounded => exact ⟨_, rfl⟩
    | pending => exact ⟨_, rfl⟩

/-- **Clipped splits lose and repeat nothing.**  There is one record for each identifier
whose bytes are there and spell a text, in the order of the identifiers.  The pieces of a
record, put together, are the characters of its text, other than underscores, whose bytes
all lie in one token; none of the pieces is empty; and if no token boundary lies inside a
character, the pieces put together are the text without its underscores. -/
theorem scoreIdentifiers_clipped (α : Type) [Scalar α] {d : Document} {tokens : List Span}
    (hcover : checkCover tokens d.length = .ok ()) (identifiers : List SyntaxToken)
    (splitter : IdentifierSplitter) (deadline : Deadline) :
    (deadline ≠ .expired →
      ∃ scores, scoreIdentifiers α d identifiers tokens splitter deadline = .ok scores) ∧
    ∀ scores, scoreIdentifiers α d identifiers tokens splitter deadline = .ok scores →
      scores.splits.map (·.identifier)
        = identifiers.filter (fun identifier => d.IsText identifier.span) ∧
      ∀ splits ∈ scores.splits, ∀ text,
        d.bytes splits.identifier.span = .ok (Utf8.encode text) →
          splits.clipped.flatten
            = ((Utf8.located splits.identifier.span.start text).filter fun x =>
                x.1 ≠ '_' ∧ ∃ t ∈ tokens, t.contains x.2 = true).map Prod.fst ∧
          [] ∉ splits.clipped ∧
          ((∀ x ∈ Utf8.located splits.identifier.span.start text, Span.Uncut tokens x.2) →
            splits.clipped.flatten = withoutUnderscores text) := by
  have hchain := checkCover_eq_ok_iff.mp hcover
  refine ⟨exists_scoreIdentifiers_eq_ok α d identifiers tokens splitter, ?_⟩
  intro scores hscores
  rw [splits_of_scoreIdentifiers_eq_ok hscores]
  refine ⟨map_identifier_filterMap_of? .., ?_⟩
  intro splits hsplits text htext
  -- the record is the one of an identifier, and its text is the one given
  obtain ⟨identifier, -, hone⟩ := List.mem_filterMap.mp hsplits
  obtain ⟨text', htext', rfl⟩ := of?_eq_some_iff.mp hone
  obtain rfl : text' = text := Document.text_unique htext' htext
  have hclipped := clipped_eq hchain htext' splitter
  have hflatten : (ofIdentifier d tokens.toArray splitter identifier text').clipped.flatten
      = ((Utf8.located identifier.span.start text').filter fun x =>
          x.1 ≠ '_' ∧ ∃ t ∈ tokens, t.contains x.2 = true).map Prod.fst := by
    rw [hclipped, List.flatten_filter_not_isEmpty, ← List.flatMap_def, flatMap_held hchain]
  refine ⟨hflatten, ?_, ?_⟩
  · rw [hclipped]
    intro hempty
    simpa using (List.mem_filter.mp hempty).2
  · intro huncut
    rw [hflatten]
    exact filter_located_of_uncut hchain htext' huncut

/-- The text `(a_é)`. -/
def accentedName : Document := ⟨.python, #[0x28, 0x61, 0x5F, 0xC3, 0xA9, 0x29], by decide⟩

/-- A cover of it with an empty token and one that ends inside the `é`. -/
def accentedCut : List Span :=
  [⟨0, 2, by decide⟩, ⟨2, 2, by decide⟩, ⟨2, 4, by decide⟩, ⟨4, 6, by decide⟩]

/-- The name in it, the same without its last byte, and one that leaves the text. -/
def accentedIdentifiers : List SyntaxToken :=
  [⟨⟨1, 5, by decide⟩, "identifier"⟩, ⟨⟨1, 4, by decide⟩, "identifier"⟩,
    ⟨⟨4, 9, by decide⟩, "identifier"⟩]

theorem scoreIdentifiers_clipped_accented :
    checkCover accentedCut accentedName.length = .ok () ∧
    ∃ scores, scoreIdentifiers ℚ accentedName accentedIdentifiers accentedCut (fun t => [t])
        .pending = .ok scores ∧
      scores.splits.map (·.identifier) = accentedIdentifiers.take 1 ∧
      ∀ splits ∈ scores.splits, splits.clipped.flatten = ['a'] := by
  have hcover : checkCover accentedCut accentedName.length = .ok () := by decide
  have h := scoreIdentifiers_clipped ℚ hcover accentedIdentifiers (fun t => [t]) .pending
  obtain ⟨scores, hscores⟩ := h.1 (by decide)
  obtain ⟨hrecords, hpieces⟩ := h.2 scores hscores
  have hone : accentedIdentifiers.filter (fun identifier => accentedName.IsText identifier.span)
      = accentedIdentifiers.take 1 := by decide +kernel
  rw [hone] at hrecords
  refine ⟨hcover, scores, hscores, hrecords, ?_⟩
  intro splits hsplits
  have hidentifier : splits.identifier ∈ accentedIdentifiers.take 1 :=
    hrecords ▸ List.mem_map_of_mem hsplits
  have hspan : splits.identifier.span = ⟨1, 5, by decide⟩ := by
    rw [List.mem_singleton.mp hidentifier]
  have htext : accentedName.bytes splits.identifier.span
      = .ok (Utf8.encode ['a', '_', 'é']) := by
    rw [hspan]
    rfl
  rw [(hpieces splits hsplits _ htext).1, hspan]
  decide

end TokenAlignment
