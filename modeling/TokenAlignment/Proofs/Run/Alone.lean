/-
TokenAlignment/Proofs/Run/Alone.lean

Each document of a corpus is scored as if it were alone.

All documents share one tokenizer, which may learn from each of them.  What it learned
does not show in a result,

    item  ──→  result, alone         the memory of the tokenizer does not show

as long as it has ids for the pieces of all documents (`processAll_eq_map`).  That need not
be assumed of a run in which no document failed: a document without ids for its pieces
does (`hasRoom_of_not_failed`).
-/
import TokenAlignment.Proofs.Tokenizer.Memory
import TokenAlignment.Run.Runner

namespace TokenAlignment

namespace Runner

variable (α : Type) [Scalar α]

/-! ### One item -/

/-- The result of an item for a tokenizer that has seen nothing. -/
def alone (r : Runner PieceTable) (item : CorpusItem) : DocumentResult α :=
  (r.process α item .empty).1

/-- The pieces of the document of an item, if it gets as far as the tokenizer. -/
def itemPieces {σ : Type} (r : Runner σ) (item : CorpusItem) : List (List Char) :=
  match item.document with
  | .error _ => []
  | .ok document => if (r.rejection? document).isSome then [] else document.pieces

/-- The pieces that the tokenizer gets to see in a corpus. -/
def pieces {σ : Type} (r : Runner σ) (items : List CorpusItem) : Finset (List Char) :=
  (items.flatMap r.itemPieces).toFinset

theorem mem_pieces {σ : Type} (r : Runner σ) {items : List CorpusItem} {item : CorpusItem}
    (hitem : item ∈ items) : ∀ piece ∈ r.itemPieces item, piece ∈ r.pieces items := by
  intro piece hpiece
  rw [pieces, List.mem_toFinset]
  exact List.mem_flatMap.mpr ⟨item, hitem, hpiece⟩

/-- The pieces that a table can hold after a corpus. -/
def piecesAfter {σ : Type} (r : Runner σ) (t : PieceTable) (items : List CorpusItem) :
    Finset (List Char) :=
  t.pieces.toList.toFinset ∪ r.pieces items

theorem mem_piecesAfter {σ : Type} (r : Runner σ) (t : PieceTable) {items : List CorpusItem}
    {item : CorpusItem} (hitem : item ∈ items) :
    ∀ piece ∈ r.itemPieces item, piece ∈ r.piecesAfter t items := by
  intro piece hpiece
  exact Finset.mem_union_right _ (r.mem_pieces hitem piece hpiece)

theorem within_piecesAfter {σ : Type} (r : Runner σ) {t : PieceTable} (ht : t.Consistent)
    (items : List CorpusItem) : t.Within (r.piecesAfter t items) := by
  refine ⟨ht, ?_⟩
  intro piece hpiece
  exact Finset.mem_union_left _ (List.mem_toFinset.mpr (Array.mem_toList_iff.mpr hpiece))

/-- The result of a document with given tokens. -/
theorem alone_eq (r : Runner PieceTable) (label : String) {d : Document}
    (hreason : r.rejection? d = none) {tokens : List Span}
    (htokens : (r.context.tokenizer.tokenize d .empty).1 = .ok tokens) :
    r.alone α ⟨label, .ok d⟩ = ⟨label, some d.language,
      outcomeOfScore α (TokenAlignment.scoreDocument α r.context.parser d tokens
        r.context.splitter (Deadline.after r.config.timeoutMillis))⟩ := by
  rw [alone, process]
  dsimp only
  rw [scoreDocument, hreason]
  dsimp only
  generalize r.context.tokenizer.tokenize d .empty = answer at htokens ⊢
  obtain ⟨tokens', t'⟩ := answer
  obtain rfl : tokens' = .ok tokens := htokens
  rfl

/-! ### A corpus, item by item -/

theorem processAllOnto_eq_append {σ : Type} (r : Runner σ) (done : List (DocumentResult α))
    (memory : σ) (items : List CorpusItem) :
    r.processAllOnto α done memory items = done.reverse ++ r.processAll α memory items := by
  rw [processAll]
  induction items generalizing done memory with
  | nil => simp [processAllOnto]
  | cons item items ih =>
      rw [processAllOnto, processAllOnto]
      dsimp only
      rw [ih, ih [_]]
      simp

theorem processAll_cons {σ : Type} (r : Runner σ) (memory : σ) (item : CorpusItem)
    (items : List CorpusItem) :
    r.processAll α memory (item :: items) = (r.process α item memory).1 ::
      r.processAll α (r.process α item memory).2 items := by
  rw [processAll, processAllOnto]
  dsimp only
  rw [processAllOnto_eq_append]
  rfl

/-- What holds of the result of each item, for whatever memory it meets, holds of all
results. -/
theorem forall_mem_processAll {σ : Type} {r : Runner σ} {P : DocumentResult α → Prop}
    (h : ∀ item memory, P (r.process α item memory).1) (memory : σ) (items : List CorpusItem) :
    ∀ result ∈ r.processAll α memory items, P result := by
  induction items generalizing memory with
  | nil =>
      intro result hresult
      cases hresult
  | cons item items ih =>
      rw [processAll_cons, List.forall_mem_cons]
      exact ⟨h item memory, ih _⟩

/-- The memory of the tokenizer after some items. -/
def memoryAfter {σ : Type} (r : Runner σ) (memory : σ) (items : List CorpusItem) : σ :=
  items.foldl (fun memory item => (r.process α item memory).2) memory

section Process

variable {r : Runner PieceTable} {known : Finset (List Char)} {t : PieceTable}

/-! ### The memory does not show -/

theorem scoreDocument_eq (htokenizer : r.context.tokenizer.Supported)
    (hroom : r.context.tokenizer.HasRoom known) {d : Document}
    (hd : r.rejection? d = none → ∀ piece ∈ d.pieces, piece ∈ known) (ht : t.Within known) :
    (r.scoreDocument α d t).1 = (r.scoreDocument α d .empty).1 ∧
      (r.scoreDocument α d t).2.Within known := by
  rw [scoreDocument, scoreDocument]
  rcases hreason : r.rejection? d with - | reason
  · obtain ⟨htokens, hwithin⟩ := htokenizer.tokenize hroom (hd hreason) ht
    dsimp only
    generalize r.context.tokenizer.tokenize d t = answer at htokens hwithin ⊢
    generalize r.context.tokenizer.tokenize d .empty = fresh at htokens ⊢
    obtain ⟨tokens, t'⟩ := answer
    obtain ⟨tokens', t''⟩ := fresh
    -- the answers differ in the memory only, which the outcome does not contain
    obtain rfl : tokens = tokens' := htokens
    cases tokens with
    | error e => exact ⟨rfl, hwithin⟩
    | ok tokens => exact ⟨rfl, hwithin⟩
  · exact ⟨rfl, ht⟩

theorem process_eq (htokenizer : r.context.tokenizer.Supported)
    (hroom : r.context.tokenizer.HasRoom known) {item : CorpusItem}
    (hitem : ∀ piece ∈ r.itemPieces item, piece ∈ known) (ht : t.Within known) :
    (r.process α item t).1 = r.alone α item ∧ (r.process α item t).2.Within known := by
  rw [alone, process, process]
  rw [itemPieces] at hitem
  rcases hdocument : item.document with rejection | d
  · exact ⟨rfl, ht⟩
  · rw [hdocument] at hitem
    have hd : r.rejection? d = none → ∀ piece ∈ d.pieces, piece ∈ known := by
      intro hnone
      simpa [hnone] using hitem
    obtain ⟨houtcome, hwithin⟩ := scoreDocument_eq α htokenizer hroom hd ht
    exact ⟨by dsimp only; rw [houtcome], hwithin⟩

/-- **Each document is scored as if it were alone**, where all pieces have ids. -/
theorem processAll_eq_map (htokenizer : r.context.tokenizer.Supported)
    (hroom : r.context.tokenizer.HasRoom known) {items : List CorpusItem}
    (hitems : ∀ item ∈ items, ∀ piece ∈ r.itemPieces item, piece ∈ known)
    (ht : t.Within known) : r.processAll α t items = items.map (r.alone α) := by
  induction items generalizing t with
  | nil => rfl
  | cons item items ih =>
      rw [List.forall_mem_cons] at hitems
      obtain ⟨hresult, hwithin⟩ := process_eq α htokenizer hroom hitems.1 ht
      rw [processAll_cons, ih hitems.2 hwithin, hresult, List.map_cons]

/-- The memory after a corpus is one of its pieces. -/
theorem within_memoryAfter (htokenizer : r.context.tokenizer.Supported)
    (hroom : r.context.tokenizer.HasRoom known) {items : List CorpusItem}
    (hitems : ∀ item ∈ items, ∀ piece ∈ r.itemPieces item, piece ∈ known)
    (ht : t.Within known) : (r.memoryAfter α t items).Within known := by
  rw [memoryAfter]
  induction items generalizing t with
  | nil => exact ht
  | cons item items ih =>
      rw [List.forall_mem_cons] at hitems
      rw [List.foldl_cons]
      exact ih hitems.2 (process_eq α htokenizer hroom hitems.1 ht).2

/-- The documents of a corpus for a tokenizer that has seen nothing. -/
theorem processAll_eq (htokenizer : r.context.tokenizer.Supported) {items : List CorpusItem}
    (hpieces : (r.pieces items).card ≤ UInt32.size) :
    r.processAll α .empty items = items.map (r.alone α) :=
  processAll_eq_map α htokenizer (.inr hpieces) (fun _ hitem => r.mem_pieces hitem)
    (PieceTable.within_empty _)

/-! ### Runs without failures -/

/-- An item that does not fail teaches the table its pieces. -/
theorem learned_process (hpretoken : r.context.tokenizer = pretokenEncoder.tokenizer)
    {seen : List (List Char)} (h : t.Learned seen) {item : CorpusItem}
    (hfailed : (r.process α item t).1.outcome.isFailed = false) :
    (r.process α item t).2.Learned (seen ++ r.itemPieces item) := by
  rw [process] at hfailed ⊢
  rw [itemPieces]
  rcases hdocument : item.document with rejection | d
  · rwa [List.append_nil]
  rw [hdocument] at hfailed
  dsimp only at hfailed ⊢
  rw [scoreDocument, hpretoken] at hfailed ⊢
  rcases hreason : r.rejection? d with - | reason
  · rw [hreason] at hfailed
    dsimp only [ByteEncoder.tokenizer] at hfailed ⊢
    rcases h.tokenize d with hlearned | hfull
    · generalize pretokenEncoder.tokenize d t = answer at hlearned ⊢
      obtain ⟨e | tokens, t'⟩ := answer
      · exact hlearned
      · exact hlearned
    · -- without ids for its pieces the document fails
      generalize pretokenEncoder.tokenize d t = answer at hfull hfailed
      obtain ⟨tokens, t'⟩ := answer
      obtain rfl : tokens = .error PieceTable.full := hfull
      cases hfailed
  · simpa using h

/-- All pieces of a corpus in which nothing fails have ids. -/
theorem card_le_of_not_failed (hpretoken : r.context.tokenizer = pretokenEncoder.tokenizer)
    {seen : List (List Char)} (h : t.Learned seen) {items : List CorpusItem}
    (hfailed : ∀ result ∈ r.processAll α t items, result.outcome.isFailed = false) :
    (seen ++ items.flatMap r.itemPieces).toFinset.card ≤ UInt32.size := by
  induction items generalizing t seen with
  | nil => simpa using h.card_le
  | cons item items ih =>
      rw [processAll_cons, List.forall_mem_cons] at hfailed
      rw [List.flatMap_cons, ← List.append_assoc]
      exact ih (learned_process α hpretoken h hfailed.1) hfailed.2

/-- **A run without failures had room**: its tokenizer has ids for the pieces that the table
held before and for those of the corpus. -/
theorem hasRoom_of_not_failed (htokenizer : r.context.tokenizer.Supported)
    (ht : t.Consistent) {items : List CorpusItem}
    (hfailed : ∀ result ∈ r.processAll α t items, result.outcome.isFailed = false) :
    r.context.tokenizer.HasRoom (r.piecesAfter t items) := by
  rcases htokenizer.eq_pretoken_or_memoryless with hpretoken | hmemoryless
  · right
    rw [piecesAfter, pieces, ← List.toFinset_append]
    exact card_le_of_not_failed α hpretoken ht.learned hfailed
  · exact .inl hmemoryless

end Process

end Runner

end TokenAlignment
