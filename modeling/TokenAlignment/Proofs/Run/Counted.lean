/-
TokenAlignment/Proofs/Run/Counted.lean

Which tokens a count of the frequencies counts.

    item  ──→  document with its tokens, or nothing  ──→  pieces  ──→  table

A count of the frequencies is the table of the pieces of the documents that get tokens
(`foldlM_countItem?`, `frequencies?_eq`), if there is one, in the order in which the tokenizer sees them: as it
may learn from each, the order may show in the tokens.  Where it has ids for the pieces of
all documents, each is counted as if it were alone (`counted_eq`).
-/
import TokenAlignment.Proofs.Run.Alone
import TokenAlignment.Proofs.Score.FrequencyLaws

namespace TokenAlignment

/-- A document that is counted, with its tokens. -/
abbrev CountedDocument : Type :=
  Document × List Span

/-- The pieces of some counted documents. -/
def countedPieces (documents : List CountedDocument) : List (List UInt8) :=
  documents.flatMap fun counted => counted.1.tokenPieces counted.2

namespace Runner

section Items

variable {σ : Type} (r : Runner σ)

/-- The document of an item with its tokens, if it gets some, and the memory of the
tokenizer after it. -/
def tokenizeItem (item : CorpusItem) (memory : σ) : Option CountedDocument × σ :=
  match item.document with
  | .error _ => (none, memory)
  | .ok document =>
    if (r.rejection? document).isSome then (none, memory)
    else
      match r.context.tokenizer.tokenize document memory with
      | (.ok tokens, memory') => (some (document, tokens), memory')
      | (.error _, memory') => (none, memory')

/-- A document with given tokens is counted with them. -/
theorem tokenizeItem_of_tokens (label : String) {d : Document} {memory : σ}
    (hreason : r.rejection? d = none) {tokens : List Span}
    (htokens : (r.context.tokenizer.tokenize d memory).1 = .ok tokens) :
    (r.tokenizeItem ⟨label, .ok d⟩ memory).1 = some (d, tokens) := by
  rw [tokenizeItem]
  dsimp only
  rw [hreason, if_neg (by simp)]
  generalize r.context.tokenizer.tokenize d memory = answer at htokens ⊢
  obtain ⟨tokens', memory'⟩ := answer
  obtain rfl : tokens' = .ok tokens := htokens
  rfl

/-- The documents of some items that are counted, in order. -/
def counted (memory : σ) : List CorpusItem → List CountedDocument
  | [] => []
  | item :: items =>
    (r.tokenizeItem item memory).1.toList ++ counted (r.tokenizeItem item memory).2 items

/-- **One item** adds the pieces of its document, if that is counted. -/
theorem countItem?_eq (f : TokenFrequencies) (item : CorpusItem) (memory : σ) :
    r.countItem? (f, memory) item
      = (f.addPieces? (countedPieces (r.tokenizeItem item memory).1.toList)).map
          (·, (r.tokenizeItem item memory).2) := by
  rw [countItem?, tokenizeItem]
  rcases item.document with rejection | d
  · rfl
  dsimp only
  split
  · rfl
  rcases r.context.tokenizer.tokenize d memory with ⟨e | tokens, memory'⟩
  · rfl
  · simp [countedPieces, TokenFrequencies.addDocument?_eq]

/-- All items add the pieces of the documents that are counted. -/
theorem foldlM_countItem? (f : TokenFrequencies) (memory : σ) (items : List CorpusItem) :
    (items.foldlM r.countItem? (f, memory)).map Prod.fst
      = f.addPieces? (countedPieces (r.counted memory items)) := by
  induction items generalizing f memory with
  | nil => rfl
  | cons item items ih =>
      have hpieces : countedPieces (r.counted memory (item :: items))
          = countedPieces (r.tokenizeItem item memory).1.toList
            ++ countedPieces (r.counted (r.tokenizeItem item memory).2 items) :=
        List.flatMap_append
      rw [List.foldlM_cons, countItem?_eq, hpieces, TokenFrequencies.addPieces?_append]
      rcases f.addPieces? (countedPieces (r.tokenizeItem item memory).1.toList) with - | f'
      · rfl
      · exact ih f' _

theorem frequencies?_eq (memory : σ) (items : List CorpusItem) :
    r.frequencies? memory items
      = (TokenFrequencies.ofPieces? (countedPieces (r.counted memory items))).map
          (·.seed r.context.tokenizer.vocabulary) := by
  rw [TokenFrequencies.ofPieces?, ← foldlM_countItem?, frequencies?, Option.map_map]
  rcases items.foldlM r.countItem? (.empty, memory) with - | ⟨f, memory'⟩ <;> rfl

end Items

/-! ### The memory does not show -/

section Memory

variable {r : Runner PieceTable} {known : Finset (List Char)} {t : PieceTable}

theorem tokenizeItem_eq (htokenizer : r.context.tokenizer.Supported)
    (hroom : r.context.tokenizer.HasRoom known) {item : CorpusItem}
    (hitem : ∀ piece ∈ r.itemPieces item, piece ∈ known) (ht : t.Within known) :
    (r.tokenizeItem item t).1 = (r.tokenizeItem item .empty).1 ∧
      (r.tokenizeItem item t).2.Within known := by
  rw [tokenizeItem, tokenizeItem]
  rw [itemPieces] at hitem
  rcases hdocument : item.document with rejection | d
  · exact ⟨rfl, ht⟩
  rw [hdocument] at hitem
  dsimp only at hitem ⊢
  split
  · exact ⟨rfl, ht⟩
  rename_i hreason
  rw [if_neg hreason] at hitem
  obtain ⟨htokens, hwithin⟩ := htokenizer.tokenize hroom hitem ht
  generalize r.context.tokenizer.tokenize d t = answer at htokens hwithin ⊢
  generalize r.context.tokenizer.tokenize d .empty = fresh at htokens ⊢
  obtain ⟨tokens, t'⟩ := answer
  obtain ⟨tokens', t''⟩ := fresh
  -- the answers differ in the memory only
  obtain rfl : tokens = tokens' := htokens
  cases tokens with
  | error e => exact ⟨rfl, hwithin⟩
  | ok tokens => exact ⟨rfl, hwithin⟩

/-- **Each document is counted as if it were alone**, where all pieces have ids. -/
theorem counted_eq (htokenizer : r.context.tokenizer.Supported)
    (hroom : r.context.tokenizer.HasRoom known) {items : List CorpusItem}
    (hitems : ∀ item ∈ items, ∀ piece ∈ r.itemPieces item, piece ∈ known)
    (ht : t.Within known) :
    r.counted t items = items.filterMap fun item => (r.tokenizeItem item .empty).1 := by
  induction items generalizing t with
  | nil => rfl
  | cons item items ih =>
      rw [List.forall_mem_cons] at hitems
      obtain ⟨htokens, hwithin⟩ := tokenizeItem_eq htokenizer hroom hitems.1 ht
      rw [counted, htokens, ih hitems.2 hwithin]
      rcases hcounted : (r.tokenizeItem item .empty).1 with - | document <;> simp [hcounted]

end Memory

end Runner

end TokenAlignment
