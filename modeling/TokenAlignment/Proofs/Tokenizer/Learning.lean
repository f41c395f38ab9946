/-
TokenAlignment/Proofs/Tokenizer/Learning.lean

What a table of pieces learns from texts, one after another.

The texts that a table has seen determine it (`learned`), as long as there are ids for all
of their pieces.  Later texts only add to the end: an id that was given out keeps its bytes
in every later table,

    t₀ ──text₁──→ t₁ ──text₂──→ t₂ ──→ …        ids of textₖ read in tₙ  =  textₖ   (k ≤ n)

and the tokens of a document are the same after any texts.

Main result: `learned_bijection`.
-/
import TokenAlignment.Proofs.Tokenizer.PieceTable

namespace TokenAlignment

namespace PieceTable

/-- The table after some more texts. -/
def learn (t : PieceTable) (texts : List (List Char)) : PieceTable :=
  texts.foldl (fun t text => (encode text t).2) t

/-- The table of some texts, in the order in which it saw them. -/
def learned (texts : List (List Char)) : PieceTable :=
  empty.learn texts

theorem learned_append (texts more : List (List Char)) :
    learned (texts ++ more) = (learned texts).learn more :=
  List.foldl_append

theorem learned_concat (texts : List (List Char)) (text : List Char) :
    learned (texts ++ [text]) = (encode text (learned texts)).2 :=
  learned_append texts [text]

/-- Some more texts: the table learns their pieces and moves none. -/
theorem Learned.learn {t : PieceTable} {seen : List (List Char)} (h : Learned t seen)
    (texts : List (List Char))
    (hroom : (seen ++ texts.flatMap Pretoken.pieces).toFinset.card ≤ UInt32.size) :
    Learned (t.learn texts) (seen ++ texts.flatMap Pretoken.pieces) ∧
      t.Extends (t.learn texts) := by
  induction texts generalizing t seen with
  | nil => exact ⟨by simpa [PieceTable.learn] using h, Extends.refl t⟩
  | cons text texts ih =>
      rw [List.flatMap_cons, ← List.append_assoc] at hroom ⊢
      rcases h.encode text with
        ⟨ids, t', hencode, hlearned, hextends, -⟩ | ⟨t', -, hmany⟩
      · obtain ⟨hall, hlater⟩ := ih hlearned hroom
        have hnext : t.learn (text :: texts) = t'.learn texts := by
          rw [PieceTable.learn, List.foldl_cons, hencode]
          rfl
        rw [hnext]
        exact ⟨hall, hextends.trans hlater⟩
      · -- a part of the pieces cannot be too many
        rw [List.toFinset_append] at hroom
        have := Nat.le_trans (Finset.card_le_card Finset.subset_union_left) hroom
        omega

/-- The number of ids that some texts take. -/
def idCount (texts : List (List Char)) : Nat :=
  (texts.flatMap Pretoken.pieces).toFinset.card

theorem idCount_mono {texts more : List (List Char)} (h : texts <+: more) :
    idCount texts ≤ idCount more := by
  obtain ⟨rest, rfl⟩ := h
  rw [idCount, idCount, List.flatMap_append, List.toFinset_append]
  exact Finset.card_le_card Finset.subset_union_left

theorem learned_learned {texts : List (List Char)} (hroom : idCount texts ≤ UInt32.size) :
    Learned (learned texts) (texts.flatMap Pretoken.pieces) :=
  (learned_empty.learn texts hroom).1

/-- Later texts move nothing. -/
theorem extends_learned {texts more : List (List Char)} (h : texts <+: more)
    (hroom : idCount more ≤ UInt32.size) : (learned texts).Extends (learned more) := by
  have hfewer := Nat.le_trans (idCount_mono h) hroom
  obtain ⟨rest, rfl⟩ := h
  rw [learned_append]
  apply ((learned_learned hfewer).learn rest ?_).2
  rwa [← List.flatMap_append]

/-- Later texts give no other id to a piece. -/
theorem ids_of_extends {t t' : PieceTable} (ht : t.Consistent) (ht' : t'.Consistent)
    (h : t.Extends t') {piece : List Char} {id : UInt32}
    (hid : t.ids[String.ofList piece]? = some id) :
    t'.ids[String.ofList piece]? = some id := by
  rw [ht'.ids_iff]
  exact h _ _ ((ht.ids_iff piece id).mp hid)

/-- Later texts leave every id its bytes. -/
theorem tokenBytes_of_extends {t t' : PieceTable} (h : t.Extends t') {id : UInt32}
    {bytes : List UInt8} (hbytes : t.tokenBytes id = some bytes) :
    t'.tokenBytes id = some bytes := by
  obtain ⟨piece, hpiece, rfl⟩ := Option.map_eq_some_iff.mp hbytes
  rw [tokenBytes, h _ _ hpiece]
  rfl

/-- **A text is read back from its ids**, in the table after it. -/
theorem encode_learned {earlier : List (List Char)} {text : List Char}
    (hroom : idCount (earlier ++ [text]) ≤ UInt32.size) :
    ∃ ids blocks, encode text (learned earlier) = (.ok ids, learned (earlier ++ [text])) ∧
      List.Forall₂ (fun id block =>
        (learned (earlier ++ [text])).tokenBytes id = some block) ids blocks ∧
      blocks.flatten = Utf8.encode text := by
  have hearlier := learned_learned (Nat.le_trans
    (idCount_mono (List.prefix_append earlier [text])) hroom)
  rcases hearlier.encode text with ⟨ids, t, hencode, -, -, hids⟩ | ⟨t, -, hmany⟩
  · have ht : learned (earlier ++ [text]) = t := by
      rw [learned_concat, hencode]
    rw [ht]
    refine ⟨ids, (Pretoken.pieces text).map Utf8.encode, hencode, ?_, ?_⟩
    · rw [List.forall₂_map_right_iff]
      exact hids.imp fun id piece hget => by rw [tokenBytes, hget]; rfl
    · rw [← Utf8.encode_flatten, Pretoken.flatten_pieces]
  · rw [idCount, List.flatMap_append, List.flatMap_singleton] at hroom
    omega

/-- The tokens of a document after some texts are those of a table that has seen nothing. -/
theorem tokenize_learned {texts : List (List Char)} {d : Document} {text : List Char}
    (htext : d.fullText = .ok text) (hroom : idCount (texts ++ [text]) ≤ UInt32.size) :
    ∃ tokens, pretokenEncoder.tokenize d (learned texts)
        = (.ok tokens, learned (texts ++ [text])) ∧
      (pretokenEncoder.tokenize d .empty).1 = .ok tokens := by
  have hfewer := Nat.le_trans (idCount_mono (List.prefix_append texts [text])) hroom
  have hpieces : d.pieces = Pretoken.pieces text := by rw [Document.pieces, htext]
  have hknown : ∀ piece ∈ texts.flatMap Pretoken.pieces ++ d.pieces,
      piece ∈ ((texts ++ [text]).flatMap Pretoken.pieces).toFinset := by
    intro piece hpiece
    rwa [hpieces, ← List.flatMap_singleton Pretoken.pieces text, ← List.flatMap_append,
      ← List.mem_toFinset] at hpiece
  rw [List.forall_mem_append] at hknown
  have htokens := (((learned_learned hfewer).within hknown.1).tokenize hroom hknown.2).1
  obtain ⟨ids, -, hencode, -, -⟩ := encode_learned hroom
  rw [Document.pieceTokens, htext] at htokens
  refine ⟨_, Prod.ext htokens ?_, ?_⟩
  · simp only [ByteEncoder.tokenize, htext, pretokenEncoder, hencode]
  · rw [tokenize_empty, Document.pieceTokens, htext]

/-- **A table of pieces is a bijection that later texts only extend.**  As long as the
texts have fewer different pieces than there are ids, the pieces and the ids of the table
after them are inverse to each other; the ids are the numbers below the number of pieces,
in the order of first sight; an id or a piece that an earlier table knew means the same;
every text is read back from the ids that it got when it was encoded; and one more document
has the tokens that it has for a table that has seen nothing. -/
theorem learned_bijection (texts : List (List Char)) (hroom : idCount texts < 2 ^ 32) :
    let t := learned texts
    ((∀ piece id, t.ids[String.ofList piece]? = some id ↔ t.pieces[id.toNat]? = some piece) ∧
      t.pieces.toList.Nodup ∧
      (∀ n, n < t.size ↔ ∃ piece id, t.ids[String.ofList piece]? = some id ∧ id.toNat = n) ∧
      t.pieces.toList = (texts.flatMap Pretoken.pieces).eraseDups) ∧
    (∀ earlier, earlier <+: texts →
      (∀ piece id, (learned earlier).ids[String.ofList piece]? = some id →
        t.ids[String.ofList piece]? = some id) ∧
      ∀ id bytes, (learned earlier).tokenBytes id = some bytes →
        t.tokenBytes id = some bytes) ∧
    (∀ earlier text, earlier ++ [text] <+: texts →
      ∃ ids blocks, encode text (learned earlier) = (.ok ids, learned (earlier ++ [text])) ∧
        List.Forall₂ (fun id block => t.tokenBytes id = some block) ids blocks ∧
        blocks.flatten = Utf8.encode text) ∧
    ∀ (d : Document) (text : List Char), d.fullText = .ok text →
      idCount (texts ++ [text]) < 2 ^ 32 →
      ∃ tokens, pretokenEncoder.tokenizer.tokenize d t
          = (.ok tokens, learned (texts ++ [text])) ∧
        (pretokenEncoder.tokenizer.tokenize d .empty).1 = .ok tokens := by
  intro t
  have hle : idCount texts ≤ UInt32.size := Nat.le_of_lt hroom
  have ht : Learned t (texts.flatMap Pretoken.pieces) := learned_learned hle
  have hearlier {earlier : List (List Char)} (h : earlier <+: texts) :
      (learned earlier).Consistent ∧ (learned earlier).Extends t :=
    ⟨(learned_learned (Nat.le_trans (idCount_mono h) hle)).consistent,
      extends_learned h hle⟩
  refine ⟨⟨ht.consistent.ids_iff, ht.consistent.nodup, ?_, ht.pieces_eq⟩, ?_, ?_, ?_⟩
  · intro n
    constructor
    · intro hn
      have hsize : n < UInt32.size := Nat.lt_of_lt_of_le hn ht.consistent.size_le
      refine ⟨t.pieces[n], UInt32.ofNat n, ?_, UInt32.toNat_ofNat_of_lt' hsize⟩
      rw [ht.consistent.ids_iff, UInt32.toNat_ofNat_of_lt' hsize]
      exact Array.getElem?_eq_getElem hn
    · rintro ⟨piece, id, hid, rfl⟩
      rw [ht.consistent.ids_iff] at hid
      exact (Array.getElem?_eq_some_iff.mp hid).1
  · intro earlier hprefix
    obtain ⟨hconsistent, hextends⟩ := hearlier hprefix
    exact ⟨fun piece id => ids_of_extends hconsistent ht.consistent hextends,
      fun id bytes => tokenBytes_of_extends hextends⟩
  · intro earlier text hprefix
    obtain ⟨ids, blocks, hencode, hblocks, hflat⟩ :=
      encode_learned (Nat.le_trans (idCount_mono hprefix) hle)
    refine ⟨ids, blocks, hencode, hblocks.imp fun id block => ?_, hflat⟩
    exact tokenBytes_of_extends (hearlier hprefix).2
  · intro d text htext hmore
    exact tokenize_learned htext (Nat.le_of_lt hmore)

/-- Two texts with a piece in common. -/
def twoTexts : List (List Char) := [['x', ' ', 'y'], [' ', 'y', ' ', 'y', 'x']]

/-- The text `x yx`. -/
def thirdText : Document := ⟨.python, #[120, 32, 121, 120], by decide⟩

theorem learned_bijection_twoTexts :
    idCount twoTexts < 2 ^ 32 ∧
    (learned twoTexts).pieces.toList = [['x'], [' ', 'y'], [' ', 'y', 'x']] ∧
    (∃ ids blocks, encode ['x', ' ', 'y'] empty = (.ok ids, learned [['x', ' ', 'y']]) ∧
      List.Forall₂ (fun id block => (learned twoTexts).tokenBytes id = some block) ids blocks ∧
      blocks.flatten = [120, 32, 121]) ∧
    ∃ tokens, pretokenEncoder.tokenizer.tokenize thirdText (learned twoTexts)
        = (.ok tokens, learned (twoTexts ++ [['x', ' ', 'y', 'x']])) := by
  have hroom : idCount twoTexts < 2 ^ 32 := by decide +kernel
  have hmore : idCount (twoTexts ++ [['x', ' ', 'y', 'x']]) < 2 ^ 32 := by decide +kernel
  have htext : thirdText.fullText = .ok ['x', ' ', 'y', 'x'] :=
    Document.fullText_eq_ok_iff.mpr (by decide)
  have hfirst : [] ++ [['x', ' ', 'y']] <+: twoTexts := ⟨[[' ', 'y', ' ', 'y', 'x']], rfl⟩
  obtain ⟨⟨-, -, -, hpieces⟩, -, hread, htokens⟩ := learned_bijection twoTexts hroom
  obtain ⟨tokens, htokenize, -⟩ := htokens thirdText _ htext hmore
  exact ⟨hroom, hpieces.trans (by decide +kernel), hread [] _ hfirst, tokens, htokenize⟩

end PieceTable

end TokenAlignment
