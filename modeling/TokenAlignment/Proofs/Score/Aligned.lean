/-
TokenAlignment/Proofs/Score/Aligned.lean

Tokens that are aligned with the words of an identifier score one.

The words of the identifier stand in it with underscores between them.  If no token
boundary cuts a word, each word lies in one token; if there is a boundary between any two
words that follow each other, no token holds two.  So each token holds one word or none,
whatever underscores and whatever else it has,

    clipped  =  the words,

and a set is as similar to itself as sets can be: the quotient of a count by itself, which is
one in exact arithmetic and in floating point.

Main result: `scoreIdentifiers_aligned`.
-/
import TokenAlignment.Proofs.Identifier.Conservation
import TokenAlignment.Proofs.Score.Clipped
import TokenAlignment.Proofs.Score.FloatQuotient
import TokenAlignment.Proofs.Score.Similarity

namespace TokenAlignment

/-! ### Similarity of a list with itself -/

theorem jaccard_self (α : Type) [Scalar α] {β : Type} [DecidableEq β] (xs : List β) :
    jaccard α xs xs = Scalar.ratio α (distinct xs).length (distinct xs).length := by
  have hall : (distinct xs).filter (· ∈ distinct xs) = distinct xs :=
    List.filter_eq_self.mpr fun x hx => by simpa using hx
  rw [jaccard, hall, Nat.add_sub_cancel]

theorem length_distinct_pos {β : Type} [DecidableEq β] {xs : List β} (h : xs ≠ []) :
    0 < (distinct xs).length := by
  rw [length_distinct, Finset.card_pos, List.toFinset_nonempty_iff]
  exact h

theorem length_distinct_le {β : Type} [DecidableEq β] (xs : List β) :
    (distinct xs).length ≤ xs.length := by
  rw [length_distinct]
  exact List.toFinset_card_le xs

/-- **A list that is not empty is entirely similar to itself.** -/
theorem jaccard_rat_self {β : Type} [DecidableEq β] {xs : List β} (h : xs ≠ []) :
    jaccard ℚ xs xs = 1 :=
  jaccard_eq_one_iff.mpr ⟨rfl, (List.toFinset_nonempty_iff xs).mpr h⟩

/-- In floating point too, where a count below `2 ^ 53` is a number. -/
theorem jaccard_float_self {β : Type} [DecidableEq β] {xs : List β} (h : xs ≠ [])
    (hlt : xs.length < 2 ^ 53) : jaccard Float xs xs = 1 := by
  have hpos := length_distinct_pos h
  rw [jaccard_self, Scalar.ratio, if_neg (Nat.ne_of_gt hpos)]
  have hcount := Nat.lt_of_le_of_lt (length_distinct_le xs) hlt
  exact (FloatCount.ofNat_div_eq_one_iff (Nat.le_refl _) hcount hpos).mpr rfl

namespace IdentifierSplits

variable {isWord : Char → Bool} {offset : Nat} {text : List Char}
  {placed : List (List Char × Span)} {tokens : List Span} {t : Span} {a b : Nat}

/-! ### What a token holds of the words -/

theorem held_append (offset : Nat) (a b : List Char) (t : Span) :
    held offset (a ++ b) t
      = held offset a t ++ held (offset + (Utf8.encode a).length) b t := by
  simp only [held, withoutUnderscores, Utf8.located_append, List.filter_append,
    List.map_append]

theorem held_underscore (offset : Nat) (t : Span) : held offset ['_'] t = [] := by
  rw [held, Utf8.located, Utf8.located, List.filter_cons]
  split <;> rfl

/-- A token that contains a word holds it. -/
theorem held_of_contains {word : List Char} (hword : '_' ∉ word)
    (h : t.start ≤ offset ∧ offset + (Utf8.encode word).length ≤ t.stop) :
    held offset word t = word := by
  have hall : (Utf8.located offset word).filter (fun x => t.contains x.2)
      = Utf8.located offset word := by
    rw [List.filter_eq_self]
    intro x hx
    have := Utf8.mem_located_bounds hx
    rw [Span.contains_iff]
    omega
  rw [held, hall, Utf8.map_fst_located, withoutUnderscores, List.filter_eq_self]
  intro c hc
  simpa using ne_of_mem_of_not_mem hc hword

/-- A token that neither contains a word nor cuts it holds nothing of it. -/
theorem held_of_not_contains {word : List Char} {s : Span} (hstart : s.start = offset)
    (hstop : s.stop = offset + (Utf8.encode word).length)
    (ht : t ∈ tokens) (hcut : Span.Uncut tokens s) (h : ¬ t.contains s = true) :
    held offset word t = [] := by
  have hnone : (Utf8.located offset word).filter (fun x => t.contains x.2) = [] := by
    rw [List.filter_eq_nil_iff]
    intro x hx hin
    -- with a character of the word in it, but not all, it starts or stops in the word
    have hpos := Utf8.start_lt_stop_of_mem_located hx
    have hbounds := Utf8.mem_located_bounds hx
    have hfirst := hcut t.start (.start ht)
    have hlast := hcut t.stop (.stop ht)
    rw [Span.contains_iff] at h hin
    omega
  rw [held, hnone]
  rfl

/-- **A token holds the words that it contains**, if it cuts none. -/
theorem held_eq_flatten (hplaced : Placed isWord offset text placed)
    (hchars : ∀ c ∈ text, isWord c = true ∨ c = '_') (hunderscore : ¬ isWord '_' = true)
    (ht : t ∈ tokens) (huncut : ∀ x ∈ placed, Span.Uncut tokens x.2) :
    held offset text t = ((placed.filter fun x => t.contains x.2).map Prod.fst).flatten := by
  induction hplaced with
  | done => rfl
  | @skip offset c text placed separator rest ih =>
      -- the only separator is an underscore, which is held nowhere
      rw [List.forall_mem_cons] at hchars
      obtain rfl := hchars.1.resolve_left separator
      rw [← List.singleton_append, held_append, held_underscore, List.nil_append,
        Utf8.length_encode_cons]
      exact ih hchars.2 huncut
  | @piece offset word text placed nonempty hword rest ih =>
      have hrest := ih (fun c hc => hchars c (List.mem_append_right _ hc))
        (fun x hx => huncut x (List.mem_cons_of_mem _ hx))
      have hno : '_' ∉ word := fun hmem => hunderscore (hword _ hmem)
      rw [held_append, hrest, List.filter_cons]
      split
      · rename_i hcontains
        rw [held_of_contains hno ((Span.contains_iff ..).mp hcontains), List.map_cons,
          List.flatten_cons]
      · rename_i hcontains
        rw [held_of_not_contains rfl rfl ht (huncut _ (List.mem_cons_self ..)) hcontains,
          List.nil_append]

/-! ### One word to a token -/

/-- A token boundary stands between two pieces, where they meet or between them. -/
def BoundaryBetween (tokens : List Span) (x y : List Char × Span) : Prop :=
  ∃ i, Span.IsBoundary tokens i ∧ x.2.stop ≤ i ∧ i ≤ y.2.start

instance (tokens : List Span) : Trans (BoundaryBetween tokens) (BoundaryBetween tokens)
    (BoundaryBetween tokens) where
  trans := by
    rintro x y z ⟨i, hi, hxi, hiy⟩ ⟨j, -, hyj, hjz⟩
    have := y.2.start_le_stop
    exact ⟨i, hi, hxi, by omega⟩

/-- No token boundary lies inside a piece, and at least one lies between any two pieces that
follow each other. -/
structure Aligned (tokens : List Span) (placed : List (List Char × Span)) : Prop where
  uncut : ∀ x ∈ placed, Span.Uncut tokens x.2
  between : placed.IsChain (BoundaryBetween tokens)

/-- No token holds two pieces. -/
theorem length_filter_contains_le_one (h : Span.Chain a tokens b)
    (hbetween : placed.Pairwise (BoundaryBetween tokens))
    (hpos : ∀ x ∈ placed, x.2.start < x.2.stop) (ht : t ∈ tokens) :
    (placed.filter fun x => t.contains x.2).length ≤ 1 := by
  rcases hheld : placed.filter (fun x => t.contains x.2) with - | ⟨x, - | ⟨y, rest⟩⟩
  · simp [hheld]
  · simp [hheld]
  · -- the boundary between two pieces would lie inside the token
    have hpairs := hbetween.filter fun x => t.contains x.2
    rw [hheld] at hpairs
    obtain ⟨i, hi, hxi, hiy⟩ := (List.pairwise_cons.mp hpairs).1 y (List.mem_cons_self ..)
    obtain ⟨hx, hxin⟩ := List.mem_filter.mp (hheld ▸ List.mem_cons_self .. :
      x ∈ placed.filter fun x => t.contains x.2)
    obtain ⟨hy, hyin⟩ := List.mem_filter.mp (hheld ▸ by simp :
      y ∈ placed.filter fun x => t.contains x.2)
    have hxpos := hpos x hx
    have hypos := hpos y hy
    rw [Span.contains_iff] at hxin hyin
    exact absurd ⟨by omega, by omega⟩ (h.uncut ht i hi)

/-- Lists of at most one word each, put together and read off one by one. -/
theorem filter_map_flatten {words : Span → List (List Char)}
    (hone : ∀ t ∈ tokens, (words t).length ≤ 1) (hne : ∀ t ∈ tokens, [] ∉ words t) :
    (tokens.map fun t => (words t).flatten).filter (!·.isEmpty) = tokens.flatMap words := by
  induction tokens with
  | nil => rfl
  | cons t tokens ih =>
      rw [List.forall_mem_cons] at hone hne
      have hrest := ih hone.2 hne.2
      rw [List.map_cons, List.flatMap_cons]
      rcases hwords : words t with - | ⟨word, - | ⟨word', more⟩⟩
      · exact hrest
      · have hword : word ≠ [] := by
          rintro rfl
          exact hne.1 (by simp [hwords])
        simp [hrest, hword]
      · simp [hwords] at hone

/-- **What the tokens hold are the words**, one by one. -/
theorem filter_map_held (h : Span.Chain a tokens b) (hplaced : Placed isWord offset text placed)
    (ha : a ≤ offset) (hb : offset + (Utf8.encode text).length ≤ b)
    (hchars : ∀ c ∈ text, isWord c = true ∨ c = '_') (hunderscore : ¬ isWord '_' = true)
    (haligned : Aligned tokens placed) :
    (tokens.map (held offset text)).filter (!·.isEmpty) = placed.map Prod.fst := by
  have hpos (x : List Char × Span) (hx : x ∈ placed) : x.2.start < x.2.stop :=
    (hplaced.bounds hx).2.1
  have hheld : tokens.map (held offset text)
      = tokens.map fun t => ((placed.filter fun x => t.contains x.2).map Prod.fst).flatten :=
    List.map_congr_left fun t ht =>
      held_eq_flatten hplaced hchars hunderscore ht haligned.uncut
  have hone (t : Span) (ht : t ∈ tokens) :
      ((placed.filter fun x => t.contains x.2).map Prod.fst).length ≤ 1 := by
    rw [List.length_map]
    exact length_filter_contains_le_one h haligned.between.pairwise hpos ht
  have hne (t : Span) (_ : t ∈ tokens) :
      [] ∉ (placed.filter fun x => t.contains x.2).map Prod.fst := by
    intro hmem
    obtain ⟨x, hx, hempty⟩ := List.mem_map.mp hmem
    exact hplaced.ne_nil (List.mem_filter.mp hx).1 hempty
  have hall : placed.filter (fun x => tokens.any (·.contains x.2)) = placed := by
    rw [List.filter_eq_self]
    intro x hx
    rw [List.any_eq_true]
    have hbounds := hplaced.bounds hx
    exact h.exists_contains (hpos x hx) (by omega) (by omega) (haligned.uncut x hx)
  rw [hheld, filter_map_flatten hone hne, ← List.map_flatMap,
    h.flatMap_filter hpos hplaced.pairwise, hall]

end IdentifierSplits

open IdentifierSplits

/-- **Aligned tokens score one.**  The words of an identifier stand in it, with nothing but
underscores between them.  If no token boundary lies inside a word, and at least one lies
between any two words that follow each other, the clipped split of the identifier is the
list of its words, and their similarity is one, exactly, also in floating point. -/
theorem scoreIdentifiers_aligned (extra : List (List Char)) {d : Document}
    {tokens : List Span} (hcover : checkCover tokens d.length = .ok ())
    {identifier : SyntaxToken} {text : List Char}
    (htext : d.bytes identifier.span = .ok (Utf8.encode text))
    (hchars : ∀ c ∈ text, CharTests.unicode.isWord c = true ∨ c = '_')
    (hword : ∃ c ∈ text, CharTests.unicode.isWord c = true) :
    (∃ placed, Placed CharTests.unicode.isWord identifier.span.start text placed ∧
      placed.map Prod.fst = (wordSplitter extra).split text) ∧
    ∀ placed, Placed CharTests.unicode.isWord identifier.span.start text placed →
      placed.map Prod.fst = (wordSplitter extra).split text → Aligned tokens placed →
      ∀ (α : Type) [Scalar α] (identifiers : List SyntaxToken) (deadline : Deadline),
        (deadline ≠ .expired → ∃ scores, scoreIdentifiers α d identifiers tokens
          (wordSplitter extra).split deadline = .ok scores) ∧
        ∀ scores, scoreIdentifiers α d identifiers tokens (wordSplitter extra).split deadline
            = .ok scores →
          (identifier ∈ identifiers →
            ∃ splits ∈ scores.splits, splits.identifier = identifier) ∧
          ∀ splits ∈ scores.splits, splits.identifier = identifier →
            splits.authoritative = (wordSplitter extra).split text ∧
            splits.clipped = splits.authoritative ∧
            jaccard ℚ splits.clipped splits.authoritative = 1 ∧
            jaccard Float splits.clipped splits.authoritative = 1 := by
  have hchain := checkCover_eq_ok_iff.mp hcover
  have hlength := Document.start_add_length htext
  refine ⟨(wordSplitter extra).exists_placed_split _ text, ?_⟩
  intro placed hplaced hpieces haligned α _ identifiers deadline
  refine ⟨exists_scoreIdentifiers_eq_ok α d identifiers tokens _, ?_⟩
  intro scores hscores
  rw [splits_of_scoreIdentifiers_eq_ok hscores]
  refine ⟨?_, ?_⟩
  · intro hmem
    have hrecord : of? d tokens.toArray (wordSplitter extra).split identifier = some _ :=
      of?_eq_some_iff.mpr ⟨text, htext, rfl⟩
    exact ⟨_, List.mem_filterMap.mpr ⟨identifier, hmem, hrecord⟩, rfl⟩
  intro splits hsplits hidentifier
  -- the record is the one of the identifier, and its text is the one given
  obtain ⟨identifier', -, hone⟩ := List.mem_filterMap.mp hsplits
  obtain ⟨text', htext', rfl⟩ := of?_eq_some_iff.mp hone
  obtain rfl : identifier' = identifier := hidentifier
  obtain rfl : text' = text := Document.text_unique htext' htext
  have hclipped : (ofIdentifier d tokens.toArray (wordSplitter extra).split identifier'
      text').clipped = (wordSplitter extra).split text' := by
    rw [clipped_eq hchain htext', ← hpieces]
    exact filter_map_held hchain hplaced (Nat.zero_le _) (by omega) hchars (by decide +kernel)
      haligned
  have hne := (wordSplitter extra).split_ne_nil hword
  have hsmall : ((wordSplitter extra).split text').length < 2 ^ 53 := by
    have := (wordSplitter extra).length_split_le text'
    have := Utf8.length_le_length_encode text'
    have hsize : d.length ≤ 0xFFFFFFFF := d.size_le
    omega
  refine ⟨rfl, hclipped, ?_, ?_⟩
  · rw [hclipped]
    exact jaccard_rat_self hne
  · rw [hclipped]
    exact jaccard_float_self hne hsmall

/-- The text `(a1_Bé)`. -/
def bracketedName : Document :=
  ⟨.python, #[0x28, 0x61, 0x31, 0x5F, 0x42, 0xC3, 0xA9, 0x29], by decide⟩

/-- A cover of it whose first and last token reach over the ends of the name, with an empty
token and one that is an underscore. -/
def bracketedTokens : List Span :=
  [⟨0, 3, by decide⟩, ⟨3, 3, by decide⟩, ⟨3, 4, by decide⟩, ⟨4, 8, by decide⟩]

/-- The name between the brackets. -/
def bracketedIdentifier : SyntaxToken := ⟨⟨1, 7, by decide⟩, "identifier"⟩

theorem scoreIdentifiers_aligned_bracketed :
    checkCover bracketedTokens bracketedName.length = .ok () ∧
    ∃ scores, scoreIdentifiers Float bracketedName [bracketedIdentifier] bracketedTokens
        (wordSplitter []).split .unbounded = .ok scores ∧
      ∃ splits ∈ scores.splits, splits.clipped = [['a', '1'], ['B', 'é']] ∧
        jaccard Float splits.clipped splits.authoritative = 1 := by
  have hcover : checkCover bracketedTokens bracketedName.length = .ok () := by decide
  have hsplit : (wordSplitter []).split ['a', '1', '_', 'B', 'é']
      = [['a', '1'], ['B', 'é']] := by decide +kernel
  have hfirstWord : ∀ c ∈ ['a', '1'], CharTests.unicode.isWord c = true :=
    List.all_eq_true.mp (by decide +kernel)
  have hlastWord : ∀ c ∈ ['B', 'é'], CharTests.unicode.isWord c = true :=
    List.all_eq_true.mp (by decide +kernel)
  have hlast : Placed CharTests.unicode.isWord 4 (['B', 'é'] ++ [])
      [(['B', 'é'], ⟨4, 7, by decide⟩)] := .piece (by decide) hlastWord .done
  have hplaced : Placed CharTests.unicode.isWord 1 (['a', '1'] ++ ['_', 'B', 'é'])
      [(['a', '1'], ⟨1, 3, by decide⟩), (['B', 'é'], ⟨4, 7, by decide⟩)] :=
    .piece (by decide) hfirstWord (.skip (by decide +kernel) hlast)
  have hbetween : BoundaryBetween bracketedTokens (['a', '1'], ⟨1, 3, by decide⟩)
      (['B', 'é'], ⟨4, 7, by decide⟩) := ⟨3, by decide, by decide, by decide⟩
  have haligned : Aligned bracketedTokens
      [(['a', '1'], ⟨1, 3, by decide⟩), (['B', 'é'], ⟨4, 7, by decide⟩)] :=
    ⟨by decide, .cons_cons hbetween (.singleton _)⟩
  have htext : bracketedName.bytes bracketedIdentifier.span
      = .ok (Utf8.encode ['a', '1', '_', 'B', 'é']) := rfl
  have hchars : ∀ c ∈ ['a', '1', '_', 'B', 'é'],
      CharTests.unicode.isWord c = true ∨ c = '_' := by
    have hall : (['a', '1', '_', 'B', 'é'].all fun c =>
        CharTests.unicode.isWord c || c = '_') = true := by decide +kernel
    intro c hc
    simpa using List.all_eq_true.mp hall c hc
  have hword : ∃ c ∈ ['a', '1', '_', 'B', 'é'], CharTests.unicode.isWord c = true :=
    ⟨'a', by simp, hfirstWord 'a' (by simp)⟩
  have h := (scoreIdentifiers_aligned [] hcover htext hchars hword).2 _ hplaced hsplit.symm
    haligned Float [bracketedIdentifier] .unbounded
  obtain ⟨scores, hscores⟩ := h.1 (by decide)
  obtain ⟨hexists, hrecords⟩ := h.2 scores hscores
  obtain ⟨splits, hsplits, hidentifier⟩ := hexists (List.mem_singleton_self _)
  obtain ⟨hwords, hclipped, -, hone⟩ := hrecords splits hsplits hidentifier
  refine ⟨hcover, scores, hscores, splits, hsplits, ?_, hone⟩
  rw [hclipped, hwords, hsplit]

end TokenAlignment
