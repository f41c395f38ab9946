/-
TokenAlignment/Proofs/Score/FrequencyLaws.lean

The laws of tables of frequencies.

    ofPieces? a ⊔ ofPieces? b   =  ofPieces? (a ++ b)           ⊔ for the merge of tables
    seed v (f ⊔ g)              =  seed v f ⊔ g  =  f ⊔ seed v g
    seed v (addDocument f d)    =  addDocument (seed v f) d

Both sides of a law fail together, and otherwise give the same table.

Design.  A table of pieces holds them and no others, and counts each (`IsTableOf`); there is one
at most, and it is what counting the pieces one by one leads to (`ofPieces?_eq_some_iff`).  The
laws of merging are then about lists of pieces.  A piece of a vocabulary may be held at count
zero, which no count shows; so the laws of `seed` are about sums of tables
(`isSum_seed_left_iff`).

Main results: `ofPieces?_merge`, and the laws of `seed`.
-/
import TokenAlignment.Proofs.Score.Frequencies

namespace TokenAlignment

namespace TokenFrequencies

/-! ### Tables of pieces -/

/-- The table counts some pieces, and holds no others. -/
structure IsTableOf (f : TokenFrequencies) (pieces : List (List UInt8)) : Prop extends
    f.Tallies pieces where
  mem_iff : ∀ piece, piece ∈ f.counts ↔ piece ∈ pieces

section IsTableOf

variable {f g : TokenFrequencies} {pieces more : List (List UInt8)} {piece : List UInt8}

theorem isTableOf_empty : empty.IsTableOf [] :=
  ⟨tallies_empty, fun piece => by simp [empty]⟩

theorem isTableOf_single (piece : List UInt8) : (single piece).IsTableOf [piece] :=
  ⟨tallies_single piece, fun other => by rw [mem_single, List.mem_singleton]⟩

theorem IsTableOf.unique (h : f.IsTableOf pieces) (h' : g.IsTableOf pieces) : f = g := by
  refine ext_count (fun piece => ?_) (fun piece => ?_) ?_
  · rw [h.mem_iff, h'.mem_iff]
  · rw [← UInt64.toNat_inj, h.count_eq, h'.count_eq]
  · rw [← UInt64.toNat_inj, h.total_eq, h'.total_eq]

theorem IsTableOf.perm (h : f.IsTableOf pieces) (hperm : pieces.Perm more) :
    f.IsTableOf more where
  count_eq piece := by rw [h.count_eq, hperm.count_eq]
  total_eq := by rw [h.total_eq, hperm.length_eq]
  mem_iff piece := by rw [h.mem_iff, hperm.mem_iff]

/-- **The sum of two tables** is that of the pieces of both. -/
theorem IsTableOf.isSum_iff (h : f.IsTableOf pieces) (h' : g.IsTableOf more)
    {sum : TokenFrequencies} : IsSum f g sum ↔ sum.IsTableOf (pieces ++ more) := by
  have htable : ∀ sum, IsSum f g sum → sum.IsTableOf (pieces ++ more) := fun sum hsum =>
    ⟨h.toTallies.sum h'.toTallies hsum, fun piece => by
      rw [hsum.mem_iff, h.mem_iff, h'.mem_iff, List.mem_append]⟩
  refine ⟨htable sum, fun hsum => ?_⟩
  obtain ⟨sum', hsum'⟩ := h.toTallies.exists_isSum h'.toTallies hsum.length_lt
  exact hsum.unique (htable sum' hsum') ▸ hsum'

end IsTableOf

/-- Pieces have a table if their number fits. -/
theorem exists_isTableOf {pieces : List (List UInt8)} (h : pieces.length < 2 ^ 64) :
    ∃ f : TokenFrequencies, f.IsTableOf pieces := by
  induction pieces using List.reverseRecOn with
  | nil => exact ⟨empty, isTableOf_empty⟩
  | append_singleton pieces piece ih =>
      obtain ⟨f, hf⟩ := ih (Nat.lt_of_le_of_lt (by simp) h)
      have hpiece := isTableOf_single piece
      obtain ⟨sum, hsum⟩ := hf.exists_isSum hpiece.toTallies h
      exact ⟨sum, (hf.isSum_iff hpiece).mp hsum⟩

/-- Fewer pieces than those of a table have a table too. -/
theorem IsTableOf.exists_of_le {f : TokenFrequencies} {pieces fewer : List (List UInt8)}
    (h : f.IsTableOf pieces) (hle : fewer.length ≤ pieces.length) :
    ∃ g : TokenFrequencies, g.IsTableOf fewer :=
  exists_isTableOf (Nat.lt_of_le_of_lt hle h.length_lt)

/-! ### Counting one by one -/

/-- Counts some pieces, one after another. -/
def addPieces? (f : TokenFrequencies) (pieces : List (List UInt8)) : Option TokenFrequencies :=
  pieces.foldlM addPiece? f

/-- The table that counts some pieces. -/
def ofPieces? (pieces : List (List UInt8)) : Option TokenFrequencies :=
  addPieces? .empty pieces

section OfPieces

variable {f : TokenFrequencies} {pieces more : List (List UInt8)}

theorem addPieces?_append (f : TokenFrequencies) (pieces more : List (List UInt8)) :
    f.addPieces? (pieces ++ more) = (f.addPieces? pieces).bind (·.addPieces? more) := by
  simp only [addPieces?, List.foldlM_append]
  rfl

/-- **Pieces that are counted one by one** make up the table of them. -/
theorem ofPieces?_eq_some_iff : ofPieces? pieces = some f ↔ f.IsTableOf pieces := by
  induction pieces using List.reverseRecOn generalizing f with
  | nil =>
      show some empty = some f ↔ _
      rw [Option.some.injEq]
      exact ⟨fun h => h ▸ isTableOf_empty, isTableOf_empty.unique⟩
  | append_singleton pieces piece ih =>
      rw [ofPieces?, addPieces?_append, Option.bind_eq_some_iff]
      constructor
      · rintro ⟨g, hg, hpiece⟩
        have hsum : IsSum g (single piece) f :=
          addPiece?_eq_some_iff.mp (by simpa [addPieces?] using hpiece)
        exact ((ih.mp hg).isSum_iff (isTableOf_single piece)).mp hsum
      · intro h
        obtain ⟨g, hg⟩ : ∃ g : TokenFrequencies, g.IsTableOf pieces :=
          h.exists_of_le (by simp)
        refine ⟨g, ih.mpr hg, ?_⟩
        have hsum := (hg.isSum_iff (isTableOf_single piece)).mpr h
        simpa [addPieces?] using addPiece?_eq_some_iff.mpr hsum

/-- Pieces have a table just if their number fits. -/
theorem isSome_ofPieces?_iff : (ofPieces? pieces).isSome ↔ pieces.length < 2 ^ 64 := by
  rw [Option.isSome_iff_exists]
  simp only [ofPieces?_eq_some_iff]
  exact ⟨fun ⟨_, hf⟩ => hf.length_lt, exists_isTableOf⟩

/-- **The order of the pieces does not matter.** -/
theorem ofPieces?_perm (h : pieces.Perm more) : ofPieces? pieces = ofPieces? more := by
  refine Option.ext fun f => ?_
  rw [ofPieces?_eq_some_iff, ofPieces?_eq_some_iff]
  exact ⟨(·.perm h), (·.perm h.symm)⟩

/-- **A merge counts the pieces of both tables.** -/
theorem ofPieces?_merge (pieces more : List (List UInt8)) :
    (do (← ofPieces? pieces).merge? (← ofPieces? more)) = ofPieces? (pieces ++ more) := by
  refine Option.ext fun sum => ?_
  simp only [Option.bind_eq_bind, Option.bind_eq_some_iff, ofPieces?_eq_some_iff,
    merge?_eq_some_iff]
  constructor
  · rintro ⟨f, hf, g, hg, hsum⟩
    exact (hf.isSum_iff hg).mp hsum
  · intro h
    obtain ⟨f, hf⟩ : ∃ f : TokenFrequencies, f.IsTableOf pieces := h.exists_of_le (by simp)
    obtain ⟨g, hg⟩ : ∃ g : TokenFrequencies, g.IsTableOf more := h.exists_of_le (by simp)
    exact ⟨f, hf, g, hg, (hf.isSum_iff hg).mpr h⟩

/-- More pieces are tallied too. -/
theorem Tallies.addPieces (h : f.Tallies pieces) {g : TokenFrequencies}
    (hadd : f.addPieces? more = some g) : g.Tallies (pieces ++ more) := by
  induction more generalizing f pieces with
  | nil =>
      obtain rfl : f = g := Option.some.inj hadd
      rwa [List.append_nil]
  | cons piece more ih =>
      rw [addPieces?, List.foldlM_cons, Option.bind_eq_bind, Option.bind_eq_some_iff] at hadd
      obtain ⟨f', hpiece, hrest⟩ := hadd
      rw [List.append_cons]
      exact ih (h.sum (tallies_single piece) (addPiece?_eq_some_iff.mp hpiece)) hrest

/-- A document is counted by the pieces of its tokens. -/
theorem addDocument?_eq (f : TokenFrequencies) (d : Document) (tokens : List Span) :
    f.addDocument? d tokens = f.addPieces? (d.tokenPieces tokens) := by
  rw [addDocument?, addPieces?, Document.tokenPieces]
  induction tokens generalizing f with
  | nil => rfl
  | cons token tokens ih =>
      rw [List.foldlM_cons, addToken?]
      rcases htoken : d.bytes token with e | piece
      · simpa [htoken, Except.toOption] using ih f
      · simp [htoken, Except.toOption, ih]

end OfPieces

/-! ### Vocabularies -/

section Seed

variable {f g sum : TokenFrequencies}

theorem IsSum.seed (h : IsSum f g sum) (vocabulary : List (List UInt8)) :
    IsSum (f.seed vocabulary) g (sum.seed vocabulary) where
  mem_iff piece := by
    rw [mem_seed, mem_seed, h.mem_iff]
    tauto
  count_eq piece := by rw [count_seed, count_seed, h.count_eq]
  total_eq := h.total_eq

/-- **A vocabulary may be put into a part of a sum or into the sum.** -/
theorem isSum_seed_left_iff {vocabulary : List (List UInt8)} :
    IsSum (f.seed vocabulary) g sum ↔
      ∃ sum', IsSum f g sum' ∧ sum'.seed vocabulary = sum := by
  constructor
  · intro h
    -- the vocabulary shows in no count, so what fits with it fits without it
    obtain ⟨hcounts, htotal⟩ := exists_isSum_iff.mp ⟨sum, h⟩
    simp only [count_seed, total_seed] at hcounts htotal
    obtain ⟨sum', hsum'⟩ := exists_isSum_iff.mpr ⟨hcounts, htotal⟩
    exact ⟨sum', hsum', (hsum'.seed vocabulary).unique h⟩
  · rintro ⟨sum', hsum', rfl⟩
    exact hsum'.seed vocabulary

variable (f g) (vocabulary : List (List UInt8))

theorem merge?_comm : f.merge? g = g.merge? f := by
  refine Option.ext fun sum => ?_
  rw [merge?_eq_some_iff, merge?_eq_some_iff]
  exact ⟨IsSum.comm, IsSum.comm⟩

/-- **A vocabulary may be put into a table before or after a merge**, ... -/
theorem seed_merge? :
    (f.seed vocabulary).merge? g = (f.merge? g).map (·.seed vocabulary) := by
  refine Option.ext fun sum => ?_
  simp only [Option.map_eq_some_iff, merge?_eq_some_iff, isSum_seed_left_iff]

/-- ... and into either of the two tables. -/
theorem merge?_seed :
    f.merge? (g.seed vocabulary) = (f.merge? g).map (·.seed vocabulary) := by
  rw [merge?_comm, seed_merge?, merge?_comm]

theorem seed_addPiece? (piece : List UInt8) :
    (f.seed vocabulary).addPiece? piece = (f.addPiece? piece).map (·.seed vocabulary) := by
  rw [addPiece?_eq_merge?, addPiece?_eq_merge?, seed_merge?]

/-- **A vocabulary may be put in before or after a document.** -/
theorem seed_addDocument? (d : Document) (tokens : List Span) :
    (f.seed vocabulary).addDocument? d tokens
      = (f.addDocument? d tokens).map (·.seed vocabulary) := by
  rw [addDocument?_eq, addDocument?_eq]
  induction d.tokenPieces tokens generalizing f with
  | nil => rfl
  | cons piece pieces ih =>
      rw [addPieces?, addPieces?, List.foldlM_cons, List.foldlM_cons, seed_addPiece?]
      rcases f.addPiece? piece with - | f'
      · rfl
      · exact ih f'

/-- A vocabulary is put in once. -/
theorem seed_seed : (f.seed vocabulary).seed vocabulary = f.seed vocabulary := by
  refine ext_count (fun piece => ?_) (fun piece => ?_) rfl
  · rw [mem_seed, mem_seed, or_assoc, or_self]
  · rw [count_seed]

/-- Pieces at count zero do not occur. -/
theorem unique_seed : (f.seed vocabulary).unique = f.unique := by
  have hunique (f : TokenFrequencies) :
      f.unique = (f.counts.keys.filter fun piece => 0 < f.count piece).length := by
    rw [unique, values_eq, List.filter_map, List.length_map]
    rfl
  have hheld {f : TokenFrequencies} {piece : List UInt8} (h : 0 < f.count piece) :
      piece ∈ f.counts.keys := by
    by_contra hmissing
    rw [count_of_notMem hmissing] at h
    exact absurd h (by decide)
  rw [hunique, hunique]
  apply List.Perm.length_eq
  rw [List.perm_ext_iff_of_nodup (Std.ExtTreeMap.nodup_keys.filter _)
    (Std.ExtTreeMap.nodup_keys.filter _)]
  intro piece
  simp only [List.mem_filter, decide_eq_true_eq, count_seed]
  constructor
  · rintro ⟨-, hpos⟩
    exact ⟨hheld hpos, hpos⟩
  · rintro ⟨-, hpos⟩
    exact ⟨hheld (by rwa [count_seed]), hpos⟩

end Seed

end TokenFrequencies

end TokenAlignment
