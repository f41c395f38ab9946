/-
TokenAlignment/Proofs/Score/FrequencySummary.lean

The summary of a table of frequencies is a matter of which pieces it holds and how often it
counts each,

    total  =  Σ (counts)               average  =  total / pieces that occur
    rarest =  the first n of the ranking,      most frequent  =  the last n, backwards

where the ranking has the pieces that occur, in increasing order of their counts and, for one
count, of their bytes.

Design.  The order of a ranking is strict, so its members determine it (`Ranking.unique`): it does
not matter in which order the entries were put in or are listed, nor which sort is used.  Whatever
fills a table, it tallies some list of pieces (`Filled.exists_tallies`), so its total is the sum
of its counts.

In exact arithmetic the average times the pieces that occur is the total.  In floating-point
numbers it is the nearest number to the quotient, and the product need not be the total
(`average_rounded`).

Main result: `summary_of_counts`.
-/
import TokenAlignment.Proofs.Score.FloatQuotient
import TokenAlignment.Proofs.Score.FrequencyLaws
import TokenAlignment.Proofs.Tokenizer.Bytes
import Mathlib.Data.Set.Card

namespace TokenAlignment

/-! ### Orders -/

/-- A stable sort keeps the order of elements that it does not tell apart. -/
theorem pairwise_mergeSort_of_pairwise {β : Type} {le : β → β → Bool}
    (htrans : ∀ a b c, le a b = true → le b c = true → le a c = true)
    (htotal : ∀ a b, (le a b || le b a) = true) {R : β → β → Prop} {l : List β}
    (h : l.Pairwise R) :
    (l.mergeSort le).Pairwise fun a b => le a b = true ∧ (le b a = true → R a b) := by
  -- the sort is the one that breaks ties by the place in the list
  rw [← List.mergeSort_zipIdx, List.pairwise_map]
  have hsorted := List.pairwise_mergeSort (List.zipIdxLE_trans htrans)
    (List.zipIdxLE_total htotal) l.zipIdx
  have hperm := List.mergeSort_perm l.zipIdx (List.zipIdxLE le)
  have hplaces : (l.zipIdx.mergeSort (List.zipIdxLE le)).Pairwise fun a b => a.2 ≠ b.2 := by
    rw [← List.pairwise_map (f := Prod.snd) (R := (· ≠ ·))]
    refine (hperm.map Prod.snd).nodup_iff.mpr ?_
    rw [List.zipIdx_map_snd]
    exact List.nodup_range'
  refine (hsorted.and hplaces).imp_of_mem ?_
  rintro ⟨a, i⟩ ⟨b, j⟩ ha hb ⟨hle, hne⟩
  rw [hperm.mem_iff, List.mem_zipIdx_iff_getElem?, List.getElem?_eq_some_iff] at ha hb
  dsimp only at ha hb hne ⊢
  obtain ⟨hi, rfl⟩ := ha
  obtain ⟨hj, rfl⟩ := hb
  have hab : le l[i] l[j] = true := by
    by_contra hab
    simp [List.zipIdxLE, hab] at hle
  refine ⟨hab, fun hba => List.pairwise_iff_getElem.mp h i j hi hj ?_⟩
  have hij : i ≤ j := by simpa [List.zipIdxLE, hab, hba] using hle
  exact Nat.lt_of_le_of_ne hij hne

theorem compare_eq_lt_iff_lt (a b : List UInt8) : compare a b = .lt ↔ a < b := by
  show List.compareLex compare a b = .lt ↔ a < b
  induction a generalizing b with
  | nil => cases b <;> simp [List.compareLex_nil_nil, List.compareLex_nil_cons]
  | cons x a ih =>
      rcases b with - | ⟨y, b⟩
      · simp [List.compareLex_cons_nil]
      · rw [List.compareLex_cons_cons, Ordering.then_eq_lt, Std.compare_eq_lt,
          Std.compare_eq_iff_eq, ih, List.cons_lt_cons_iff]

namespace TokenFrequencies

/-! ### Rankings -/

/-- The order of a ranking: by count, and those of one count by their bytes. -/
def Precedes (a b : List UInt8 × UInt64) : Prop :=
  a.2 < b.2 ∨ a.2 = b.2 ∧ a.1 < b.1

theorem Precedes.asymm {a b : List UInt8 × UInt64} (h : Precedes a b) : ¬ Precedes b a := by
  rcases h with h | ⟨h, hlt⟩
  · rintro (h' | ⟨h', -⟩)
    · exact UInt64.lt_asymm h h'
    · exact UInt64.lt_irrefl _ (h' ▸ h)
  · rintro (h' | ⟨-, hlt'⟩)
    · exact UInt64.lt_irrefl _ (h ▸ h')
    · exact List.lt_asymm hlt hlt'

theorem precedes_of_not {a b : List UInt8 × UInt64} (hne : a.1 ≠ b.1) (h : ¬ Precedes b a) :
    Precedes a b := by
  rw [Precedes, not_or, not_and, UInt64.not_lt] at h
  rcases UInt64.lt_or_eq_of_le h.1 with hlt | heq
  · exact .inl hlt
  · refine .inr ⟨heq, ?_⟩
    by_contra hnot
    exact hne (List.le_antisymm (h.2 heq.symm) hnot)

/-- The pieces that occur, each with its count, in increasing order. -/
structure Ranking (f : TokenFrequencies) (ranked : List (List UInt8 × UInt64)) : Prop where
  mem_iff : ∀ entry, entry ∈ ranked ↔ f.count entry.1 = entry.2 ∧ 0 < entry.2
  increasing : ranked.Pairwise Precedes

section Ranking

variable {f : TokenFrequencies} {ranked ranked' : List (List UInt8 × UInt64)}

theorem Ranking.nodup (h : f.Ranking ranked) : ranked.Nodup :=
  h.increasing.imp fun hlt => by
    rintro rfl
    exact hlt.asymm hlt

/-- **There is one ranking**, whatever sort finds it. -/
theorem Ranking.unique (h : f.Ranking ranked) (h' : f.Ranking ranked') : ranked = ranked' := by
  have hperm : ranked.Perm ranked' := by
    rw [List.perm_ext_iff_of_nodup h.nodup h'.nodup]
    exact fun entry => (h.mem_iff entry).trans (h'.mem_iff entry).symm
  exact hperm.eq_of_pairwise (fun _ _ _ _ hab hba => absurd hba hab.asymm) h.increasing
    h'.increasing

/-- Pieces are told apart by their bytes alone. -/
theorem Ranking.nodup_pieces (h : f.Ranking ranked) : (ranked.map Prod.fst).Nodup := by
  refine h.nodup.map_on fun a ha b hb hpiece => ?_
  have hcount : a.2 = b.2 := by
    rw [← ((h.mem_iff a).mp ha).1, ← ((h.mem_iff b).mp hb).1, hpiece]
  exact Prod.ext hpiece hcount

/-- A ranking has as many entries with a property of the count as there are such pieces. -/
theorem Ranking.length_filter (h : f.Ranking ranked) (p : UInt64 → Bool) :
    (ranked.filter fun entry => p entry.2).length
      = {piece | 0 < f.count piece ∧ p (f.count piece) = true}.ncard := by
  -- the pieces of these entries, of which there is one each
  have hset : {piece | 0 < f.count piece ∧ p (f.count piece) = true}
      = (((ranked.filter fun entry => p entry.2).map Prod.fst).toFinset : Set (List UInt8)) := by
    ext piece
    simp only [Set.mem_ofPred_eq, List.coe_toFinset, List.mem_map, List.mem_filter, h.mem_iff]
    constructor
    · exact fun hpiece => ⟨(piece, f.count piece), ⟨⟨rfl, hpiece.1⟩, hpiece.2⟩, rfl⟩
    · rintro ⟨entry, ⟨⟨hcount, hpos⟩, hp⟩, rfl⟩
      rw [hcount]
      exact ⟨hpos, hp⟩
  rw [hset, Set.ncard_coe_finset, List.toFinset_card_of_nodup, List.length_map]
  exact (h.nodup_pieces).sublist ((List.filter_sublist).map Prod.fst)

theorem Ranking.length_eq (h : f.Ranking ranked) :
    ranked.length = {piece | 0 < f.count piece}.ncard := by
  simpa using h.length_filter fun _ => true

/-- **The table ranks its entries.** -/
theorem ranking_ascending (f : TokenFrequencies) : f.Ranking f.ascending where
  mem_iff entry := by
    rw [ascending, List.mem_mergeSort, List.mem_filter, decide_eq_true_eq, and_congr_left_iff]
    intro hpos
    rw [Std.ExtTreeMap.mem_toList_iff_getElem?_eq_some, count]
    constructor
    · intro h
      rw [h]
      rfl
    · intro h
      rcases hentry : f.counts[entry.1]? with - | c
      · rw [hentry] at h
        exact absurd hpos (h ▸ UInt64.lt_irrefl 0)
      · rw [hentry] at h
        exact congrArg some h
  increasing := by
    have hbytes := (Std.ExtTreeMap.ordered_keys_toList (t := f.counts)).filter
      fun entry => decide (0 < entry.2)
    refine (pairwise_mergeSort_of_pairwise ?_ ?_ hbytes).imp ?_
    · intro a b c
      simpa using UInt64.le_trans
    · intro a b
      simpa using UInt64.le_total a.2 b.2
    · rintro a b ⟨hle, hties⟩
      rw [decide_eq_true_eq] at hle hties
      rcases UInt64.lt_or_eq_of_le hle with hlt | heq
      · exact .inl hlt
      · exact .inr ⟨heq, (compare_eq_lt_iff_lt _ _).mp (hties (heq ▸ UInt64.le_refl _))⟩

/-- **Any sort of the entries ends in the ranking**, in whatever order it takes them. -/
theorem Ranking.of_sorted
    (hperm : ranked.Perm (f.counts.toList.filter fun entry => 0 < entry.2))
    (hsorted : ranked.Pairwise fun a b => ¬ Precedes b a) : f.Ranking ranked where
  mem_iff entry := by
    rw [← f.ranking_ascending.mem_iff, hperm.mem_iff, ascending, List.mem_mergeSort]
  increasing := by
    have hpieces : (ranked.map Prod.fst).Nodup := by
      rw [(hperm.map Prod.fst).nodup_iff]
      refine List.Nodup.sublist ((List.filter_sublist).map Prod.fst) ?_
      rw [Std.ExtTreeMap.map_fst_toList_eq_keys]
      exact Std.ExtTreeMap.nodup_keys
    exact (hsorted.and (List.pairwise_map.mp hpieces)).imp fun h => precedes_of_not h.2 h.1

end Ranking

/-! ### Tables that are filled -/

/-- The tables that some documents, merges and vocabularies lead to. -/
inductive Filled : TokenFrequencies → Prop
  | empty : Filled empty
  | addDocument {f g : TokenFrequencies} (h : Filled f) (d : Document) (tokens : List Span)
      (hadd : f.addDocument? d tokens = some g) : Filled g
  | merge {f g sum : TokenFrequencies} (h : Filled f) (h' : Filled g)
      (hmerge : f.merge? g = some sum) : Filled sum
  | seed {f : TokenFrequencies} (h : Filled f) (vocabulary : List (List UInt8)) :
      Filled (f.seed vocabulary)

section Filled

variable {f g : TokenFrequencies}

/-- **A filled table tallies some pieces.** -/
theorem Filled.exists_tallies (h : f.Filled) : ∃ pieces, f.Tallies pieces := by
  induction h with
  | empty => exact ⟨[], tallies_empty⟩
  | addDocument _ d tokens hadd ih =>
      obtain ⟨pieces, hpieces⟩ := ih
      rw [addDocument?_eq] at hadd
      exact ⟨_, hpieces.addPieces hadd⟩
  | merge _ _ hmerge ih ih' =>
      obtain ⟨pieces, hpieces⟩ := ih
      obtain ⟨more, hmore⟩ := ih'
      exact ⟨_, hpieces.sum hmore (merge?_eq_some_iff.mp hmerge)⟩
  | seed _ vocabulary ih =>
      obtain ⟨pieces, hpieces⟩ := ih
      exact ⟨pieces, hpieces.seed vocabulary⟩

/-- **The total of a filled table** is the sum of its counts. -/
theorem Filled.toNat_total (h : f.Filled) : f.total.toNat = f.countSum := by
  obtain ⟨pieces, hpieces⟩ := h.exists_tallies
  rw [hpieces.total_eq, hpieces.countSum_eq]

/-- **A filled table is what it holds and how often it counts it**, its total too. -/
theorem Filled.ext (h : f.Filled) (h' : g.Filled)
    (hmem : ∀ piece, piece ∈ f.counts ↔ piece ∈ g.counts)
    (hcount : ∀ piece, f.count piece = g.count piece) : f = g := by
  obtain ⟨pieces, hpieces⟩ := h.exists_tallies
  obtain ⟨pieces', hpieces'⟩ := h'.exists_tallies
  -- the pieces behind both are the same, in some order
  have hperm : pieces.Perm pieces' := List.perm_iff_count.mpr fun piece => by
    rw [← hpieces.count_eq, ← hpieces'.count_eq, hcount]
  refine ext_count hmem hcount ?_
  rw [← UInt64.toNat_inj, hpieces.total_eq, hpieces'.total_eq, hperm.length_eq]

end Filled

/-! ### The numbers of a summary -/

section Numbers

variable (f : TokenFrequencies)

theorem size_eq_ncard : f.counts.size = {piece | piece ∈ f.counts}.ncard := by
  have hset : {piece | piece ∈ f.counts} = (f.counts.keys.toFinset : Set (List UInt8)) := by
    ext piece
    rw [Set.mem_ofPred_eq, List.coe_toFinset, Set.mem_ofPred_eq, Std.ExtTreeMap.mem_keys]
  rw [hset, Set.ncard_coe_finset, List.toFinset_card_of_nodup Std.ExtTreeMap.nodup_keys,
    Std.ExtTreeMap.length_keys]

theorem length_ascending_le_size : f.ascending.length ≤ f.counts.size := by
  rw [ascending, List.length_mergeSort, ← Std.ExtTreeMap.length_toList]
  exact List.length_filter_le ..

theorem length_filter_ascending {k : UInt64} (hk : 0 < k) :
    (f.ascending.filter fun entry => entry.2 = k).length
      = {piece | f.count piece = k}.ncard := by
  rw [f.ranking_ascending.length_filter fun count => decide (count = k)]
  congr 1
  ext piece
  simp only [Set.mem_ofPred_eq, decide_eq_true_eq, and_iff_right_iff_imp]
  rintro rfl
  exact hk

/-- The ranking has the pieces that the table itself tells to occur. -/
theorem length_ascending : f.ascending.length = f.unique := by
  rw [ascending, List.length_mergeSort, unique, ← map_snd_toList, List.filter_map,
    List.length_map]
  rfl

/-- A piece that occurs is counted. -/
theorem unique_le_countSum : f.unique ≤ f.countSum := by
  rw [unique, countSum]
  induction f.counts.values with
  | nil => exact Nat.le_refl _
  | cons count counts ih =>
      rw [List.filter_cons, List.map_cons, List.sum_cons]
      split
      · rename_i hpos
        have hpos : 0 < count.toNat := UInt64.lt_iff_toNat_lt.mp (of_decide_eq_true hpos)
        rw [List.length_cons]
        omega
      · omega

end Numbers

end TokenFrequencies

/-! ### Summaries -/

/-- No floating-point number is nearer to `q`. -/
def IsNearest (q : ℚ) (x : Float) : Prop :=
  ∃ m e, ∃ h : FloatCount.Nearest q m e,
    x = .ofModel (.pack (.finite .positive m e h.canonical.pos))

/-- The summary tells what the table counts. -/
structure FrequencySummary.Describes {α : Type} [Scalar α] (s : FrequencySummary α)
    (f : TokenFrequencies) (n : Nat) : Prop where
  totalTokens : s.totalTokens.toNat = f.countSum
  uniquePieces : s.uniquePieces = {piece | 0 < f.count piece}.ncard
  entries : s.uniquePieces + s.neverOccurring = {piece | piece ∈ f.counts}.ncard
  average_zero : s.uniquePieces = 0 → s.averageOccurrences = 0
  exactly_length : s.occurringExactly.length = 4
  exactly : ∀ k < 4, s.occurringExactly[k]? = some {piece | (f.count piece).toNat = k + 1}.ncard
  /-- The rarest are the first of the ranking, and the most frequent the last. -/
  ranked : ∃ ranked, f.Ranking ranked ∧ ranked.length = s.uniquePieces ∧
    s.rarest = (ranked.take n).map TokenFrequencies.readable ∧
    s.mostFrequent = (ranked.reverse.take n).map TokenFrequencies.readable
  /-- It does not matter in what order the entries are taken, nor how they are sorted. -/
  any_sort : ∀ ranked : List (List UInt8 × UInt64),
    ranked.Perm (f.counts.toList.filter fun entry => 0 < entry.2) →
    ranked.Pairwise (fun a b => ¬ TokenFrequencies.Precedes b a) →
    s.rarest = (ranked.take n).map TokenFrequencies.readable ∧
    s.mostFrequent = (ranked.reverse.take n).map TokenFrequencies.readable

/-- All pieces backwards. -/
theorem FrequencySummary.Describes.reverse {α : Type} [Scalar α] {s : FrequencySummary α}
    {f : TokenFrequencies} {n : Nat} (h : s.Describes f n) (hall : s.uniquePieces ≤ n) :
    s.mostFrequent = s.rarest.reverse := by
  obtain ⟨ranked, -, hlength, hrarest, hmost⟩ := h.ranked
  rw [← hlength] at hall
  have hall' : ranked.reverse.length ≤ n := by rwa [List.length_reverse]
  rw [hrarest, hmost, List.take_of_length_le hall, List.take_of_length_le hall',
    List.map_reverse]

namespace TokenFrequencies

variable {f : TokenFrequencies}

/-- A table without pieces that occur has the total zero. -/
theorem Filled.total_eq_zero (h : f.Filled) (hnone : f.ascending.length = 0) :
    f.total.toNat = 0 := by
  obtain ⟨pieces, hpieces⟩ := h.exists_tallies
  rw [hpieces.total_eq, List.length_eq_zero_iff, List.eq_nil_iff_forall_not_mem]
  intro piece hpiece
  have hpos : 0 < f.count piece := by
    rw [UInt64.lt_iff_toNat_lt, hpieces.count_eq]
    exact List.count_pos_iff.mpr hpiece
  have hmem := (f.ranking_ascending.mem_iff (piece, f.count piece)).mpr ⟨rfl, hpos⟩
  rw [List.length_eq_zero_iff.mp hnone] at hmem
  exact List.not_mem_nil hmem

/-- The average is that of the pieces that occur, also if there are none. -/
theorem Filled.average_mul (h : f.Filled) :
    Scalar.ratio ℚ f.total.toNat f.ascending.length * f.ascending.length = f.total.toNat := by
  rcases Nat.eq_zero_or_pos f.ascending.length with hnone | hpos
  · rw [hnone, h.total_eq_zero hnone]
    exact mul_zero _
  · rw [Scalar.ratio, if_neg hpos.ne']
    exact div_mul_cancel₀ _ (Nat.cast_ne_zero.mpr hpos.ne')

/-- A floating-point average is the nearest number, for counts that have no more digits. -/
theorem Filled.average_isNearest (h : f.Filled) (hpos : 0 < f.ascending.length)
    (hfits : f.countSum < 2 ^ 53) :
    IsNearest (f.total.toNat / f.ascending.length)
      (Scalar.ratio Float f.total.toNat f.ascending.length) := by
  have hle : f.ascending.length ≤ f.countSum := f.length_ascending ▸ f.unique_le_countSum
  rw [Scalar.ratio, if_neg hpos.ne', h.toNat_total]
  exact FloatCount.exists_nearest_div (Nat.lt_of_lt_of_le hpos hle) hfits hpos
    (Nat.lt_of_le_of_lt hle hfits)

/-- **The summary of a filled table describes it.** -/
theorem describes_summary (h : f.Filled) (α : Type) [Scalar α] (n : Nat) :
    (f.summary α n).Describes f n where
  totalTokens := h.toNat_total
  uniquePieces := f.ranking_ascending.length_eq
  entries := by
    rw [← size_eq_ncard]
    exact Nat.add_sub_cancel' f.length_ascending_le_size
  average_zero hnone := if_pos hnone
  exactly_length := rfl
  exactly k hk := by
    have hwords : (f.summary α n).occurringExactly
        = (List.range 4).map fun k =>
            (f.ascending.filter fun entry => entry.2 = UInt64.ofNat (k + 1)).length := rfl
    have hword : (UInt64.ofNat (k + 1)).toNat = k + 1 := by
      rw [UInt64.toNat_ofNat']
      omega
    have hpos : 0 < UInt64.ofNat (k + 1) := by
      rw [UInt64.lt_iff_toNat_lt, hword]
      exact Nat.succ_pos k
    have hset : {piece | f.count piece = UInt64.ofNat (k + 1)}
        = {piece | (f.count piece).toNat = k + 1} := by
      ext piece
      rw [Set.mem_ofPred_eq, Set.mem_ofPred_eq, ← UInt64.toNat_inj, hword]
    rw [hwords, List.getElem?_map, List.getElem?_range hk, Option.map_some,
      length_filter_ascending f hpos, hset]
  ranked := ⟨f.ascending, f.ranking_ascending, rfl, rfl, rfl⟩
  any_sort ranked hperm hsorted := by
    rw [(Ranking.of_sorted hperm hsorted).unique f.ranking_ascending]
    exact ⟨rfl, rfl⟩

/-- **What a summary tells, and of what.**  Of two filled tables with the same pieces and the
same counts it is the same.  Its total is the sum of the counts, and its pieces are those with a
positive count; the others of the table never occur.  Four numbers tell how many pieces occur
once to four times.  The rarest are the first `n` of the ranking, and the most frequent the last
`n` backwards, whichever sort finds them; so each list is the other one backwards, once `n` is
large enough for all.  In exact arithmetic the average times the number of pieces is the total;
in floating-point numbers it is the nearest number to the quotient, for counts below `2 ^ 53`
together; and it is zero if nothing occurs. -/
theorem summary_of_counts (h : f.Filled) (n : Nat) :
    (∀ (α : Type) [Scalar α] (g : TokenFrequencies), g.Filled →
      (∀ piece, piece ∈ f.counts ↔ piece ∈ g.counts) →
      (∀ piece, f.count piece = g.count piece) → f.summary α n = g.summary α n) ∧
    (∀ (α : Type) [Scalar α], (f.summary α n).Describes f n ∧
      ((f.summary α n).uniquePieces ≤ n →
        (f.summary α n).mostFrequent = (f.summary α n).rarest.reverse)) ∧
    (f.summary ℚ n).averageOccurrences * (f.summary ℚ n).uniquePieces
      = (f.summary ℚ n).totalTokens.toNat ∧
    (0 < (f.summary Float n).uniquePieces → f.countSum < 2 ^ 53 →
      IsNearest ((f.summary Float n).totalTokens.toNat / (f.summary Float n).uniquePieces)
        (f.summary Float n).averageOccurrences) := by
  refine ⟨fun α _ g hg hmem hcount => ?_, fun α _ => ?_, h.average_mul, h.average_isNearest⟩
  · rw [h.ext hg hmem hcount]
  · have hdescribes := describes_summary h α n
    exact ⟨hdescribes, hdescribes.reverse⟩

/-- The bytes from 1 to 49, and those up to 15 once more. -/
def crowdedText : Document :=
  ⟨.python, ((List.range' 1 49 ++ List.range' 1 15).map UInt8.ofNat).toArray, by decide⟩

/-- The table of these 64 tokens, and a vocabulary with one piece more. -/
def crowded : TokenFrequencies :=
  ((empty.addDocument? crowdedText (Span.singles 64)).getD empty).seed [[1], [50]]

theorem filled_crowded : crowded.Filled := by
  have hsome : (empty.addDocument? crowdedText (Span.singles 64)).isSome := by decide +kernel
  obtain ⟨f, hf⟩ := Option.isSome_iff_exists.mp hsome
  rw [crowded, hf]
  exact (Filled.empty.addDocument _ _ hf).seed _

theorem unique_crowded (α : Type) [Scalar α] (n : Nat) :
    (crowded.summary α n).uniquePieces = 49 :=
  crowded.length_ascending.trans (by decide +kernel)

theorem total_crowded (α : Type) [Scalar α] (n : Nat) :
    (crowded.summary α n).totalTokens = 64 := by
  show crowded.total = 64
  decide +kernel

theorem summary_of_counts_crowded : crowded.Filled ∧
    (crowded.summary ℚ 50).Describes crowded 50 ∧
    (crowded.summary ℚ 50).mostFrequent = (crowded.summary ℚ 50).rarest.reverse ∧
    (crowded.summary ℚ 50).averageOccurrences * 49 = 64 ∧
    IsNearest (64 / 49) (crowded.summary Float 50).averageOccurrences := by
  obtain ⟨-, hall, haverage, hnearest⟩ := summary_of_counts filled_crowded 50
  obtain ⟨hdescribes, hreverse⟩ := hall ℚ
  rw [unique_crowded] at hreverse haverage hnearest
  rw [total_crowded] at haverage hnearest
  refine ⟨filled_crowded, hdescribes, hreverse (by decide), by simpa using haverage, ?_⟩
  simpa using hnearest (by decide) (by decide +kernel)

/-- **A floating-point average is rounded**, and its product with the number of pieces is not
always the total. -/
theorem average_rounded : crowded.Filled ∧ (crowded.summary Float 5).uniquePieces = 49 ∧
    (crowded.summary Float 5).totalTokens = 64 ∧
    (crowded.summary Float 5).averageOccurrences * Float.ofNat 49 ≠ Float.ofNat 64 := by
  have haverage : (crowded.summary Float 5).averageOccurrences
      = Float.ofNat 64 / Float.ofNat 49 := by
    show Scalar.ratio Float (crowded.summary Float 5).totalTokens.toNat
      (crowded.summary Float 5).uniquePieces = _
    rw [total_crowded, unique_crowded]
    rfl
  refine ⟨filled_crowded, unique_crowded .., total_crowded .., ?_⟩
  rw [haverage]
  decide +kernel

end TokenFrequencies

end TokenAlignment
