/-
TokenAlignment/Proofs/Score/Frequencies.lean

What a table of frequencies counts.

A table *tallies* a list of pieces if it counts each as often as it occurs in the list:

    f.count p  =  pieces.count p        f.total  =  |pieces|

Design.  To count a piece is to merge the table of it (`addPiece?_eq_merge?`).  A merge fails where
a word is too small, and else it is a sum of two tables: it holds what either of them holds, and
counts a piece as often as both together (`IsSum`).  There is one sum at most, and it is there
just if the counts and the totals fit (`exists_isSum_iff`).  So one relation describes both
operations (`merge?_eq_some_iff`, `addPiece?_eq_some_iff`), and every law of theirs is one of sums.

As a table has no other counts than exact ones, the bytes of its entries, each as often as it
is counted, are those of the list (`Tallies.byteCount_eq`); for the tokens of a document,
which cover it, they are its own (`sum_length_tokenPieces`).
-/
import TokenAlignment.Proofs.Document
import TokenAlignment.Proofs.SpanChain
import TokenAlignment.Score.Frequencies
import Mathlib.Algebra.BigOperators.Group.Finset.Basic
import Mathlib.Algebra.Order.BigOperators.Group.Finset

namespace TokenAlignment

/-! ### The pieces of a document -/

namespace Document

/-- The bytes of some tokens; one outside the document has none. -/
def tokenPieces (d : Document) (tokens : List Span) : List (List UInt8) :=
  tokens.filterMap fun token => (d.bytes token).toOption

/-- Tokens in the document have a piece each, as long as they are wide. -/
theorem map_length_tokenPieces {d : Document} {tokens : List Span}
    (h : ∀ token ∈ tokens, token.stop ≤ d.length) :
    (d.tokenPieces tokens).map List.length = tokens.map Span.length := by
  induction tokens with
  | nil => rfl
  | cons token tokens ih =>
      rw [List.forall_mem_cons] at h
      have hbytes := bytes_eq_ok h.1
      have hpieces : d.tokenPieces (token :: tokens)
          = Utf8.slice 0 d.content.toList token :: d.tokenPieces tokens := by
        simp [tokenPieces, hbytes, Except.toOption]
      rw [hpieces, List.map_cons, List.map_cons, length_bytes hbytes, ih h.2]

end Document

/-- Tokens that cover the document have a piece each. -/
theorem Span.Chain.length_tokenPieces {d : Document} {tokens : List Span}
    (h : Span.Chain 0 tokens d.length) : (d.tokenPieces tokens).length = tokens.length := by
  have hlengths := d.map_length_tokenPieces fun token htoken => h.stop_le htoken
  simpa using congrArg List.length hlengths

/-- **Tokens that cover the document have all of its bytes.** -/
theorem Span.Chain.sum_length_tokenPieces {d : Document} {tokens : List Span}
    (h : Span.Chain 0 tokens d.length) :
    ((d.tokenPieces tokens).map List.length).sum = d.length := by
  rw [d.map_length_tokenPieces fun token htoken => h.stop_le htoken, ← h.add_sum_length,
    Nat.zero_add]

namespace TokenFrequencies

/-! ### What a table holds -/

section Holds

variable {f g : TokenFrequencies} {piece : List UInt8}

/-- A piece that a table holds has its count as the entry. -/
theorem getElem?_of_mem (h : piece ∈ f.counts) : f.counts[piece]? = some (f.count piece) := by
  rw [count, Std.ExtTreeMap.getElem?_eq_some_getElem h]
  rfl

theorem count_of_mem_toList {entry : List UInt8 × UInt64} (h : entry ∈ f.counts.toList) :
    f.count entry.1 = entry.2 := by
  rw [count, Std.ExtTreeMap.mem_toList_iff_getElem?_eq_some.mp h]
  rfl

theorem count_of_notMem (h : piece ∉ f.counts.keys) : f.count piece = 0 := by
  rw [Std.ExtTreeMap.mem_keys] at h
  rw [count, Std.ExtTreeMap.getElem?_eq_none h]
  rfl

/-- **A table is what it holds and how often it counts it.** -/
theorem ext_count (hmem : ∀ piece, piece ∈ f.counts ↔ piece ∈ g.counts)
    (hcount : ∀ piece, f.count piece = g.count piece) (htotal : f.total = g.total) : f = g := by
  have hcounts : f.counts = g.counts := by
    refine Std.ExtTreeMap.ext_getElem? fun piece => ?_
    by_cases hf : piece ∈ f.counts
    · rw [getElem?_of_mem hf, getElem?_of_mem ((hmem piece).mp hf), hcount]
    · rw [Std.ExtTreeMap.getElem?_eq_none hf,
        Std.ExtTreeMap.getElem?_eq_none (mt (hmem piece).mpr hf)]
  obtain ⟨counts, total⟩ := f
  obtain ⟨counts', total'⟩ := g
  obtain rfl : counts = counts' := hcounts
  obtain rfl : total = total' := htotal
  rfl

theorem mem_seed {vocabulary : List (List UInt8)} :
    piece ∈ (f.seed vocabulary).counts ↔ piece ∈ f.counts ∨ piece ∈ vocabulary := by
  simp only [seed]
  generalize f.counts = counts
  induction vocabulary generalizing counts with
  | nil => simp
  | cons entry vocabulary ih =>
      rw [List.foldl_cons, ih, Std.ExtTreeMap.mem_insertIfNew,
        Std.LawfulEqCmp.compare_eq_iff_eq, List.mem_cons, @eq_comm _ piece entry]
      tauto

/-- An entry put in with count zero counts as much as none. -/
@[simp] theorem count_seed (f : TokenFrequencies) (vocabulary : List (List UInt8))
    (piece : List UInt8) : (f.seed vocabulary).count piece = f.count piece := by
  simp only [seed, count]
  generalize f.counts = counts
  induction vocabulary generalizing counts with
  | nil => rfl
  | cons entry vocabulary ih =>
      rw [List.foldl_cons, ih, Std.ExtTreeMap.getElem?_insertIfNew]
      split
      · rename_i h
        obtain ⟨hentry, hnew⟩ := h
        obtain rfl := Std.LawfulEqCmp.eq_of_compare hentry
        rw [Std.ExtTreeMap.getElem?_eq_none hnew]
        rfl
      · rfl

@[simp] theorem total_seed (f : TokenFrequencies) (vocabulary : List (List UInt8)) :
    (f.seed vocabulary).total = f.total := rfl

end Holds

/-! ### Sums of tables -/

/-- A table holds what two tables hold, and counts each piece as often as both together. -/
structure IsSum (f g sum : TokenFrequencies) : Prop where
  mem_iff : ∀ piece, piece ∈ sum.counts ↔ piece ∈ f.counts ∨ piece ∈ g.counts
  count_eq : ∀ piece, (sum.count piece).toNat = (f.count piece).toNat + (g.count piece).toNat
  total_eq : sum.total.toNat = f.total.toNat + g.total.toNat

section IsSum

variable {f g sum sum' : TokenFrequencies}

theorem IsSum.comm (h : IsSum f g sum) : IsSum g f sum where
  mem_iff piece := by rw [h.mem_iff, or_comm]
  count_eq piece := by rw [h.count_eq, Nat.add_comm]
  total_eq := by rw [h.total_eq, Nat.add_comm]

/-- There is one sum at most. -/
theorem IsSum.unique (h : IsSum f g sum) (h' : IsSum f g sum') : sum = sum' := by
  refine ext_count (fun piece => ?_) (fun piece => ?_) ?_
  · rw [h.mem_iff, h'.mem_iff]
  · rw [← UInt64.toNat_inj, h.count_eq, h'.count_eq]
  · rw [← UInt64.toNat_inj, h.total_eq, h'.total_eq]

end IsSum

/-! ### Raising counts -/

section Raise

variable {counts counts' : Std.ExtTreeMap (List UInt8) UInt64} {piece other : List UInt8}
  {more : UInt64} {entries : List (List UInt8 × UInt64)}

theorem getElem?_insert (counts : Std.ExtTreeMap (List UInt8) UInt64) (c : UInt64) :
    (counts.insert piece c)[other]? = if other = piece then some c else counts[other]? := by
  simp only [Std.ExtTreeMap.getElem?_insert, Std.LawfulEqCmp.compare_eq_iff_eq, @eq_comm _ piece]

theorem raise?_eq_some_iff : raise? counts piece more = some counts' ↔
    ∃ c, (counts[piece]?.getD 0).toNat + more.toNat = c.toNat ∧
      counts.insert piece c = counts' := by
  rw [raise?, Option.map_eq_some_iff]
  simp only [Total.add?_eq_some_iff]

theorem mem_raise (h : raise? counts piece more = some counts') :
    other ∈ counts' ↔ other ∈ counts ∨ other = piece := by
  obtain ⟨c, -, rfl⟩ := raise?_eq_some_iff.mp h
  rw [Std.ExtTreeMap.mem_insert, Std.LawfulEqCmp.compare_eq_iff_eq, or_comm, @eq_comm _ piece]

theorem getD_raise (h : raise? counts piece more = some counts') :
    (counts'[other]?.getD 0).toNat
      = (counts[other]?.getD 0).toNat + if other = piece then more.toNat else 0 := by
  obtain ⟨c, hc, rfl⟩ := raise?_eq_some_iff.mp h
  rw [getElem?_insert]
  split
  · rename_i hother
    rw [hother, hc]
    rfl
  · rw [Nat.add_zero]

theorem exists_raise? (h : (counts[piece]?.getD 0).toNat + more.toNat < 2 ^ 64) :
    ∃ counts', raise? counts piece more = some counts' := by
  obtain ⟨c, hc⟩ := Total.exists_add? h
  exact ⟨counts.insert piece c, by rw [raise?, hc]; rfl⟩

theorem raiseAll?_cons_eq_some_iff {entry : List UInt8 × UInt64} :
    raiseAll? counts (entry :: entries) = some counts' ↔
      ∃ counts₁, raise? counts entry.1 entry.2 = some counts₁ ∧
        raiseAll? counts₁ entries = some counts' := by
  rw [raiseAll?, List.foldlM_cons, Option.bind_eq_bind, Option.bind_eq_some_iff]
  rfl

theorem mem_raiseAll (h : raiseAll? counts entries = some counts') :
    piece ∈ counts' ↔ piece ∈ counts ∨ piece ∈ entries.map Prod.fst := by
  induction entries generalizing counts with
  | nil =>
      obtain rfl : counts = counts' := Option.some.inj h
      simp
  | cons entry entries ih =>
      obtain ⟨counts₁, hentry, hrest⟩ := raiseAll?_cons_eq_some_iff.mp h
      rw [ih hrest, mem_raise hentry, List.map_cons, List.mem_cons, or_assoc]

variable {g : TokenFrequencies}

/-- Entries of a table raise each of its pieces once, by its count. -/
theorem getD_raiseAll (hnodup : (entries.map Prod.fst).Nodup)
    (hentries : ∀ entry ∈ entries, g.count entry.1 = entry.2)
    (h : raiseAll? counts entries = some counts') :
    (counts'[piece]?.getD 0).toNat = (counts[piece]?.getD 0).toNat
      + if piece ∈ entries.map Prod.fst then (g.count piece).toNat else 0 := by
  induction entries generalizing counts with
  | nil =>
      obtain rfl : counts = counts' := Option.some.inj h
      simp
  | cons entry entries ih =>
      obtain ⟨counts₁, hentry, hrest⟩ := raiseAll?_cons_eq_some_iff.mp h
      rw [List.map_cons, List.nodup_cons] at hnodup
      rw [List.forall_mem_cons] at hentries
      rw [ih hnodup.2 hentries.2 hrest, getD_raise hentry, List.map_cons, Nat.add_assoc,
        Nat.add_left_cancel_iff]
      by_cases hpiece : piece = entry.1
      · -- no later entry is for the same piece
        subst hpiece
        rw [if_pos rfl, if_neg hnodup.1, if_pos List.mem_cons_self, hentries.1, Nat.add_zero]
      · have hmem : piece ∈ entries.map Prod.fst ↔ piece ∈ entry.1 :: entries.map Prod.fst := by
          rw [List.mem_cons, or_iff_right hpiece]
        rw [if_neg hpiece, Nat.zero_add]
        exact if_congr hmem rfl rfl

theorem exists_raiseAll? (hnodup : (entries.map Prod.fst).Nodup)
    (h : ∀ entry ∈ entries, (counts[entry.1]?.getD 0).toNat + entry.2.toNat < 2 ^ 64) :
    ∃ counts', raiseAll? counts entries = some counts' := by
  induction entries generalizing counts with
  | nil => exact ⟨counts, rfl⟩
  | cons entry entries ih =>
      rw [List.map_cons, List.nodup_cons] at hnodup
      rw [List.forall_mem_cons] at h
      obtain ⟨counts₁, hentry⟩ := exists_raise? h.1
      -- the other entries are not for this piece, and find the counts they had
      have hothers : ∀ other ∈ entries,
          (counts₁[other.1]?.getD 0).toNat + other.2.toNat < 2 ^ 64 := by
        intro other hother
        have hne : other.1 ≠ entry.1 := fun heq =>
          hnodup.1 (heq ▸ List.mem_map_of_mem hother)
        rw [getD_raise hentry, if_neg hne]
        exact h.2 other hother
      obtain ⟨counts', hrest⟩ := ih hnodup.2 hothers
      exact ⟨counts', raiseAll?_cons_eq_some_iff.mpr ⟨counts₁, hentry, hrest⟩⟩

end Raise

/-! ### Merging -/

section Merge

variable {f g sum : TokenFrequencies}

theorem nodup_map_fst_toList (g : TokenFrequencies) : (g.counts.toList.map Prod.fst).Nodup := by
  rw [Std.ExtTreeMap.map_fst_toList_eq_keys]
  exact Std.ExtTreeMap.nodup_keys

theorem merge?_eq_some_iff_raiseAll : f.merge? g = some sum ↔
    raiseAll? f.counts g.counts.toList = some sum.counts ∧
      f.total.toNat + g.total.toNat = sum.total.toNat := by
  rw [merge?]
  simp only [Option.bind_eq_bind, Option.bind_eq_some_iff, Option.pure_def, Option.some.injEq,
    Total.add?_eq_some_iff]
  constructor
  · rintro ⟨counts, hcounts, total, htotal, rfl⟩
    exact ⟨hcounts, htotal⟩
  · rintro ⟨hcounts, htotal⟩
    exact ⟨sum.counts, hcounts, sum.total, htotal, rfl⟩

theorem isSum_of_merge? (h : f.merge? g = some sum) : IsSum f g sum := by
  obtain ⟨hcounts, htotal⟩ := merge?_eq_some_iff_raiseAll.mp h
  refine ⟨fun piece => ?_, fun piece => ?_, htotal.symm⟩
  · rw [mem_raiseAll hcounts, Std.ExtTreeMap.map_fst_toList_eq_keys, Std.ExtTreeMap.mem_keys]
  · rw [count, getD_raiseAll g.nodup_map_fst_toList (fun _ => count_of_mem_toList) hcounts,
      Std.ExtTreeMap.map_fst_toList_eq_keys]
    refine congrArg _ ?_
    split
    · rfl
    · rename_i hmissing
      rw [count_of_notMem hmissing]
      rfl

theorem exists_merge?
    (hcounts : ∀ piece, (f.count piece).toNat + (g.count piece).toNat < 2 ^ 64)
    (htotal : f.total.toNat + g.total.toNat < 2 ^ 64) : ∃ sum, f.merge? g = some sum := by
  obtain ⟨counts, hraise⟩ : ∃ counts, raiseAll? f.counts g.counts.toList = some counts := by
    refine exists_raiseAll? g.nodup_map_fst_toList fun entry hentry => ?_
    rw [← count_of_mem_toList hentry]
    exact hcounts entry.1
  obtain ⟨total, htotal⟩ := Total.exists_add? htotal
  exact ⟨⟨counts, total⟩,
    merge?_eq_some_iff_raiseAll.mpr ⟨hraise, Total.add?_eq_some_iff.mp htotal⟩⟩

/-- Two tables have a sum just if their counts and totals fit. -/
theorem exists_isSum_iff : (∃ sum, IsSum f g sum) ↔
    (∀ piece, (f.count piece).toNat + (g.count piece).toNat < 2 ^ 64) ∧
      f.total.toNat + g.total.toNat < 2 ^ 64 := by
  constructor
  · rintro ⟨sum, hsum⟩
    exact ⟨fun piece => hsum.count_eq piece ▸ (sum.count piece).toNat_lt,
      hsum.total_eq ▸ sum.total.toNat_lt⟩
  · rintro ⟨hcounts, htotal⟩
    obtain ⟨sum, hsum⟩ := exists_merge? hcounts htotal
    exact ⟨sum, isSum_of_merge? hsum⟩

/-- **A merge is the sum of two tables.** -/
theorem merge?_eq_some_iff : f.merge? g = some sum ↔ IsSum f g sum := by
  refine ⟨isSum_of_merge?, fun h => ?_⟩
  obtain ⟨hcounts, htotal⟩ := exists_isSum_iff.mp ⟨sum, h⟩
  obtain ⟨sum', hmerge⟩ := exists_merge? hcounts htotal
  rw [hmerge, (isSum_of_merge? hmerge).unique h]

end Merge

/-! ### One piece -/

/-- The table of one piece. -/
def single (piece : List UInt8) : TokenFrequencies :=
  ⟨(∅ : Std.ExtTreeMap (List UInt8) UInt64).insert piece 1, 1⟩

theorem mem_single {piece other : List UInt8} : other ∈ (single piece).counts ↔ other = piece := by
  rw [single, Std.ExtTreeMap.mem_insert, Std.LawfulEqCmp.compare_eq_iff_eq, @eq_comm _ other]
  simp

theorem count_single (piece other : List UInt8) :
    (single piece).count other = if other = piece then 1 else 0 := by
  rw [count, single, getElem?_insert]
  split <;> rfl

theorem toList_single (piece : List UInt8) : (single piece).counts.toList = [(piece, 1)] := by
  have hlength : (single piece).counts.toList.length = 1 := by
    rw [Std.ExtTreeMap.length_toList, single, Std.ExtTreeMap.size_insert]
    rfl
  have hmem : (piece, 1) ∈ (single piece).counts.toList := by
    rw [Std.ExtTreeMap.mem_toList_iff_getElem?_eq_some, single, getElem?_insert, if_pos rfl]
  obtain ⟨entry, hentry⟩ := List.length_eq_one_iff.mp hlength
  rw [hentry, List.mem_singleton] at hmem
  rw [hentry, ← hmem]

/-- A piece is counted by merging the table of it. -/
theorem addPiece?_eq_merge? (f : TokenFrequencies) (piece : List UInt8) :
    f.addPiece? piece = f.merge? (single piece) := by
  have hraise : raiseAll? f.counts [(piece, 1)] = raise? f.counts piece 1 := by
    simp [raiseAll?]
  rw [addPiece?, merge?, toList_single, hraise]
  rfl

/-- **One more piece is a sum** with the table of it. -/
theorem addPiece?_eq_some_iff {f g : TokenFrequencies} {piece : List UInt8} :
    f.addPiece? piece = some g ↔ IsSum f (single piece) g := by
  rw [addPiece?_eq_merge?, merge?_eq_some_iff]

/-! ### Tables that tally pieces -/

/-- The table counts the pieces of a list. -/
structure Tallies (f : TokenFrequencies) (pieces : List (List UInt8)) : Prop where
  count_eq : ∀ piece, (f.count piece).toNat = pieces.count piece
  total_eq : f.total.toNat = pieces.length

theorem tallies_empty : empty.Tallies [] where
  count_eq _ := rfl
  total_eq := rfl

theorem tallies_single (piece : List UInt8) : (single piece).Tallies [piece] where
  count_eq other := by
    rw [count_single, List.count_singleton]
    by_cases h : other = piece <;> simp [h, Ne.symm]
  total_eq := rfl

section Tallies

variable {f g : TokenFrequencies} {pieces more : List (List UInt8)}

/-- What a table tallies fits, as its total is a word. -/
theorem Tallies.length_lt (h : f.Tallies pieces) : pieces.length < 2 ^ 64 :=
  h.total_eq ▸ f.total.toNat_lt

/-- **A sum tallies the pieces of both tables.** -/
theorem Tallies.sum {sum : TokenFrequencies} (h : f.Tallies pieces) (h' : g.Tallies more)
    (hsum : IsSum f g sum) : sum.Tallies (pieces ++ more) where
  count_eq piece := by rw [hsum.count_eq, h.count_eq, h'.count_eq, List.count_append]
  total_eq := by rw [hsum.total_eq, h.total_eq, h'.total_eq, List.length_append]

theorem Tallies.seed (h : f.Tallies pieces) (vocabulary : List (List UInt8)) :
    (f.seed vocabulary).Tallies pieces where
  count_eq piece := by rw [count_seed, h.count_eq]
  total_eq := h.total_eq

/-- Tables have a sum, if the number of their pieces fits. -/
theorem Tallies.exists_isSum (h : f.Tallies pieces) (h' : g.Tallies more)
    (hfits : (pieces ++ more).length < 2 ^ 64) : ∃ sum, IsSum f g sum := by
  rw [exists_isSum_iff, h.total_eq, h'.total_eq, ← List.length_append]
  refine ⟨fun piece => ?_, hfits⟩
  rw [h.count_eq, h'.count_eq, ← List.count_append]
  exact Nat.lt_of_le_of_lt List.count_le_length hfits

end Tallies

/-! ### Sums over the entries -/

theorem sum_map_eq (weight : List UInt8 → Nat) (pieces : List (List UInt8)) :
    (pieces.map weight).sum
      = ∑ piece ∈ pieces.toFinset, pieces.count piece * weight piece := by
  rw [Finset.sum_list_map_count]
  simp only [List.count_eq_countP, Bool.beq_eq_decide_eq]
  rfl

section Sums

variable {f : TokenFrequencies} {pieces : List (List UInt8)}

/-- **A weight for each entry of a table**, as often as it is counted, adds up to that of the
pieces. -/
theorem Tallies.sum_keys_eq (h : f.Tallies pieces) (weight : List UInt8 → Nat) :
    (f.counts.keys.map fun piece => (f.count piece).toNat * weight piece).sum
      = (pieces.map weight).sum := by
  calc (f.counts.keys.map fun piece => (f.count piece).toNat * weight piece).sum
      = ∑ piece ∈ f.counts.keys.toFinset, (f.count piece).toNat * weight piece :=
        (List.sum_toFinset _ Std.ExtTreeMap.nodup_keys).symm
    _ = ∑ piece ∈ f.counts.keys.toFinset ∪ pieces.toFinset,
          (f.count piece).toNat * weight piece := by
        apply Finset.sum_subset Finset.subset_union_left
        intro piece _ hmissing
        rw [count_of_notMem (by simpa using hmissing)]
        exact Nat.zero_mul _
    _ = ∑ piece ∈ f.counts.keys.toFinset ∪ pieces.toFinset,
          pieces.count piece * weight piece :=
        Finset.sum_congr rfl fun piece _ => by rw [h.count_eq]
    _ = ∑ piece ∈ pieces.toFinset, pieces.count piece * weight piece := by
        symm
        apply Finset.sum_subset Finset.subset_union_right
        intro piece _ hmissing
        rw [List.count_eq_zero.mpr (by simpa using hmissing), Nat.zero_mul]
    _ = (pieces.map weight).sum := (sum_map_eq weight pieces).symm

/-- The bytes of the pieces in a table, of each as often as it is counted. -/
def byteCount (f : TokenFrequencies) : Nat :=
  (f.counts.keys.map fun piece => (f.count piece).toNat * piece.length).sum

/-- **The bytes in a table are those of the pieces that it tallies.** -/
theorem Tallies.byteCount_eq (h : f.Tallies pieces) :
    f.byteCount = (pieces.map List.length).sum :=
  h.sum_keys_eq List.length

theorem map_snd_toList (f : TokenFrequencies) :
    f.counts.toList.map Prod.snd = f.counts.values := by
  have hvalues : f.counts.values = f.counts.foldr (fun _ count counts => count :: counts) [] := by
    obtain ⟨⟨⟨tree⟩⟩, total⟩ := f
    rfl
  rw [hvalues, Std.ExtTreeMap.foldr_eq_foldr_toList, List.foldr_cons_eq_append, List.append_nil]

theorem values_eq (f : TokenFrequencies) : f.counts.values = f.counts.keys.map f.count := by
  rw [← map_snd_toList, ← Std.ExtTreeMap.map_fst_toList_eq_keys, List.map_map]
  exact List.map_congr_left fun entry hentry => (count_of_mem_toList hentry).symm

/-- The sum of all counts. -/
def countSum (f : TokenFrequencies) : Nat :=
  (f.counts.values.map UInt64.toNat).sum

/-- **The counts add up to the pieces.** -/
theorem Tallies.countSum_eq (h : f.Tallies pieces) : f.countSum = pieces.length := by
  simpa [countSum, values_eq, Function.comp_def] using h.sum_keys_eq fun _ => 1

end Sums

end TokenFrequencies

end TokenAlignment
