/-
TokenAlignment/Proofs/Run/Division.lean

Frequencies do not depend on how the work is divided.

    items ──schedule──→ workers ──→ a table for each ──merge tree──→ table of the corpus

A schedule says which item comes next, and which worker takes it; the workers share one
tokenizer.  Each worker has the table of the pieces of its documents (`countDivided?_iff`).  A
tree that names every worker once merges these into the table of all pieces
(`divided?_eq`): the pieces of the workers together are those of the schedule, in
another order.  Where their number does not fit, some worker or some merge gives up, and so
does one worker alone.

Main result: `frequencies_divided`.
-/
import TokenAlignment.Proofs.Run.Counted
import TokenAlignment.Proofs.Run.Order
import Mathlib.Data.List.Perm.Basic
import Mathlib.Logic.Function.Basic

namespace TokenAlignment

/-! ### Trees of merges -/

/-- In which order the tables of some workers are merged, perhaps with empty ones. -/
inductive MergeTree (ι : Type) where
  | empty
  | worker (i : ι)
  | merge (left right : MergeTree ι)

namespace MergeTree

variable {ι : Type}

/-- The workers of a tree, from left to right. -/
def workers : MergeTree ι → List ι
  | empty => []
  | worker i => [i]
  | merge left right => left.workers ++ right.workers

/-- The table at the root, if all merges give one. -/
def table? (tables : ι → TokenFrequencies) : MergeTree ι → Option TokenFrequencies
  | empty => some .empty
  | worker i => some (tables i)
  | merge left right => do (← left.table? tables).merge? (← right.table? tables)

/-- Each worker is in the tree once, if it has anything to do. -/
structure Covers {β : Type} (tree : MergeTree ι) (schedule : List (ι × β)) : Prop where
  nodup : tree.workers.Nodup
  mem : ∀ task ∈ schedule, task.1 ∈ tree.workers

/-- **A tree of merges has the pieces of all its workers.** -/
theorem table?_eq_ofPieces {tables : ι → TokenFrequencies} {pieces : ι → List (List UInt8)}
    (h : ∀ i, (tables i).IsTableOf (pieces i)) (tree : MergeTree ι) :
    tree.table? tables = TokenFrequencies.ofPieces? (tree.workers.flatMap pieces) := by
  induction tree with
  | empty => rfl
  | worker i =>
      rw [workers, List.flatMap_singleton]
      exact (TokenFrequencies.ofPieces?_eq_some_iff.mpr (h i)).symm
  | merge left right ih ih' =>
      rw [table?, ih, ih', TokenFrequencies.ofPieces?_merge, workers, List.flatMap_append]

end MergeTree

/-- Entries sorted by their keys are the entries again. -/
theorem flatMap_filter_perm {ι β : Type} [DecidableEq ι] {keys : List ι} (hnodup : keys.Nodup)
    {entries : List (ι × β)} (hkeys : ∀ entry ∈ entries, entry.1 ∈ keys) :
    (keys.flatMap fun i => entries.filter (·.1 = i)).Perm entries := by
  induction keys generalizing entries with
  | nil =>
      have hnone : entries = [] := List.eq_nil_iff_forall_not_mem.mpr fun entry hentry =>
        List.not_mem_nil (hkeys entry hentry)
      simp [hnone]
  | cons i keys ih =>
      rw [List.nodup_cons] at hnodup
      -- the other keys see the entries without those of the first
      have hothers : (keys.flatMap fun j => entries.filter (·.1 = j))
          = keys.flatMap fun j => (entries.filter (¬ ·.1 = i)).filter (·.1 = j) := by
        refine List.flatMap_congr fun j hj => ?_
        have hne : j ≠ i := by
          rintro rfl
          exact hnodup.1 hj
        rw [List.filter_filter]
        refine List.filter_congr fun entry _ => ?_
        by_cases hentry : entry.1 = j <;> simp [hentry, hne]
      have hrest : ∀ entry ∈ entries.filter (¬ ·.1 = i), entry.1 ∈ keys := by
        intro entry hentry
        obtain ⟨hentry, hne⟩ := List.mem_filter.mp hentry
        exact (List.mem_cons.mp (hkeys entry hentry)).resolve_left (by simpa using hne)
      rw [List.flatMap_cons, hothers]
      refine ((ih hnodup.2 hrest).append_left _).trans ?_
      simpa using List.filter_append_perm (fun entry : ι × β => decide (entry.1 = i)) entries

namespace Runner

/-! ### Workers -/

section Workers

variable {ι σ : Type} [DecidableEq ι] (r : Runner σ)

/-- A worker counts the next item. -/
def countTask? (state : (ι → TokenFrequencies) × σ) (task : ι × CorpusItem) :
    Option ((ι → TokenFrequencies) × σ) :=
  (r.countItem? (state.1 task.1, state.2) task.2).map fun (f, memory) =>
    (Function.update state.1 task.1 f, memory)

/-- The tables of the workers after a schedule, if no worker gave up. -/
def countDivided? (memory : σ) (schedule : List (ι × CorpusItem)) :
    Option (ι → TokenFrequencies) :=
  (schedule.foldlM r.countTask? (fun _ => .empty, memory)).map Prod.fst

/-- The table of a schedule whose workers' tables are merged along a tree; the vocabulary of the
tokenizer is in the table too. -/
def divided? (memory : σ) (schedule : List (ι × CorpusItem)) (tree : MergeTree ι) :
    Option TokenFrequencies := do
  let tables ← r.countDivided? memory schedule
  let table ← tree.table? tables
  return table.seed r.context.tokenizer.vocabulary

/-- Which worker finds which pieces, item by item. -/
def taskPieces (memory : σ) : List (ι × CorpusItem) → List (ι × List (List UInt8))
  | [] => []
  | task :: schedule =>
    (task.1, countedPieces (r.tokenizeItem task.2 memory).1.toList) ::
      taskPieces (r.tokenizeItem task.2 memory).2 schedule

omit [DecidableEq ι] in
theorem flatMap_taskPieces (memory : σ) (schedule : List (ι × CorpusItem)) :
    (r.taskPieces memory schedule).flatMap Prod.snd
      = countedPieces (r.counted memory (schedule.map Prod.snd)) := by
  induction schedule generalizing memory with
  | nil => rfl
  | cons task schedule ih =>
      rw [taskPieces, List.flatMap_cons, ih, List.map_cons, counted]
      simp [countedPieces]

omit [DecidableEq ι] in
theorem fst_mem_of_mem_taskPieces {memory : σ} {schedule : List (ι × CorpusItem)}
    {workers : List ι} (h : ∀ task ∈ schedule, task.1 ∈ workers) :
    ∀ entry ∈ r.taskPieces memory schedule, entry.1 ∈ workers := by
  induction schedule generalizing memory with
  | nil =>
      intro entry hentry
      cases hentry
  | cons task schedule ih =>
      rw [List.forall_mem_cons] at h
      rw [taskPieces, List.forall_mem_cons]
      exact ⟨h.1, ih h.2⟩

/-- The pieces that a worker finds. -/
def workerPieces (memory : σ) (schedule : List (ι × CorpusItem)) (i : ι) : List (List UInt8) :=
  ((r.taskPieces memory schedule).filter (·.1 = i)).flatMap Prod.snd

theorem workerPieces_cons (memory : σ) (task : ι × CorpusItem)
    (schedule : List (ι × CorpusItem)) (i : ι) :
    r.workerPieces memory (task :: schedule) i
      = (if task.1 = i then countedPieces (r.tokenizeItem task.2 memory).1.toList else [])
        ++ r.workerPieces (r.tokenizeItem task.2 memory).2 schedule i := by
  rw [workerPieces, taskPieces, workerPieces]
  by_cases hi : task.1 = i <;> simp [hi]

/-- **One task** adds its pieces to the table of its worker and to no other. -/
theorem countTask?_eq (tables : ι → TokenFrequencies) (memory : σ) (task : ι × CorpusItem) :
    r.countTask? (tables, memory) task
      = ((tables task.1).addPieces?
          (countedPieces (r.tokenizeItem task.2 memory).1.toList)).map fun f =>
            (Function.update tables task.1 f, (r.tokenizeItem task.2 memory).2) := by
  rw [countTask?, countItem?_eq, Option.map_map]
  rfl

/-- **A schedule is done just if each worker counts its pieces.** -/
theorem foldlM_countTask?_iff {tables tables' : ι → TokenFrequencies} {memory : σ}
    {schedule : List (ι × CorpusItem)} :
    (schedule.foldlM r.countTask? (tables, memory)).map Prod.fst = some tables' ↔
      ∀ i, (tables i).addPieces? (r.workerPieces memory schedule i) = some (tables' i) := by
  induction schedule generalizing tables memory with
  | nil =>
      show some tables = some tables' ↔ ∀ i, some (tables i) = some (tables' i)
      simp only [Option.some.injEq, funext_iff]
  | cons task schedule ih =>
      rw [List.foldlM_cons, countTask?_eq]
      simp only [workerPieces_cons, TokenFrequencies.addPieces?_append]
      rcases hf : (tables task.1).addPieces?
          (countedPieces (r.tokenizeItem task.2 memory).1.toList) with - | f
      · -- the worker of this task gives up
        refine iff_of_false (by simp) fun h => ?_
        have htask := h task.1
        rw [if_pos rfl, hf] at htask
        cases htask
      · refine ih.trans (forall_congr' fun i => ?_)
        by_cases hi : task.1 = i
        · subst hi
          rw [if_pos rfl, hf, Function.update_self]
          rfl
        · rw [if_neg hi, Function.update_of_ne (Ne.symm hi)]
          rfl

theorem countDivided?_iff {tables : ι → TokenFrequencies} {memory : σ}
    {schedule : List (ι × CorpusItem)} : r.countDivided? memory schedule = some tables ↔
      ∀ i, (tables i).IsTableOf (r.workerPieces memory schedule i) := by
  rw [countDivided?, foldlM_countTask?_iff]
  exact forall_congr' fun i => TokenFrequencies.ofPieces?_eq_some_iff

/-- The workers of a tree find the pieces of all documents that were counted. -/
theorem flatMap_workerPieces_perm (memory : σ) {schedule : List (ι × CorpusItem)}
    {tree : MergeTree ι} (htree : tree.Covers schedule) :
    (tree.workers.flatMap (r.workerPieces memory schedule)).Perm
      (countedPieces (r.counted memory (schedule.map Prod.snd))) := by
  rw [← flatMap_taskPieces]
  show (tree.workers.flatMap fun i =>
    ((r.taskPieces memory schedule).filter (·.1 = i)).flatMap Prod.snd).Perm _
  rw [← List.flatMap_assoc]
  exact (flatMap_filter_perm htree.nodup (r.fst_mem_of_mem_taskPieces htree.mem)).flatMap_right _

/-- If the pieces of all workers fit, those of each do. -/
theorem exists_isTableOf_workerPieces {memory : σ} {schedule : List (ι × CorpusItem)}
    {tree : MergeTree ι} (htree : tree.Covers schedule)
    (hfits : (tree.workers.flatMap (r.workerPieces memory schedule)).length < 2 ^ 64) (i : ι) :
    ∃ f : TokenFrequencies, f.IsTableOf (r.workerPieces memory schedule i) := by
  refine TokenFrequencies.exists_isTableOf ?_
  by_cases hi : i ∈ tree.workers
  · have hsub := (List.singleton_sublist.mpr hi).flatMap (r.workerPieces memory schedule)
    rw [List.flatMap_singleton] at hsub
    exact Nat.lt_of_le_of_lt hsub.length_le hfits
  · -- a worker outside the tree has nothing to do
    have hnone : r.workerPieces memory schedule i = [] := by
      rw [workerPieces, List.filter_eq_nil_iff.mpr, List.flatMap_nil]
      intro entry hentry
      have hworkers := r.fst_mem_of_mem_taskPieces htree.mem entry hentry
      simpa using fun heq : entry.1 = i => hi (heq ▸ hworkers)
    rw [hnone]
    exact Nat.two_pow_pos 64

/-- **The divided table** has the pieces of all documents that were counted. -/
theorem divided?_eq (memory : σ) {schedule : List (ι × CorpusItem)} {tree : MergeTree ι}
    (htree : tree.Covers schedule) :
    r.divided? memory schedule tree
      = (TokenFrequencies.ofPieces?
          (countedPieces (r.counted memory (schedule.map Prod.snd)))).map
            (·.seed r.context.tokenizer.vocabulary) := by
  rw [divided?, ← TokenFrequencies.ofPieces?_perm (r.flatMap_workerPieces_perm memory htree)]
  rcases hdivided : r.countDivided? memory schedule with - | tables
  · -- some worker has more pieces than fit, and then all of them together do not fit
    refine (Option.map_eq_none_iff.mpr ?_).symm
    rw [← Option.not_isSome_iff_eq_none, TokenFrequencies.isSome_ofPieces?_iff]
    intro hfits
    choose tables htables using r.exists_isTableOf_workerPieces htree hfits
    rw [(r.countDivided?_iff).mpr htables] at hdivided
    cases hdivided
  · rw [← MergeTree.table?_eq_ofPieces ((r.countDivided?_iff).mp hdivided) tree,
      Option.map_eq_bind]
    rfl

end Workers

/-! ### The division does not show -/

/-- **Frequencies do not depend on how the work is divided.**  Any workers take the items of
a corpus in any order, and any tree merges their tables.  There is a table just if the number
of tokens fits a word; it counts each piece as often as it is a token of the documents that were
counted, and its total is the sum of its counts.  It is the table of a single worker who
takes the items in the order of the schedule; and if the tokenizer has ids for all pieces,
in any order.

The vocabulary may be put into any table at any time, before or after documents and merges,
and once is enough; it changes no count, no total and not the number of pieces that
occurred, and it does not keep a document or a merge from being counted. -/
theorem frequencies_divided {ι : Type} [DecidableEq ι] (r : Runner PieceTable)
    (t : PieceTable) {schedule : List (ι × CorpusItem)} {tree : MergeTree ι}
    (htree : tree.Covers schedule) :
    let table? := r.divided? t schedule tree
    let pieces := countedPieces (r.counted t (schedule.map Prod.snd))
    (table?.isSome ↔ pieces.length < 2 ^ 64) ∧
    (∀ table, table? = some table →
      (∀ piece, (table.count piece).toNat = pieces.count piece) ∧
      table.total.toNat = table.countSum) ∧
    table? = r.frequencies? t (schedule.map Prod.snd) ∧
    (∀ items, items.Perm (schedule.map Prod.snd) → t.Consistent →
      r.context.tokenizer.Supported → r.context.tokenizer.HasRoom (r.piecesAfter t items) →
      table? = r.frequencies? t items) ∧
    ∀ (f g : TokenFrequencies) (vocabulary : List (List UInt8)),
      (∀ d tokens, (f.seed vocabulary).addDocument? d tokens
        = (f.addDocument? d tokens).map (·.seed vocabulary)) ∧
      (f.seed vocabulary).merge? g = (f.merge? g).map (·.seed vocabulary) ∧
      f.merge? (g.seed vocabulary) = (f.merge? g).map (·.seed vocabulary) ∧
      (f.seed vocabulary).seed vocabulary = f.seed vocabulary ∧
      (∀ piece, (f.seed vocabulary).count piece = f.count piece) ∧
      (f.seed vocabulary).total = f.total ∧ (f.seed vocabulary).unique = f.unique := by
  intro table? pieces
  have htable? : table? = (TokenFrequencies.ofPieces? pieces).map
      (·.seed r.context.tokenizer.vocabulary) := r.divided?_eq t htree
  refine ⟨?_, ?_, ?_, ?_, fun f g vocabulary => ?_⟩
  · rw [htable?, Option.isSome_map, TokenFrequencies.isSome_ofPieces?_iff]
  · intro table htable
    rw [htable?, Option.map_eq_some_iff] at htable
    obtain ⟨f, hf, rfl⟩ := htable
    have htallies := (TokenFrequencies.ofPieces?_eq_some_iff.mp hf).toTallies.seed
      r.context.tokenizer.vocabulary
    exact ⟨htallies.count_eq, by rw [htallies.total_eq, htallies.countSum_eq]⟩
  · rw [htable?, frequencies?_eq]
  · intro items hperm ht htokenizer hroom
    have hwithin := r.within_piecesAfter ht items
    have hitems : r.counted t items = items.filterMap fun item => (r.tokenizeItem item .empty).1 :=
      counted_eq htokenizer hroom (fun _ hitem => r.mem_piecesAfter t hitem) hwithin
    have hschedule : r.counted t (schedule.map Prod.snd)
        = (schedule.map Prod.snd).filterMap fun item => (r.tokenizeItem item .empty).1 :=
      counted_eq htokenizer hroom
        (fun _ hitem => r.mem_piecesAfter t (hperm.mem_iff.mpr hitem)) hwithin
    -- each document has the same tokens in both orders
    have hpieces : pieces.Perm (countedPieces (r.counted t items)) := by
      rw [hitems]
      show (countedPieces (r.counted t (schedule.map Prod.snd))).Perm _
      rw [hschedule]
      exact (hperm.symm.filterMap _).flatMap_right _
    rw [htable?, frequencies?_eq, TokenFrequencies.ofPieces?_perm hpieces]
  · exact ⟨f.seed_addDocument? vocabulary, f.seed_merge? g vocabulary,
      f.merge?_seed g vocabulary, f.seed_seed vocabulary, f.count_seed vocabulary, rfl,
      f.unique_seed vocabulary⟩

/-- Two workers: one takes ` y yx` and `x y`, the other a file that nobody could read and
`x y` once more. -/
def twoWorkers : List (Bool × CorpusItem) :=
  [(true, ⟨"y.java", .ok sharedSecond⟩), (false, ⟨"z.go", .error (.failed "unreadable")⟩),
    (false, ⟨"x.py", .ok sharedFirst⟩), (true, ⟨"w.py", .ok sharedFirst⟩)]

/-- Their tables merged, with empty ones. -/
def twoWorkersTree : MergeTree Bool :=
  .merge (.merge .empty (.worker false)) (.merge (.worker true) .empty)

theorem counted_twoWorkers : sharedPieces.counted .empty (twoWorkers.map Prod.snd)
    = [(sharedSecond, [⟨0, 2, by decide⟩, ⟨2, 5, by decide⟩]),
      (sharedFirst, [⟨0, 1, by decide⟩, ⟨1, 3, by decide⟩]),
      (sharedFirst, [⟨0, 1, by decide⟩, ⟨1, 3, by decide⟩])] := by
  have hcard : (sharedPieces.piecesAfter .empty (twoWorkers.map Prod.snd)).card ≤ UInt32.size := by
    decide +kernel
  rw [counted_eq .pretoken (.inr hcard) (fun _ hitem => sharedPieces.mem_piecesAfter _ hitem)
    (sharedPieces.within_piecesAfter PieceTable.consistent_empty _)]
  simp only [twoWorkers, List.map_cons, List.map_nil, List.filterMap_cons, List.filterMap_nil]
  rw [tokenizeItem_of_tokens sharedPieces "y.java" (by decide +kernel) tokenize_sharedSecond,
    tokenizeItem_of_tokens sharedPieces "x.py" (by decide +kernel) tokenize_sharedFirst,
    tokenizeItem_of_tokens sharedPieces "w.py" (by decide +kernel) tokenize_sharedFirst]
  rfl

theorem frequencies_divided_twoWorkers : twoWorkersTree.Covers twoWorkers ∧
    ∃ table, sharedPieces.divided? .empty twoWorkers twoWorkersTree = some table ∧
      (table.count [32, 121]).toNat = 3 ∧ table.total.toNat = table.countSum ∧
      sharedPieces.frequencies? .empty (twoWorkers.map Prod.snd).reverse = some table := by
  have htree : twoWorkersTree.Covers twoWorkers := ⟨by decide, by decide⟩
  have hperm := List.reverse_perm (twoWorkers.map Prod.snd)
  have hroom : (sharedPieces.piecesAfter .empty (twoWorkers.map Prod.snd).reverse).card
      ≤ UInt32.size := by
    decide +kernel
  obtain ⟨hthere, hcounts, -, hanyOrder, -⟩ := frequencies_divided sharedPieces .empty htree
  rw [counted_twoWorkers] at hthere hcounts
  obtain ⟨table, htable⟩ := Option.isSome_iff_exists.mp (hthere.mpr (by decide +kernel))
  obtain ⟨hcount, htotal⟩ := hcounts table htable
  exact ⟨htree, table, htable, (hcount _).trans (by decide +kernel), htotal,
    (hanyOrder _ hperm PieceTable.consistent_empty .pretoken (.inr hroom)).symm.trans htable⟩

end Runner

end TokenAlignment
