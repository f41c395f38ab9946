/-
TokenAlignment/Proofs/Identifier/PathTable.lean

The table of cheapest paths, as an equation.

The table of a word is filled from left to right, and no entry is changed later.  So the
finished table satisfies the rule by which its entries were made,

    best 0     =  the empty path
    best stop  =  the cheapest of  best start + (start, stop)  over the starts before stop,

and an entry is always one step longer than another entry (`best_cases`).  Whoever keeps
for each offset only the start of the last word finds the whole path again by going back
from start to start.

Design.  The rule looks back no further than the longest known word.  That loses nothing
if no known word is longer, which is a fact about how lexicons are built and not about
tables; so it is an assumption here (`bestTo_eq_foldl_range`).

Main results: `best_eq`, `segment?_eq_follow`.
-/
import TokenAlignment.Proofs.Identifier.Segments
import Mathlib.Data.List.Basic

namespace TokenAlignment

namespace Lexicon

variable {κ : Type} {lex : Lexicon κ} {word : Array Char}

/-! ### Cheapest candidates -/

section Cheaper

variable [LT κ] [DecidableLT κ]

@[simp] theorem cheaper_none (best : Option (Path κ)) : cheaper best none = best := by
  cases best <;> rfl

/-- Starts without a path change nothing. -/
theorem foldl_cheaper_of_none {candidate : Nat → Option (Path κ)} {starts : List Nat}
    (h : ∀ start ∈ starts, candidate start = none) (best : Option (Path κ)) :
    starts.foldl (fun best start => cheaper best (candidate start)) best = best := by
  induction starts generalizing best with
  | nil => rfl
  | cons start starts ih =>
      rw [List.forall_mem_cons] at h
      rw [List.foldl_cons, h.1, cheaper_none]
      exact ih h.2 best

theorem isSome_cheaper (best other : Option (Path κ)) :
    (cheaper best other).isSome = (best.isSome || other.isSome) := by
  rcases best with - | b
  · rfl
  rcases other with - | o
  · rfl
  · show (if o.cost < b.cost then some o else some b).isSome = true
    split <;> rfl

/-- There is a cheapest path just if there is one at all. -/
theorem isSome_foldl_cheaper {candidate : Nat → Option (Path κ)} {starts : List Nat}
    {best : Option (Path κ)} :
    (starts.foldl (fun best start => cheaper best (candidate start)) best).isSome = true
      ↔ best.isSome = true ∨ ∃ start ∈ starts, (candidate start).isSome = true := by
  induction starts generalizing best with
  | nil => simp
  | cons start starts ih =>
      rw [List.foldl_cons, ih, isSome_cheaper]
      simp [or_assoc]

end Cheaper

/-! ### Filling the table -/

variable [Add κ]

/-- A path to `stop` is one to an earlier offset and a known word. -/
theorem extend?_eq_some {table : Array (Option (Path κ))} {stop start : Nat} {path : Path κ}
    (h : lex.extend? word table stop start = some path) :
    ∃ before cost, table[start]?.join = some before ∧
      lex.costs[String.ofList (word.extract start stop).toList]? = some cost ∧
      path = ⟨before.cost + cost, (start, stop) :: before.ranges⟩ := by
  rw [extend?, Option.bind_eq_some_iff] at h
  obtain ⟨before, hbefore, h⟩ := h
  obtain ⟨cost, hcost, rfl⟩ := Option.map_eq_some_iff.mp h
  exact ⟨before, cost, hbefore, hcost, rfl⟩

variable [LT κ] [DecidableLT κ]

/-- What leads to an offset depends on the entries before it alone. -/
theorem bestTo_congr {table table' : Array (Option (Path κ))} {stop : Nat}
    (h : ∀ start < stop, table[start]? = table'[start]?) :
    lex.bestTo word table stop = lex.bestTo word table' stop := by
  apply List.foldl_ext
  intro best start hstart
  have hbefore : start < stop := by
    have := List.mem_range'_1.mp hstart
    omega
  rw [extend?, extend?, h start hbefore]

/-- **The look back loses nothing** if no known word is longer than the longest. -/
theorem bestTo_eq_foldl_range
    (hlongest : ∀ w, lex.isKnown w = true → w.length ≤ lex.longest)
    (table : Array (Option (Path κ))) {stop : Nat} (hstop : stop ≤ word.size) :
    lex.bestTo word table stop
      = (List.range stop).foldl
          (fun best start => cheaper best (lex.extend? word table stop start)) none := by
  -- the starts that are left out come first
  have hsplit : List.range stop
      = List.range (stop - lex.longest)
        ++ List.range' (stop - lex.longest) (min stop lex.longest) := by
    have hstops : stop = stop - lex.longest + min stop lex.longest := by omega
    calc List.range stop
        = List.range' 0 (stop - lex.longest + min stop lex.longest) := by
          rw [← hstops, List.range_eq_range']
      _ = List.range' 0 (stop - lex.longest)
            ++ List.range' (0 + (stop - lex.longest)) (min stop lex.longest) :=
          List.range'_append_1.symm
      _ = _ := by rw [Nat.zero_add, List.range_eq_range']
  rw [hsplit, List.foldl_append, bestTo]
  congr 1
  symm
  apply foldl_cheaper_of_none
  intro start hstart
  rcases hextend : lex.extend? word table stop start with - | path
  · rfl
  obtain ⟨before, cost, -, hcost, -⟩ := extend?_eq_some hextend
  -- the word from there would be too long to be known
  have hknown : lex.isKnown (word.extract start stop).toList = true := by
    rw [isKnown, Std.HashMap.contains_eq_isSome_getElem?, hcost]
    rfl
  have hlength := hlongest _ hknown
  rw [List.mem_range] at hstart
  rw [Array.length_toList, Array.size_extract] at hlength
  omega

variable [OfNat κ 0]

/-- The table up to an offset. -/
def table (lex : Lexicon κ) (word : Array Char) (size : Nat) : Array (Option (Path κ)) :=
  (List.range' 1 size).foldl (fun table stop => table.push (lex.bestTo word table stop))
    #[some ⟨0, []⟩]

theorem table_succ (size : Nat) :
    lex.table word (size + 1)
      = (lex.table word size).push (lex.bestTo word (lex.table word size) (size + 1)) := by
  rw [table, List.range'_1_concat, List.foldl_append, Nat.add_comm 1]
  rfl

theorem size_table (size : Nat) : (lex.table word size).size = size + 1 :=
  (sound_foldl_bestTo lex word size).1

/-- Entries stay as they are. -/
theorem getElem?_table {stop size : Nat} (h : stop ≤ size) :
    (lex.table word size)[stop]? = (lex.table word stop)[stop]? := by
  induction size with
  | zero => rw [Nat.le_zero.mp h]
  | succ size ih =>
      rcases Nat.lt_or_eq_of_le h with hlt | rfl
      · rw [table_succ, Array.getElem?_push, size_table, if_neg (by omega)]
        exact ih (Nat.le_of_lt_succ hlt)
      · rfl

/-- The cheapest path to an offset of the word, if known words lead there. -/
def best (lex : Lexicon κ) (word : Array Char) (stop : Nat) : Option (Path κ) :=
  (lex.paths word)[stop]?.join

/-- An entry and a known word behind it lead on. -/
theorem extend?_eq_some_of_best {stop start : Nat} {before : Path κ} {cost : κ}
    (hbefore : lex.best word start = some before)
    (hcost : lex.costs[String.ofList (word.extract start stop).toList]? = some cost) :
    lex.extend? word (lex.paths word) stop start
      = some ⟨before.cost + cost, (start, stop) :: before.ranges⟩ := by
  rw [best] at hbefore
  rw [extend?, hbefore, Option.bind_some, hcost]
  rfl

theorem best_zero : lex.best word 0 = some ⟨0, []⟩ := by
  show (lex.table word word.size)[0]?.join = _
  rw [getElem?_table (Nat.zero_le _)]
  rfl

/-- **The rule of the table**, as an equation of the finished one. -/
theorem best_eq {stop : Nat} (hpos : 0 < stop) (hstop : stop ≤ word.size) :
    lex.best word stop = lex.bestTo word (lex.paths word) stop := by
  obtain ⟨size, rfl⟩ := Nat.exists_eq_succ_of_ne_zero (Nat.ne_of_gt hpos)
  have hentry : lex.best word (size + 1)
      = lex.bestTo word (lex.table word size) (size + 1) := by
    show (lex.table word word.size)[size + 1]?.join = _
    rw [getElem?_table hstop, table_succ, Array.getElem?_push, size_table, if_pos rfl,
      Option.join_some]
  rw [hentry]
  apply bestTo_congr
  intro start hstart
  -- both tables hold what was there when `start` was filled
  calc (lex.table word size)[start]?
      = (lex.table word start)[start]? := getElem?_table (Nat.le_of_lt_succ hstart)
    _ = (lex.table word word.size)[start]? := (getElem?_table (by omega)).symm

/-- An entry of the table is another one with a known word more. -/
theorem best_cases {stop : Nat} {path : Path κ} (h : lex.best word stop = some path) :
    (stop = 0 ∧ path = ⟨0, []⟩) ∨
    ∃ start before cost, start < stop ∧ lex.best word start = some before ∧
      lex.costs[String.ofList (word.extract start stop).toList]? = some cost ∧
      path = ⟨before.cost + cost, (start, stop) :: before.ranges⟩ := by
  rcases Nat.eq_zero_or_pos stop with rfl | hpos
  · rw [best_zero, Option.some.injEq] at h
    exact .inl ⟨rfl, h.symm⟩
  have hstop : stop ≤ word.size := by
    obtain ⟨hbound, -⟩ := Array.getElem?_eq_some_iff.mp (Option.join_eq_some_iff.mp h)
    have hsize : (lex.paths word).size = word.size + 1 := size_table word.size
    omega
  rw [best_eq hpos hstop] at h
  rcases foldl_cheaper_eq_some h with hnone | ⟨start, hstart, hextend⟩
  · cases hnone
  · obtain ⟨before, cost, hbefore, hcost, hpath⟩ := extend?_eq_some hextend
    have hlt : start < stop := by
      have := List.mem_range'_1.mp hstart
      omega
    exact .inr ⟨start, before, cost, hlt, hbefore, hcost, hpath⟩

/-! ### Going back -/

/-- Where the last word of the cheapest path to an offset starts. -/
def back (lex : Lexicon κ) (word : Array Char) (stop : Nat) : Option Nat :=
  (lex.best word stop).bind fun path => path.ranges.head?.map Prod.fst

/-- Goes back from start to start until there is nothing before, in a number of turns that
is given, and puts the ranges in front of those that it has. -/
def follow (back : Nat → Option Nat) :
    (turns stop : Nat) → List (Nat × Nat) → Option (List (Nat × Nat))
  | _, 0, ranges => some ranges
  | 0, _ + 1, _ => none
  | turns + 1, stop + 1, ranges =>
    (back (stop + 1)).bind fun start => follow back turns start ((start, stop + 1) :: ranges)

/-- **A step back leads to an earlier offset**, to which known words lead as well. -/
theorem lt_of_back_eq_some {stop start : Nat} (h : lex.back word stop = some start) :
    start < stop ∧ (lex.best word start).isSome = true := by
  obtain ⟨path, hpath, hhead⟩ := Option.bind_eq_some_iff.mp h
  rcases best_cases hpath with ⟨-, rfl⟩ | ⟨start', before, cost, hlt, hbefore, -, rfl⟩
  · cases hhead
  · simp only [List.head?_cons, Option.map_some, Option.some.injEq] at hhead
    subst hhead
    exact ⟨hlt, by rw [hbefore]; rfl⟩

/-- **Going back finds the path again**, in no more turns than the offset says. -/
theorem follow_back {turns stop : Nat} {path : Path κ} (h : lex.best word stop = some path)
    (hturns : stop ≤ turns) (ranges : List (Nat × Nat)) :
    follow (lex.back word) turns stop ranges = some (path.ranges.reverse ++ ranges) := by
  induction turns generalizing stop path ranges with
  | zero =>
      obtain rfl := Nat.le_zero.mp hturns
      rw [best_zero, Option.some.injEq] at h
      subst h
      rfl
  | succ turns ih =>
      rcases best_cases h with ⟨rfl, rfl⟩ | ⟨start, before, cost, hlt, hbefore, -, rfl⟩
      · rfl
      · obtain ⟨stop, rfl⟩ := Nat.exists_eq_succ_of_ne_zero (Nat.ne_zero_of_lt hlt)
        have hback : lex.back word (stop + 1) = some start := by
          rw [back, h]
          rfl
        rw [follow, hback, Option.bind_some, ih hbefore (by omega), List.reverse_cons,
          List.append_assoc]
        rfl

/-- **A segmentation is what going back from the end finds**, within as many turns as the
word has characters. -/
theorem segment?_eq_follow (lex : Lexicon κ) (word : List Char) :
    lex.segment? word = follow (lex.back word.toArray) word.length word.length [] := by
  show (lex.best word.toArray word.length).map (fun path => path.ranges.reverse) = _
  rcases hbest : lex.best word.toArray word.length with - | path
  · -- nothing leads to the end, so there is no way back from it
    have hpos : word.length ≠ 0 := by
      intro hzero
      rw [hzero, best_zero] at hbest
      cases hbest
    obtain ⟨size, hsize⟩ := Nat.exists_eq_succ_of_ne_zero hpos
    rw [hsize] at hbest ⊢
    rw [follow, back, hbest]
    rfl
  · rw [follow_back hbest (Nat.le_refl _), List.append_nil]
    rfl

end Lexicon

end TokenAlignment
