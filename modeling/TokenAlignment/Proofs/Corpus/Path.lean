/-
TokenAlignment/Proofs/Corpus/Path.lean

Paths as lists of components, and their order.

    (p.child n).components  =  p.components ++ [n]        for a name n

Two paths can be written differently and have the same components: a repeated slash, a slash at
the end and a dot for the place one is in do not count, except for a dot at the start.  Paths are
compared component by component, and names by their bytes.

Below one directory that is the order of the names that lead on from it (`before_pathBelow`), so
a walk can put its files in order before it writes a path.

The extension of a name is what stands behind its last dot (`extensionOf?_eq_some_iff`).
-/
import TokenAlignment.Corpus.Discovery
import TokenAlignment.Proofs.Text.ByteOrder
import TokenAlignment.Proofs.Text.Split
import Mathlib.Data.String.Basic

namespace TokenAlignment

namespace FilePath

/-! ### Components -/

/-- A component of a path. -/
inductive Component where
  /-- The root of all paths. -/
  | root
  /-- The place that a relative path starts from, if the path says so. -/
  | here
  /-- The directory above. -/
  | above
  | name (n : String)
  deriving DecidableEq, Repr

namespace Component

/-- The place of the component among those of other kinds. -/
def rank : Component → Nat
  | root => 0
  | here => 1
  | above => 2
  | name _ => 3

/-- The order of components: names stand behind all others, and by their bytes. -/
def Before : Component → Component → Prop
  | name n, name m => Utf8.encode n.toList < Utf8.encode m.toList
  | a, b => a.rank < b.rank

/-- The component that a part of a path is. -/
def ofName (n : String) : Component :=
  if n = ".." then above else name n

end Component

/-- The components of the path, from the left. -/
def components (p : FilePath) : List Component :=
  (if p.isAbsolute then [.root] else if p.parts.head? = some ['.'] then [.here] else []) ++
    p.names.map .ofName

/-- The order of paths, component by component. -/
def Before (p q : FilePath) : Prop :=
  List.Lex Component.Before p.components q.components

/-- What an entry of a directory can be called. -/
structure IsName (n : String) : Prop where
  ne_empty : n ≠ ""
  ne_here : n ≠ "."
  ne_above : n ≠ ".."
  no_slash : '/' ∉ n.toList

theorem isName_iff {n : String} :
    IsName n ↔ n ≠ "" ∧ n ≠ "." ∧ n ≠ ".." ∧ '/' ∉ n.toList := by
  constructor
  · rintro ⟨hempty, hhere, habove, hslash⟩
    exact ⟨hempty, hhere, habove, hslash⟩
  · rintro ⟨hempty, hhere, habove, hslash⟩
    exact ⟨hempty, hhere, habove, hslash⟩

instance (n : String) : Decidable (IsName n) :=
  decidable_of_iff _ isName_iff.symm

/-! ### Entries of directories -/

section Child

variable {n : String}

/-- What stands between slashes, without what is empty. -/
def slashParts (text : List Char) : List (List Char) :=
  (Text.fields '/' text).filter fun part => !part.isEmpty

theorem parts_eq (p : FilePath) : p.parts = slashParts p.toList := rfl

theorem slashParts_append (before after : List Char) :
    slashParts (before ++ '/' :: after) = slashParts before ++ slashParts after := by
  rw [slashParts, Text.fields_append, List.filter_append]
  rfl

theorem slashParts_name (h : IsName n) : slashParts n.toList = [n.toList] := by
  have hne : n.toList ≠ [] := fun hnil => h.ne_empty (String.toList_eq_nil_iff.mp hnil)
  rw [slashParts, Text.fields_of_notMem h.no_slash]
  simpa using hne

/-- The text of an entry's path: a slash in front of the name, if none is there. -/
theorem toList_child (p : FilePath) (n : String) :
    (p.toList = [] ∧ (p.child n).toList = n.toList) ∨
    (∃ before, p.toList = before ++ ['/'] ∧ (p.child n).toList = before ++ '/' :: n.toList) ∨
    (p.toList ≠ [] ∧ (p.child n).toList = p.toList ++ '/' :: n.toList) := by
  by_cases hempty : p = ""
  · subst hempty
    exact .inl ⟨rfl, by simp [child]⟩
  by_cases hslash : p.toList.getLast? = some '/'
  · obtain ⟨before, hbefore⟩ := List.getLast?_eq_some_iff.mp hslash
    exact .inr (.inl ⟨before, hbefore, by simp [child, String.toList_append, hbefore]⟩)
  · refine .inr (.inr ⟨by simpa using hempty, ?_⟩)
    simp [child, hempty, hslash, String.toList_append]

/-- **An entry has one part more than its directory.** -/
theorem parts_child (h : IsName n) (p : FilePath) : (p.child n).parts = p.parts ++ [n.toList] := by
  have hempty : slashParts [] = [] := rfl
  rw [parts_eq, parts_eq]
  -- what is empty is no part, so a slash at the end of the directory makes no difference
  rcases toList_child p n with ⟨hnil, hchild⟩ | ⟨before, hbefore, hchild⟩ | ⟨-, hchild⟩
  · rw [hnil, hchild, hempty, slashParts_name h, List.nil_append]
  · rw [hbefore, hchild, slashParts_append, slashParts_append, slashParts_name h, hempty,
      List.append_nil]
  · rw [hchild, slashParts_append, slashParts_name h]

theorem isAbsolute_child (h : IsName n) (p : FilePath) : (p.child n).isAbsolute = p.isAbsolute := by
  have hhead : (p.child n).toList.head? = some '/' ↔ p.toList.head? = some '/' := by
    rcases toList_child p n with ⟨hnil, hchild⟩ | ⟨before, hbefore, hchild⟩ | ⟨hne, hchild⟩
    · rw [hnil, hchild]
      exact iff_of_false (fun hhead => h.no_slash (List.mem_of_head? hhead)) (by simp)
    · rw [hbefore, hchild, List.head?_append, List.head?_append]
      exact Iff.rfl
    · rw [hchild, List.head?_append_of_ne_nil _ hne]
  rw [isAbsolute, isAbsolute, decide_eq_decide]
  exact hhead

theorem names_child (h : IsName n) (p : FilePath) : (p.child n).names = p.names ++ [n] := by
  have hdot : n.toList ≠ ['.'] := fun hdot => h.ne_here (String.toList_inj.mp hdot)
  rw [names, names, parts_child h, List.filter_append, List.map_append,
    List.filter_cons_of_pos (by simpa using hdot)]
  simp

/-- **An entry has one component more than its directory.** -/
theorem components_child (h : IsName n) (p : FilePath) :
    (p.child n).components = p.components ++ [.name n] := by
  have hdot : n.toList ≠ ['.'] := fun hdot => h.ne_here (String.toList_inj.mp hdot)
  have hhead : (p.parts ++ [n.toList]).head? = some ['.'] ↔ p.parts.head? = some ['.'] := by
    rcases p.parts with - | ⟨part, rest⟩
    · simpa using hdot
    · exact Iff.rfl
  have hlast : Component.ofName n = .name n := if_neg h.ne_above
  rw [components, components, isAbsolute_child h, parts_child h, names_child h, List.map_append,
    ← List.append_assoc]
  simp only [hhead, List.map_cons, List.map_nil, hlast]

end Child

/-! ### Places below a directory -/

open Discovery

theorem components_pathBelow {names : List String} (h : ∀ n ∈ names, IsName n)
    (root : FilePath) :
    (pathBelow root names).components = root.components ++ names.map .name := by
  induction names generalizing root with
  | nil => exact (List.append_nil _).symm
  | cons n names ih =>
      rw [List.forall_mem_cons] at h
      show (pathBelow (root.child n) names).components = _
      rw [ih h.2, components_child h.1, List.append_assoc]
      rfl

/-- **Different names lead to different paths.** -/
theorem pathBelow_inj {root : FilePath} {names names' : List String}
    (h : ∀ n ∈ names, IsName n) (h' : ∀ n ∈ names', IsName n)
    (heq : pathBelow root names = pathBelow root names') : names = names' := by
  have hcomponents := congrArg components heq
  rw [components_pathBelow h, components_pathBelow h', List.append_cancel_left_eq] at hcomponents
  exact List.map_injective_iff.mpr (fun _ _ hname => Component.name.inj hname) hcomponents

/-- Names are compared by their bytes. -/
theorem compare_eq_lt_iff {n m : String} :
    compare n m = .lt ↔ Utf8.encode n.toList < Utf8.encode m.toList := by
  rw [Utf8.encode_lt_encode_iff, ← String.lt_iff_toList_lt]
  exact compareOfLessAndEq_eq_lt

theorem lex_of_compareNames {names names' : List String} (h : compareNames names names' = .lt) :
    List.Lex Component.Before (names.map .name) (names'.map .name) := by
  fun_induction compareNames names names' with
  | case1 => cases h
  | case2 m names' => exact .nil
  | case3 n names => cases h
  | case4 n names m names' ih =>
      rw [Ordering.then_eq_lt] at h
      rcases h with hlt | ⟨heq, hrest⟩
      · exact .rel (compare_eq_lt_iff.mp hlt)
      · obtain rfl : n = m := Std.compare_eq_iff_eq.mp heq
        exact .cons (ih hrest)

/-- **Below a directory, paths are in the order of the names that lead to them.** -/
theorem before_pathBelow {root : FilePath} {names names' : List String}
    (h : ∀ n ∈ names, IsName n) (h' : ∀ n ∈ names', IsName n)
    (hlt : compareNames names names' = .lt) :
    (pathBelow root names).Before (pathBelow root names') := by
  rw [Before, components_pathBelow h, components_pathBelow h']
  exact List.Lex.append_left _ (lex_of_compareNames hlt) _

/-- No path comes before itself. -/
theorem not_before_self (p : FilePath) : ¬ p.Before p := by
  have hcomponent (a : Component) : ¬ Component.Before a a := by
    cases a with
    | name n => exact List.lt_irrefl _
    | root | here | above => exact Nat.lt_irrefl _
  rw [Before]
  induction p.components with
  | nil => exact List.not_lex_nil
  | cons a as ih =>
      rintro (_ | hfirst | hrest)
      · exact hcomponent a hfirst
      · exact ih hrest

/-! ### Extensions -/

/-- What stands behind the last dot is the extension, unless nothing stands in front of it. -/
theorem extensionOf?_append (stem : String) {extension : String}
    (h : '.' ∉ extension.toList) :
    extensionOf? (stem ++ "." ++ extension) = if stem = "" then none else some extension := by
  have hlist : (stem ++ "." ++ extension).toList = stem.toList ++ '.' :: extension.toList := by
    simp [String.toList_append]
  rw [extensionOf?, hlist, Text.fields_append, Text.fields_of_notMem h, List.reverse_append,
    List.reverse_singleton, List.singleton_append]
  rcases hstem : (Text.fields '.' stem.toList).reverse with - | ⟨first, rest⟩
  · -- there is always a field
    rw [List.reverse_eq_nil_iff, Text.fields_eq_splitOn] at hstem
    exact absurd hstem (List.splitOn_ne_nil '.' stem.toList)
  · have hempty : (first.isEmpty && rest.isEmpty) = true ↔ stem = "" := by
      rw [Bool.and_eq_true, List.isEmpty_iff, List.isEmpty_iff]
      constructor
      · rintro ⟨rfl, rfl⟩
        have hjoined := Text.intercalate_fields '.' stem.toList
        rw [List.reverse_eq_iff.mp hstem] at hjoined
        exact String.toList_eq_nil_iff.mp hjoined.symm
      · rintro rfl
        obtain ⟨rfl, rfl⟩ := List.cons.inj hstem
        exact ⟨rfl, rfl⟩
    simp only [hempty, String.ofList_toList]

theorem extensionOf?_eq_some_iff {name extension : String} :
    extensionOf? name = some extension
      ↔ ∃ stem, stem ≠ "" ∧ name = stem ++ "." ++ extension ∧ '.' ∉ extension.toList := by
  constructor
  · intro h
    by_cases hdot : '.' ∈ name.toList
    · -- the last dot is the first one from the right
      obtain ⟨after, before, hname, hlast⟩ :=
        List.eq_append_cons_of_mem (List.mem_reverse.mpr hdot)
      have hsplit : name
          = String.ofList before.reverse ++ "." ++ String.ofList after.reverse := by
        rw [← String.toList_inj, ← List.reverse_inj, hname]
        simp [String.toList_append]
      have hafter : '.' ∉ (String.ofList after.reverse).toList := by
        simpa using hlast
      rw [hsplit, extensionOf?_append _ hafter] at h
      split at h
      · cases h
      · rename_i hbefore
        obtain rfl := Option.some.inj h
        exact ⟨_, hbefore, hsplit, hafter⟩
    · rw [extensionOf?, Text.fields_of_notMem hdot] at h
      cases h
  · rintro ⟨stem, hstem, rfl, hdot⟩
    rw [extensionOf?_append stem hdot, if_neg hstem]

end FilePath

end TokenAlignment
