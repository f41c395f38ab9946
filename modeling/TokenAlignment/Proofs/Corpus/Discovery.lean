/-
TokenAlignment/Proofs/Corpus/Discovery.lean

Which files discovery returns, said without the walk that finds them:

    file ∈ sources root t   iff   some names lead from root to a file of t, its extension tells
                                  the language, no name on the way is hidden, and no directory
                                  on the way is one of those that are skipped.

Design.  The walk follows the tree, but whether a file counts is a matter of the names that lead to
it, so the law is by induction on these names (`mem_filesBelow_iff`).  In a proper tree different
files have different names, the order of names is strict on what is found, and so the sorted list
is determined by its members: neither the order in which a directory lists its entries
(`Relisted`) nor the sort matters.

Main result: `sources_eligible`.
-/
import TokenAlignment.Proofs.Corpus.Path
import Mathlib.Data.List.Nodup

namespace TokenAlignment

/-! ### Extensions -/

namespace Language

/-- No extension tells two languages. -/
theorem eq_of_mem_extensions {lang lang' : Language} {extension : String}
    (h : extension ∈ lang.extensions) (h' : extension ∈ lang'.extensions) : lang = lang' := by
  have hapart : ∀ e ∈ lang.extensions, e ∈ lang'.extensions → lang = lang' := by
    cases lang <;> cases lang' <;> decide
  exact hapart extension h h'

theorem ofExtension?_eq_some_iff {extension : String} {lang : Language} :
    ofExtension? extension = some lang
      ↔ String.ofList (extension.toList.map Char.toLower) ∈ lang.extensions := by
  rw [ofExtension?]
  generalize String.ofList (extension.toList.map Char.toLower) = word
  constructor
  · intro h
    simpa using List.find?_some h
  · intro h
    rcases hfind : all.find? fun lang => lang.extensions.contains word with - | lang'
    · have := List.find?_eq_none.mp hfind lang (mem_all lang)
      simp [h] at this
    · have hlang' := List.find?_some hfind
      rw [List.contains_iff_mem] at hlang'
      rw [eq_of_mem_extensions h hlang']
      exact hfind

end Language

namespace DirTree

/-! ### Trees -/

/-- The names lead from one tree to another, an entry at a time. -/
inductive Leads : DirTree → List String → DirTree → Prop
  | here (t : DirTree) : Leads t [] t
  | entry {entries : List (String × DirTree)} {name : String} {names : List String}
      {t t' : DirTree} : (name, t) ∈ entries → Leads t names t' →
        Leads (.directory entries) (name :: names) t'

/-- Every entry has a name, and no two entries of one directory have the same. -/
inductive Proper : DirTree → Prop
  | file : Proper .file
  | directory {entries : List (String × DirTree)} :
      (∀ e ∈ entries, FilePath.IsName e.1) → (entries.map Prod.fst).Nodup →
        (∀ e ∈ entries, Proper e.2) → Proper (.directory entries)

/-- Two listings of one directory, which differ in the order of entries, here or further below. -/
inductive Relisted : List (String × DirTree) → List (String × DirTree) → Prop
  | perm {entries entries' : List (String × DirTree)} :
      entries.Perm entries' → Relisted entries entries'
  | inside {name : String} {listed listed' entries : List (String × DirTree)} :
      Relisted listed listed' →
        Relisted ((name, .directory listed) :: entries) ((name, .directory listed') :: entries)
  | trans {entries entries' entries'' : List (String × DirTree)} :
      Relisted entries entries' → Relisted entries' entries'' → Relisted entries entries''

variable {t u u' : DirTree} {names names' : List String}

theorem Leads.append (h : Leads t names u) (h' : Leads u names' u') :
    Leads t (names ++ names') u' := by
  induction h with
  | here t => exact h'
  | entry hentry _ ih => exact .entry hentry (ih h')

theorem Leads.isName (h : Leads t names u) (ht : t.Proper) : ∀ n ∈ names, FilePath.IsName n := by
  induction h with
  | here t => simp
  | entry hentry _ ih =>
      obtain - | ⟨hnames, -, hbelow⟩ := ht
      exact List.forall_mem_cons.mpr ⟨hnames _ hentry, ih (hbelow _ hentry)⟩

/-- Names lead to one place. -/
theorem Leads.unique (h : Leads t names u) (h' : Leads t names u') (ht : t.Proper) : u = u' := by
  induction h with
  | here t =>
      cases h'
      rfl
  | entry hentry _ ih =>
      obtain - | ⟨-, hdistinct, hbelow⟩ := ht
      obtain - | ⟨hentry', hrest'⟩ := h'
      obtain rfl := congrArg Prod.snd (List.inj_on_of_nodup_map hdistinct hentry hentry' rfl)
      exact ih hrest' (hbelow _ hentry)

end DirTree

namespace Discovery

open DirTree

variable {entries entries' : List (String × DirTree)} {names : List String} {lang : Language}

/-! ### Eligible files -/

/-- The extension of the name is one of the language, in any case of its letters. -/
def HasExtension (name : String) (lang : Language) : Prop :=
  ∃ stem extension, stem ≠ "" ∧ name = stem ++ "." ++ extension ∧ '.' ∉ extension.toList ∧
    String.ofList (extension.toList.map Char.toLower) ∈ lang.extensions

theorem languageOf?_eq_some_iff {name : String} :
    languageOf? name = some lang ↔ HasExtension name lang := by
  simp only [languageOf?, Option.bind_eq_some_iff, FilePath.extensionOf?_eq_some_iff,
    Language.ofExtension?_eq_some_iff, HasExtension]
  constructor
  · rintro ⟨extension, ⟨stem, hstem, hname, hdot⟩, hlang⟩
    exact ⟨stem, extension, hstem, hname, hdot, hlang⟩
  · rintro ⟨stem, extension, hstem, hname, hdot, hlang⟩
    exact ⟨extension, ⟨stem, hstem, hname, hdot⟩, hlang⟩

/-- The names lead to a file that counts: none of them is hidden, none of the directories among
them is one that is skipped, and the file has an extension of the language. -/
structure Eligible (entries : List (String × DirTree)) (names : List String) (lang : Language) :
    Prop where
  leads : Leads (.directory entries) names .file
  visible : ∀ n ∈ names, isHidden n = false
  kept : ∀ n ∈ names.dropLast, n ∉ skippedDirectories
  extension : ∃ n, names.getLast? = some n ∧ HasExtension n lang

theorem not_eligible_nil : ¬ Eligible entries [] lang := by
  rintro ⟨-, -, -, n, hlast, -⟩
  cases hlast

theorem eligible_singleton_iff {n : String} : Eligible entries [n] lang
    ↔ (n, .file) ∈ entries ∧ isHidden n = false ∧ HasExtension n lang := by
  constructor
  · rintro ⟨hleads, hvisible, -, m, hlast, hextension⟩
    obtain - | ⟨hentry, hrest⟩ := hleads
    obtain rfl : n = m := Option.some.inj hlast
    cases hrest
    exact ⟨hentry, hvisible n (List.mem_singleton_self n), hextension⟩
  · rintro ⟨hentry, hvisible, hextension⟩
    exact ⟨.entry hentry (.here _), by simpa using hvisible, by simp, n, rfl, hextension⟩

theorem eligible_cons_iff {n m : String} : Eligible entries (n :: m :: names) lang
    ↔ ∃ below, (n, .directory below) ∈ entries ∧ isHidden n = false ∧ n ∉ skippedDirectories ∧
      Eligible below (m :: names) lang := by
  constructor
  · rintro ⟨hleads, hvisible, hkept, l, hlast, hextension⟩
    rw [List.forall_mem_cons] at hvisible
    rw [List.dropLast_cons_cons, List.forall_mem_cons] at hkept
    rw [List.getLast?_cons_cons] at hlast
    obtain - | ⟨hentry, - | ⟨hentry', hrest⟩⟩ := hleads
    exact ⟨_, hentry, hvisible.1, hkept.1, .entry hentry' hrest, hvisible.2, hkept.2, l, hlast,
      hextension⟩
  · rintro ⟨below, hentry, hvisible, hkept, hrest⟩
    obtain ⟨l, hlast, hextension⟩ := hrest.extension
    refine ⟨.entry hentry hrest.leads, List.forall_mem_cons.mpr ⟨hvisible, hrest.visible⟩, ?_, l,
      ?_, hextension⟩
    · rw [List.dropLast_cons_cons, List.forall_mem_cons]
      exact ⟨hkept, hrest.kept⟩
    · rw [List.getLast?_cons_cons, hlast]

/-! ### What the walk finds -/

theorem filesBelow_eq_flatMap (entries : List (String × DirTree)) :
    filesBelow entries
      = entries.flatMap fun e => if isHidden e.1 then [] else filesAt e.1 e.2 := by
  induction entries with
  | nil => rfl
  | cons e entries ih => rw [filesBelow, ih, List.flatMap_cons]

theorem mem_filesAt_file {n : String} {f : List String × Language} :
    f ∈ filesAt n .file ↔ f.1 = [n] ∧ HasExtension n f.2 := by
  rw [filesAt, ← languageOf?_eq_some_iff]
  obtain ⟨names, lang⟩ := f
  rcases languageOf? n with - | lang' <;> simp [eq_comm]

theorem mem_filesAt_directory {n : String} {below : List (String × DirTree)}
    {f : List String × Language} : f ∈ filesAt n (.directory below)
      ↔ n ∉ skippedDirectories ∧ ∃ g ∈ filesBelow below, (n :: g.1, g.2) = f := by
  rw [filesAt]
  split
  · rename_i hskipped
    rw [List.contains_iff_mem] at hskipped
    exact iff_of_false List.not_mem_nil fun h => h.1 hskipped
  · rename_i hkept
    rw [List.contains_iff_mem] at hkept
    rw [List.mem_map, and_iff_right hkept]

theorem mem_filesBelow_cons_iff {n : String} : (n :: names, lang) ∈ filesBelow entries
    ↔ isHidden n = false ∧ (names = [] ∧ (n, .file) ∈ entries ∧ HasExtension n lang ∨
      ∃ below, (n, .directory below) ∈ entries ∧ n ∉ skippedDirectories ∧
        (names, lang) ∈ filesBelow below) := by
  rw [filesBelow_eq_flatMap, List.mem_flatMap]
  constructor
  · rintro ⟨⟨m, t⟩, hentry, hf⟩
    dsimp only at hf
    split at hf
    · cases hf
    rename_i hvisible
    rw [Bool.not_eq_true] at hvisible
    cases t with
    | file =>
        obtain ⟨hnames, hextension⟩ := mem_filesAt_file.mp hf
        obtain ⟨rfl, rfl⟩ := List.cons.inj hnames
        exact ⟨hvisible, .inl ⟨rfl, hentry, hextension⟩⟩
    | directory below =>
        obtain ⟨hkept, g, hg, heq⟩ := mem_filesAt_directory.mp hf
        obtain ⟨⟨rfl, rfl⟩, rfl⟩ : (m = n ∧ g.1 = names) ∧ g.2 = lang := by
          simpa using heq
        exact ⟨hvisible, .inr ⟨below, hentry, hkept, hg⟩⟩
  · rintro ⟨hvisible, ⟨rfl, hentry, hextension⟩ | ⟨below, hentry, hkept, hrest⟩⟩
    · refine ⟨_, hentry, ?_⟩
      rw [hvisible]
      exact mem_filesAt_file.mpr ⟨rfl, hextension⟩
    · refine ⟨_, hentry, ?_⟩
      rw [hvisible]
      exact mem_filesAt_directory.mpr ⟨hkept, _, hrest, rfl⟩

/-- What is found at an entry has the name of the entry in front. -/
theorem exists_cons_of_mem_filesAt {n : String} {t : DirTree} {f : List String × Language}
    (h : f ∈ filesAt n t) : ∃ rest, f.1 = n :: rest := by
  cases t with
  | file => exact ⟨[], (mem_filesAt_file.mp h).1⟩
  | directory below =>
      obtain ⟨-, g, -, rfl⟩ := mem_filesAt_directory.mp h
      exact ⟨g.1, rfl⟩

theorem exists_cons_of_mem_filesBelow {f : List String × Language} (h : f ∈ filesBelow entries) :
    ∃ n rest, f.1 = n :: rest := by
  rw [filesBelow_eq_flatMap, List.mem_flatMap] at h
  obtain ⟨⟨n, t⟩, -, hf⟩ := h
  dsimp only at hf
  split at hf
  · cases hf
  · exact ⟨n, exists_cons_of_mem_filesAt hf⟩

/-- **The walk finds the eligible files**, each by the names that lead to it. -/
theorem mem_filesBelow_iff : (names, lang) ∈ filesBelow entries ↔ Eligible entries names lang := by
  -- the names end before the tree does, so the induction is on them
  induction names generalizing entries with
  | nil =>
      refine iff_of_false (fun h => ?_) not_eligible_nil
      obtain ⟨n, rest, hnil⟩ := exists_cons_of_mem_filesBelow h
      cases hnil
  | cons n names ih =>
      rw [mem_filesBelow_cons_iff]
      simp only [ih]
      rcases names with - | ⟨m, names⟩
      · rw [eligible_singleton_iff]
        simp only [not_eligible_nil, and_false, exists_false, or_false, true_and]
        exact and_left_comm
      · rw [eligible_cons_iff]
        simp only [reduceCtorEq, false_and, false_or]
        constructor
        · rintro ⟨hvisible, below, hentry, hkept, hrest⟩
          exact ⟨below, hentry, hvisible, hkept, hrest⟩
        · rintro ⟨below, hentry, hvisible, hkept, hrest⟩
          exact ⟨hvisible, below, hentry, hkept, hrest⟩

/-- Names tell the language of a file. -/
theorem Eligible.language_unique {lang' : Language} (h : Eligible entries names lang)
    (h' : Eligible entries' names lang') : lang = lang' := by
  obtain ⟨n, hlast, hextension⟩ := h.extension
  obtain ⟨n', hlast', hextension'⟩ := h'.extension
  obtain rfl : n = n' := Option.some.inj (hlast.symm.trans hlast')
  rw [← languageOf?_eq_some_iff] at hextension hextension'
  exact Option.some.inj (hextension.symm.trans hextension')

/-- Entries with different names find different files. -/
theorem pairwise_filesBelow_of_entries (hdistinct : (entries.map Prod.fst).Nodup)
    (h : ∀ e ∈ entries, (filesAt e.1 e.2).Pairwise fun f g => f.1 ≠ g.1) :
    (filesBelow entries).Pairwise fun f g => f.1 ≠ g.1 := by
  rw [filesBelow_eq_flatMap, List.pairwise_flatMap]
  constructor
  · intro e he
    split
    · exact .nil
    · exact h e he
  · refine (List.pairwise_map.mp hdistinct).imp ?_
    intro e e' hne f hf g hg heq
    split at hf <;> split at hg
    · cases hf
    · cases hf
    · cases hg
    · obtain ⟨rest, hrest⟩ := exists_cons_of_mem_filesAt hf
      obtain ⟨rest', hrest'⟩ := exists_cons_of_mem_filesAt hg
      rw [hrest, hrest'] at heq
      exact hne (List.cons.inj heq).1

theorem pairwise_filesAt {t : DirTree} (h : t.Proper) (n : String) :
    (filesAt n t).Pairwise fun f g => f.1 ≠ g.1 := by
  induction h generalizing n with
  | file =>
      rw [filesAt]
      split
      · exact List.pairwise_singleton _ _
      · exact .nil
  | directory _ hdistinct _ ih =>
      rw [filesAt]
      split
      · exact .nil
      · refine List.pairwise_map.mpr ?_
        refine (pairwise_filesBelow_of_entries hdistinct fun e he => ih e he e.1).imp ?_
        intro f g hne heq
        exact hne (List.cons.inj heq).2

/-- **No file is found twice.** -/
theorem pairwise_filesBelow (h : (DirTree.directory entries).Proper) :
    (filesBelow entries).Pairwise fun f g => f.1 ≠ g.1 := by
  obtain - | ⟨-, hdistinct, hbelow⟩ := h
  exact pairwise_filesBelow_of_entries hdistinct fun e he => pairwise_filesAt (hbelow e he) e.1

/-! ### Listings in another order -/

/-- **Another listing finds the same files**, in another order. -/
theorem filesBelow_perm (h : Relisted entries entries') :
    (filesBelow entries).Perm (filesBelow entries') := by
  induction h with
  | perm h =>
      -- the walk is a flat map over the listing
      rw [filesBelow_eq_flatMap, filesBelow_eq_flatMap]
      exact h.flatMap_right _
  | inside _ ih =>
      rw [filesBelow, filesBelow, filesAt, filesAt]
      refine List.Perm.append_right _ ?_
      split
      · exact .nil
      split
      · exact .nil
      · exact ih.map _
  | trans _ _ ih ih' => exact ih.trans ih'

/-! ### The order of the files -/

theorem compareNames_eq : compareNames = List.compareLex compare := by
  funext a b
  fun_induction compareNames a b with
  | case1 => rfl
  | case2 => rfl
  | case3 => rfl
  | case4 a as b bs ih => rw [ih, List.compareLex_cons_cons]

instance : Std.TransCmp compareNames := by
  rw [compareNames_eq]
  infer_instance

instance : Std.LawfulEqCmp compareNames := by
  rw [compareNames_eq]
  infer_instance

/-- The order that files are sorted by. -/
def upTo (f g : List String × Language) : Bool :=
  (compareNames f.1 g.1).isLE

variable {f g : List String × Language}

theorem compareNames_swap (a b : List String) : compareNames b a = (compareNames a b).swap :=
  Std.OrientedCmp.eq_swap

theorem upTo_total (f g : List String × Language) : (upTo f g || upTo g f) = true := by
  rw [upTo, upTo, compareNames_swap f.1 g.1]
  cases compareNames f.1 g.1 <;> rfl

theorem eq_of_upTo (h : upTo f g = true) (h' : upTo g f = true) : f.1 = g.1 := by
  rw [upTo, compareNames_swap f.1 g.1] at h'
  rw [upTo] at h
  rcases hcompare : compareNames f.1 g.1
  · rw [hcompare] at h'
    cases h'
  · exact Std.LawfulEqCmp.eq_of_compare hcompare
  · rw [hcompare] at h
    cases h

/-- The files below a directory, in order. -/
def sorted (entries : List (String × DirTree)) : List (List String × Language) :=
  (filesBelow entries).mergeSort upTo

theorem mem_sorted_iff : (names, lang) ∈ sorted entries ↔ Eligible entries names lang := by
  rw [sorted, List.mem_mergeSort, mem_filesBelow_iff]

theorem pairwise_upTo_sorted (entries : List (String × DirTree)) :
    (sorted entries).Pairwise fun f g => upTo f g = true := by
  refine List.pairwise_mergeSort ?_ upTo_total _
  intro f g k hfg hgk
  exact Std.TransCmp.isLE_trans hfg hgk

/-- The order of names is strict on what is found. -/
theorem pairwise_sorted (h : (DirTree.directory entries).Proper) :
    (sorted entries).Pairwise fun f g => compareNames f.1 g.1 = .lt := by
  have hne : (sorted entries).Pairwise fun f g => f.1 ≠ g.1 :=
    (List.mergeSort_perm _ _).symm.pairwise (pairwise_filesBelow h) Ne.symm
  refine (pairwise_upTo_sorted entries).imp₂ ?_ hne
  intro f g hle hne
  rcases hcompare : compareNames f.1 g.1
  · rfl
  · exact absurd (Std.LawfulEqCmp.eq_of_compare hcompare) hne
  · rw [upTo, hcompare] at hle
    cases hle

/-- **The order of a listing does not matter.** -/
theorem sorted_relisted (h : Relisted entries entries') : sorted entries = sorted entries' := by
  have hperm : (sorted entries).Perm (sorted entries') :=
    (List.mergeSort_perm _ _).trans ((filesBelow_perm h).trans (List.mergeSort_perm _ _).symm)
  refine hperm.eq_of_pairwise ?_ (pairwise_upTo_sorted entries) (pairwise_upTo_sorted entries')
  rintro ⟨names, lang⟩ ⟨names', lang'⟩ hf hg hle hge
  -- names that stand equal in the order are equal, and they tell the language
  obtain rfl : names = names' := eq_of_upTo hle hge
  rw [Eligible.language_unique (mem_sorted_iff.mp hf) (mem_sorted_iff.mp hg)]

theorem sources_eq (root : FilePath) (entries : List (String × DirTree)) :
    sources root (.directory entries)
      = (sorted entries).map fun f => ⟨pathBelow root f.1, f.2⟩ := rfl

theorem mem_sources_iff {root : FilePath} {file : SourceFile} :
    file ∈ sources root (.directory entries)
      ↔ ∃ names, file.path = pathBelow root names ∧ Eligible entries names file.language := by
  rw [sources_eq, List.mem_map]
  constructor
  · rintro ⟨⟨names, lang⟩, hf, rfl⟩
    exact ⟨names, rfl, mem_sorted_iff.mp hf⟩
  · rintro ⟨names, hpath, hf⟩
    exact ⟨(names, file.language), mem_sorted_iff.mpr hf, by rw [← hpath]⟩

/-- The files come in the order of their paths. -/
theorem pairwise_sources (h : (DirTree.directory entries).Proper) (root : FilePath) :
    (sources root (.directory entries)).Pairwise fun f g => f.path.Before g.path := by
  rw [sources_eq, List.pairwise_map]
  refine (pairwise_sorted h).imp_of_mem ?_
  rintro ⟨names, lang⟩ ⟨names', lang'⟩ hf hg hlt
  exact FilePath.before_pathBelow ((mem_sorted_iff.mp hf).leads.isName h)
    ((mem_sorted_iff.mp hg).leads.isName h) hlt

/-- What counts below a directory that the walk enters counts as a whole. -/
theorem Eligible.append {below : List (String × DirTree)} {names' : List String}
    (h : Eligible below names' lang) (hleads : Leads (.directory entries) names (.directory below))
    (hvisible : ∀ n ∈ names, isHidden n = false) (hkept : ∀ n ∈ names, n ∉ skippedDirectories) :
    Eligible entries (names ++ names') lang := by
  obtain ⟨n, hlast, hextension⟩ := h.extension
  have hne : names' ≠ [] := by
    rintro rfl
    cases hlast
  refine ⟨hleads.append h.leads, ?_, ?_, n, ?_, hextension⟩
  · exact List.forall_mem_append.mpr ⟨hvisible, h.visible⟩
  · rw [List.dropLast_append_of_ne_nil hne, List.forall_mem_append]
    exact ⟨hkept, h.kept⟩
  · rw [List.getLast?_append, hlast]
    rfl

/-- **Discovery returns exactly the eligible files below a directory.**  A file is returned if the
names that lead to it are not hidden, no directory among them is one that is skipped, and its
extension tells the language; its path is that of the root with these names behind it, whatever
the root is called.  Each file is returned once, and the paths go up.  A directory is never
returned, even if its name has an extension; what counts below it is returned, if the way there is
not barred.  The order in which directories list their entries does not matter. -/
theorem sources_eligible (h : (DirTree.directory entries).Proper) (root : FilePath) :
    (∀ file, file ∈ sources root (.directory entries)
      ↔ ∃ names, file.path = pathBelow root names ∧ Eligible entries names file.language) ∧
    (∀ names t, Leads (.directory entries) names t →
      (pathBelow root names).components = root.components ++ names.map .name) ∧
    (∀ names lang, Eligible entries names lang →
      ((sources root (.directory entries)).map SourceFile.path).count (pathBelow root names) = 1) ∧
    (sources root (.directory entries)).Pairwise (fun f g => f.path.Before g.path) ∧
    (∀ names below, Leads (.directory entries) names (.directory below) →
      (∀ file ∈ sources root (.directory entries), file.path ≠ pathBelow root names) ∧
      ((∀ n ∈ names, isHidden n = false ∧ n ∉ skippedDirectories) →
        ∀ file ∈ sources (pathBelow root names) (.directory below),
          file ∈ sources root (.directory entries))) ∧
    ∀ entries', Relisted entries entries' →
      sources root (.directory entries') = sources root (.directory entries) := by
  refine ⟨fun file => mem_sources_iff, ?_, ?_, pairwise_sources h root, ?_, ?_⟩
  · intro names t hleads
    exact FilePath.components_pathBelow (hleads.isName h) root
  · intro names lang heligible
    refine List.count_eq_one_of_mem ?_ ?_
    · -- a strict order repeats nothing
      refine List.pairwise_map.mpr ((pairwise_sources h root).imp ?_)
      intro f g hbefore heq
      rw [heq] at hbefore
      exact FilePath.not_before_self _ hbefore
    · have hmem : ⟨pathBelow root names, lang⟩ ∈ sources root (.directory entries) :=
        mem_sources_iff.mpr ⟨names, rfl, heligible⟩
      exact List.mem_map_of_mem hmem
  · intro names below hleads
    constructor
    · intro file hfile hpath
      obtain ⟨names', hpath', heligible⟩ := mem_sources_iff.mp hfile
      obtain rfl := FilePath.pathBelow_inj (heligible.leads.isName h) (hleads.isName h)
        (hpath'.symm.trans hpath)
      -- the names would lead to a file and to a directory
      cases heligible.leads.unique hleads h
    · intro hopen file hfile
      obtain ⟨names', hpath, heligible⟩ := mem_sources_iff.mp hfile
      refine mem_sources_iff.mpr ⟨names ++ names', ?_, heligible.append hleads
        (fun n hn => (hopen n hn).1) fun n hn => (hopen n hn).2⟩
      rw [hpath, pathBelow, pathBelow, pathBelow, List.foldl_append]
  · intro entries' hlisted
    rw [sources_eq, sources_eq, sorted_relisted hlisted]

/-- A directory that is called like a source file, with one below it that is skipped. -/
def sourceDirectory : List (String × DirTree) :=
  [("B.PY", .file), ("a.go", .file), ("build", .directory [("c.go", .file)])]

/-- The directory beside one that is hidden and beside files, in the order of their names. -/
def project : List (String × DirTree) :=
  [(".git", .directory [("d.py", .file)]), ("app.js", .file), ("notes.txt", .file),
    ("src.py", .directory sourceDirectory)]

/-- The same listed in another order, also below. -/
def projectRelisted : List (String × DirTree) :=
  [("src.py", .directory sourceDirectory.reverse), ("notes.txt", .file), ("app.js", .file),
    (".git", .directory [("d.py", .file)])]

theorem relisted_project : Relisted project projectRelisted := by
  have hreverse : Relisted project
      [("src.py", .directory sourceDirectory), ("notes.txt", .file), ("app.js", .file),
        (".git", .directory [("d.py", .file)])] := .perm (List.reverse_perm project).symm
  exact hreverse.trans (.inside (.perm (List.reverse_perm sourceDirectory).symm))

theorem proper_project : (DirTree.directory project).Proper := by
  have hfile (name : String) (h : FilePath.IsName name) :
      (DirTree.directory [(name, .file)]).Proper :=
    .directory (by simpa using h) (List.nodup_singleton _) (by simpa using .file)
  have hsource : (DirTree.directory sourceDirectory).Proper := by
    refine .directory (by decide +kernel) (by decide +kernel) ?_
    simpa [sourceDirectory] using ⟨.file, hfile "c.go" (by decide +kernel)⟩
  refine .directory (by decide +kernel) (by decide +kernel) ?_
  simpa [project] using ⟨hfile "d.py" (by decide +kernel), .file, hsource⟩

/-- Neither the name of the root nor the order of the entries matters, and a directory that is
called like a source file is not taken for one. -/
theorem sources_eligible_project :
    (DirTree.directory project).Proper ∧ Relisted project projectRelisted ∧
    Leads (.directory project) ["src.py"] (.directory sourceDirectory) ∧
    (∀ file ∈ sources "dist" (.directory project), file.path ≠ pathBelow "dist" ["src.py"]) ∧
    sources "dist" (.directory projectRelisted)
      = [⟨"dist/app.js", .javascript⟩, ⟨"dist/src.py/B.PY", .python⟩,
          ⟨"dist/src.py/a.go", .go⟩] := by
  obtain ⟨-, -, -, -, hdirectory, hrelisted⟩ := sources_eligible proper_project "dist"
  have hleads : Leads (.directory project) ["src.py"] (.directory sourceDirectory) :=
    .entry (by simp [project]) (.here _)
  refine ⟨proper_project, relisted_project, hleads, (hdirectory _ _ hleads).1, ?_⟩
  have hfiles : filesBelow project
      = [(["app.js"], .javascript), (["src.py", "B.PY"], .python), (["src.py", "a.go"], .go)] := by
    decide +kernel
  have hsorted : sorted project = filesBelow project := by
    refine List.mergeSort_of_pairwise ?_
    rw [hfiles]
    decide +kernel
  rw [hrelisted _ relisted_project, sources_eq, hsorted, hfiles]
  decide +kernel

end Discovery

end TokenAlignment
