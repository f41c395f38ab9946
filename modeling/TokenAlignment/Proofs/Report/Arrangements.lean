/-
TokenAlignment/Proofs/Report/Arrangements.lean

Columns are found by their names, so a table may be arranged in any way,

    read (rows arranged)  =  ok ms     just if     read (rows in the order of the writer)  =  ok ms.

An arrangement has every column somewhere in its header, other columns between them, white space
around names and values, blank lines below the header, and either end of line.

Design.  A row of an arrangement is known by what stands where the header has a column, and
nothing else of it is looked at (`readRow_congr`); so it is read as its values are by themselves
(`Row.metrics?`), in whatever arrangement.  Lines come back up to white space at their ends
(`Written.exists_texts`), for a line loses a carriage return that stands there.

Main result: `Arranges.read_eq_ok_iff`.
-/
import TokenAlignment.Proofs.Report.Csv
import TokenAlignment.Proofs.Report.Tables

namespace TokenAlignment

/-! ### White space at the end of a line -/

namespace Text

/-- White space behind a text goes to its last field, and is taken away there. -/
theorem map_trim_fieldsOnto_concat {sep c : Char} (hc : isBlank c = true) (hsep : c ≠ sep)
    (done : List (List Char)) (field text : List Char) :
    (fieldsOnto sep done field (text ++ [c])).map trim
      = (fieldsOnto sep done field text).map trim := by
  induction text generalizing done field with
  | nil =>
      have htrim : trim ([] ++ field.reverse ++ [c]) = trim field.reverse :=
        trim_append (by simp) (by simpa using hc) field.reverse
      have hfield : fieldsOnto sep done field [c] = ((c :: field).reverse :: done).reverse := by
        rw [fieldsOnto, if_neg hsep, fieldsOnto]
      rw [List.nil_append] at htrim ⊢
      rw [hfield, fieldsOnto, List.reverse_cons, List.reverse_cons, List.reverse_cons,
        List.map_append, List.map_append, List.map_singleton, List.map_singleton, htrim]
  | cons c' text ih =>
      rw [List.cons_append, fieldsOnto, fieldsOnto]
      split
      · exact ih _ _
      · exact ih _ _

end Text

namespace Lines

/-- A line of text is a line of text also without its carriage return. -/
theorem finish_encode (text : List Char) :
    finish (Utf8.encode text).reverse = Utf8.encode text ∨
      ∃ init, text = init ++ ['\r'] ∧ finish (Utf8.encode text).reverse = Utf8.encode init := by
  rcases List.eq_nil_or_concat text with rfl | ⟨init, c, rfl⟩
  · exact .inl rfl
  · rw [List.concat_eq_append, Utf8.encode_append, List.reverse_append]
    by_cases hc : c = '\r'
    · subst hc
      exact .inr ⟨init, rfl, List.reverse_reverse _⟩
    · have hlength := Utf8.length_le_length_encode [c]
      have hne : (Utf8.encode [c]).reverse ≠ [] := by
        rw [← List.length_pos_iff, List.length_reverse]
        exact hlength
      obtain ⟨b, bs, hlast⟩ := List.exists_cons_of_ne_nil hne
      have hb : b ≠ carriageReturn := by
        rintro rfl
        have hmem : UInt8.ofNat '\r'.toNat ∈ Utf8.encode [c] := by
          rw [← List.mem_reverse, hlast]
          exact List.mem_cons_self ..
        exact hc (List.mem_singleton.mp (Utf8.mem_of_mem_encode (by decide) hmem)).symm
      left
      rw [hlast, List.cons_append, finish, if_neg hb, ← List.cons_append, ← hlast,
        ← List.reverse_append, List.reverse_reverse]

end Lines

namespace Csv

/-! ### Lines up to white space -/

/-- The lines have the same fields, or are both blank. -/
structure SameFields (text text' : List Char) : Prop where
  fields : lineFields text = lineFields text'
  blank : Text.isBlankLine text = Text.isBlankLine text'

theorem sameFields_concat {c : Char} (hc : isBlank c = true) (text : List Char) :
    SameFields (text ++ [c]) text where
  fields := by
    have hcomma : c ≠ ',' := by
      rintro rfl
      exact absurd hc (by decide)
    exact Text.map_trim_fieldsOnto_concat hc hcomma [] [] text
  blank := by
    rw [Text.isBlankLine, Text.isBlankLine, List.all_append]
    simp [hc]

/-- The lines of a file: each with an end, of either kind, or the last one without. -/
inductive Written : List (List Char) → List UInt8 → Prop
  | nil : Written [] []
  | unended {line} (hfeed : '\n' ∉ line) (hne : line ≠ []) : Written [line] (Utf8.encode line)
  | ended {line lines bytes} (hfeed : '\n' ∉ line) (h : Written lines bytes) :
      Written (line :: lines) (Utf8.encode (line ++ ['\n']) ++ bytes)
  | returned {line lines bytes} (hfeed : '\n' ∉ line) (h : Written lines bytes) :
      Written (line :: lines) (Utf8.encode (line ++ ['\r', '\n']) ++ bytes)

theorem lineFeed_notMem_encode {line : List Char} (hfeed : '\n' ∉ line) :
    Lines.lineFeed ∉ Utf8.encode line :=
  fun hmem => hfeed (Utf8.mem_of_mem_encode (c := '\n') (by decide) hmem)

/-- The first line is cut off, up to white space at its end. -/
theorem exists_ofBytes_encode {line : List Char} (hfeed : '\n' ∉ line) (bytes : List UInt8) :
    ∃ text, Lines.ofBytes (Utf8.encode (line ++ ['\n']) ++ bytes)
        = Utf8.encode text :: Lines.ofBytes bytes ∧ SameFields text line := by
  have hcut : Lines.ofBytes (Utf8.encode (line ++ ['\n']) ++ bytes)
      = Lines.finish (Utf8.encode line).reverse :: Lines.ofBytes bytes := by
    rw [Utf8.encode_append, List.append_assoc]
    exact Lines.ofBytes_cons (lineFeed_notMem_encode hfeed) bytes
  obtain hkept | ⟨text, rfl, hkept⟩ := Lines.finish_encode line
  · exact ⟨line, by rw [hcut, hkept], rfl, rfl⟩
  · obtain ⟨hfields, hblank⟩ := sameFields_concat (c := '\r') (by decide) text
    exact ⟨text, by rw [hcut, hkept], hfields.symm, hblank.symm⟩

/-- **Lines are read back** up to white space at their ends. -/
theorem Written.exists_texts {lines : List (List Char)} {bytes : List UInt8}
    (h : Written lines bytes) : ∃ texts, Lines.ofBytes bytes = texts.map Utf8.encode ∧
      List.Forall₂ SameFields texts lines := by
  induction h with
  | nil => exact ⟨[], rfl, .nil⟩
  | @unended line hfeed hne =>
      have hbytes : Utf8.encode line ≠ [] := by
        have hlength := Utf8.length_le_length_encode line
        rw [← List.length_pos_iff] at hne ⊢
        omega
      refine ⟨[line], ?_, .cons ⟨rfl, rfl⟩ .nil⟩
      rw [Lines.ofBytes_of_notMem (lineFeed_notMem_encode hfeed), if_neg hbytes]
      rfl
  | @ended line lines bytes hfeed _ ih =>
      obtain ⟨texts, hlines, hsame⟩ := ih
      obtain ⟨text, hcut, hline⟩ := exists_ofBytes_encode hfeed bytes
      exact ⟨text :: texts, by rw [hcut, hlines, List.map_cons], .cons hline hsame⟩
  | @returned line lines bytes hfeed _ ih =>
      obtain ⟨texts, hlines, hsame⟩ := ih
      have hfeed' : '\n' ∉ line ++ ['\r'] := by simpa using hfeed
      obtain ⟨text, hcut, hline⟩ := exists_ofBytes_encode hfeed' bytes
      obtain ⟨hfields, hblank⟩ := sameFields_concat (c := '\r') (by decide) line
      rw [List.append_assoc, List.singleton_append] at hcut
      exact ⟨text :: texts, by rw [hcut, hlines, List.map_cons],
        .cons ⟨hline.fields.trans hfields, hline.blank.trans hblank⟩ hsame⟩

/-! ### Rows -/

/-- What stands between two commas, or between a comma and the end of the line. -/
def IsCell (cell : List Char) : Prop :=
  ',' ∉ cell ∧ '\n' ∉ cell

/-- The text with white space around it. -/
def Padded (text cell : List Char) : Prop :=
  ∃ before after, (∀ c ∈ before, isBlank c = true) ∧ (∀ c ∈ after, isBlank c = true) ∧
    cell = before ++ text ++ after

theorem Padded.trim_eq {text cell : List Char} (h : Padded text cell) :
    Text.trim cell = Text.trim text := by
  obtain ⟨before, after, hbefore, hafter, rfl⟩ := h
  exact Text.trim_append hbefore hafter text

theorem padded_self (text : List Char) : Padded text text :=
  ⟨[], [], by simp, by simp, by simp⟩

/-- The values of a row, as they are written. -/
structure Row where
  value : Column → List Char
  isCell : ∀ c, IsCell (value c)

/-- The line of a row in the order of the writer. -/
def Row.line (row : Row) : List Char :=
  joinFields (Column.all.map row.value)

theorem Row.isCell_values (row : Row) : ∀ cell ∈ Column.all.map row.value, IsCell cell := by
  intro cell hcell
  obtain ⟨c, -, rfl⟩ := List.mem_map.mp hcell
  exact row.isCell c

/-- What the values of a row say. -/
def Row.metrics? {α : Type} [CsvNumber α] (row : Row) : Option (Metrics α) :=
  (readRow names 0 row.line).toOption

/-- The table of some rows in the order of the writer. -/
def canonical (rows : List Row) : List UInt8 :=
  Lines.toBytes ((header :: rows.map Row.line).map Utf8.encode)

/-! ### Arrangements -/

/-- What a column of an arrangement is for: one of those that are read, or another one. -/
inductive Heading where
  | column (c : Column)
  | other (name : List Char)
  deriving DecidableEq, Repr

def Heading.name : Heading → List Char
  | column c => c.name.toList
  | other name => name

/-- Columns in any order, with others between them, and the cells of the header. -/
structure Arrangement where
  headings : List Heading
  cells : List (List Char)
  columns : ∀ c, .column c ∈ headings
  others : ∀ name, .other name ∈ headings → ∀ c : Column, Text.trim name ≠ c.name.toList
  padded : List.Forall₂ (fun heading cell => Padded heading.name cell) headings cells
  isCell : ∀ cell ∈ cells, IsCell cell

namespace Arrangement

variable (a : Arrangement)

/-- The names as they are read. -/
def names : List (List Char) :=
  a.headings.map fun heading => Text.trim heading.name

theorem cells_ne_nil : a.cells ≠ [] := by
  intro hnil
  have hpadded := a.padded
  rw [hnil, List.forall₂_nil_right_iff] at hpadded
  exact List.not_mem_nil (hpadded ▸ a.columns .totalTokens)

theorem lineFields_header : lineFields (joinFields a.cells) = a.names := by
  have htrim {headings : List Heading} {cells : List (List Char)}
      (h : List.Forall₂ (fun heading cell => Padded heading.name cell) headings cells) :
      cells.map Text.trim = headings.map fun heading => Text.trim heading.name := by
    induction h with
    | nil => rfl
    | cons hcell _ ih => rw [List.map_cons, List.map_cons, hcell.trim_eq, ih]
  rw [lineFields_joinFields_eq_map a.cells_ne_nil fun cell hcell => (a.isCell cell hcell).1]
  exact htrim a.padded

theorem trim_name (c : Column) : Text.trim c.name.toList = c.name.toList :=
  Text.trim_eq fun _ hc => (isField_name c _ hc).2

theorem name_mem_names (c : Column) : c.name.toList ∈ a.names :=
  List.mem_map.mpr ⟨.column c, a.columns c, trim_name c⟩

/-- **The first column with a name is the column.** -/
theorem getElem?_position (c : Column) :
    a.headings[position a.names c]? = some (.column c) := by
  have hlt : position a.names c < a.headings.length := by
    rw [← List.length_map]
    exact List.idxOf_lt_length_of_mem (a.name_mem_names c)
  have hname : Text.trim (a.headings[position a.names c]).name = c.name.toList := by
    have hfound : a.names[position a.names c]? = some c.name.toList :=
      List.getElem?_idxOf (a.name_mem_names c)
    rw [names, List.getElem?_map, ← names, List.getElem?_eq_getElem hlt] at hfound
    exact Option.some.inj hfound
  rw [List.getElem?_eq_getElem hlt]
  -- the heading that is found has the name of the column, and no other column has it
  rcases hheading : a.headings[position a.names c] with c' | name
  · rw [hheading, Heading.name, trim_name] at hname
    have hcolumn : c' = c := by
      revert hname
      cases c' <;> cases c <;> decide
    rw [hcolumn]
  · rw [hheading] at hname
    exact absurd hname (a.others name (hheading ▸ List.getElem_mem hlt) c)

/-- The cells of a row: its values, where the columns are. -/
structure IsRow (row : Row) (cells : List (List Char)) : Prop where
  isCell : ∀ cell ∈ cells, IsCell cell
  padded : ∀ (i : Nat) (c : Column), a.headings[i]? = some (.column c) →
    ∃ cell, cells[i]? = some cell ∧ Padded (row.value c) cell

/-- The lines below the header: the rows in order, and blank lines anywhere. -/
inductive Below : List Row → List (List Char) → Prop
  | nil : Below [] []
  | blank {rows lines line} (hblank : Text.isBlankLine line = true) (h : Below rows lines) :
      Below rows (line :: lines)
  | row {row rows cells lines} (hrow : a.IsRow row cells) (h : Below rows lines) :
      Below (row :: rows) (joinFields cells :: lines)

/-- The bytes are some rows in this arrangement. -/
def Arranges (rows : List Row) (bytes : List UInt8) : Prop :=
  ∃ lines, a.Below rows lines ∧ Written (joinFields a.cells :: lines) bytes

end Arrangement

/-! ### Reading arranged rows -/

section Reading

variable {α : Type} [CsvNumber α]

/-- A row is known by what stands where its columns are. -/
theorem readRow_congr {names names' : List (List Char)} {text text' : List Char} (line : Nat)
    (h : ∀ c, (lineFields text)[position names c]? = (lineFields text')[position names' c]?) :
    (readRow names line text : Except CsvError (Metrics α)) = readRow names' line text' := by
  simp only [readRow, readField, h]

variable {a : Arrangement} {row : Row} {cells : List (List Char)}

/-- The values of a row, in the order of the writer. -/
theorem lineFields_line (row : Row) :
    lineFields row.line = Column.all.map fun c => Text.trim (row.value c) := by
  rw [Row.line, lineFields_joinFields_eq_map (by simp [Column.all])
    fun cell hcell => (row.isCell_values cell hcell).1, List.map_map]
  rfl

/-- A row has two cells at least. -/
theorem Arrangement.IsRow.one_lt_length (h : a.IsRow row cells) : 1 < cells.length := by
  obtain ⟨tokens, htokens, -⟩ := h.padded _ _ (a.getElem?_position .totalTokens)
  obtain ⟨bytes, hbytes, -⟩ := h.padded _ _ (a.getElem?_position .totalBytes)
  -- they are for different columns, so they stand in different places
  have hne : position a.names .totalTokens ≠ position a.names .totalBytes := by
    intro heq
    have hsame := (a.getElem?_position .totalTokens).symm.trans
      (heq ▸ a.getElem?_position .totalBytes)
    cases hsame
  have hlt := (List.getElem?_eq_some_iff.mp htokens).1
  have hlt' := (List.getElem?_eq_some_iff.mp hbytes).1
  omega

/-- **An arranged row is read as its values are.** -/
theorem Arrangement.IsRow.rowsOfLine?_eq (h : a.IsRow row cells) {text : List Char}
    (hsame : SameFields text (joinFields cells)) :
    rowsOfLine? a.names (Utf8.encode text)
      = (row.metrics? : Option (Metrics α)).map fun m => [m] := by
  have hlength := h.one_lt_length
  have hblank : Text.isBlankLine text = false :=
    hsame.blank.trans (isBlankLine_joinFields hlength)
  have hfields : lineFields text = cells.map Text.trim := by
    rw [hsame.fields, lineFields_joinFields_eq_map (by rintro rfl; cases hlength)
      fun cell hcell => (h.isCell cell hcell).1]
  have hread :
      (readRow a.names 0 text : Except CsvError (Metrics α)) = readRow Csv.names 0 row.line := by
    refine readRow_congr 0 fun c => ?_
    obtain ⟨cell, hcell, hpadded⟩ := h.padded _ _ (a.getElem?_position c)
    rw [hfields, List.getElem?_map, hcell, lineFields_line, Csv.getElem?_position,
      Option.map_some, hpadded.trim_eq]
  rw [rowsOfLine?, lineText_encode]
  show (if Text.isBlankLine text = true then some [] else _) = _
  rw [hblank, if_neg Bool.false_ne_true, hread]
  rfl

/-- The lines below the header hold what their rows say. -/
theorem Arrangement.Below.rowsOfLines {rows : List Row} {lines texts : List (List Char)}
    (h : a.Below rows lines) (hsame : List.Forall₂ SameFields texts lines) :
    ((∀ text ∈ texts,
        (rowsOfLine? a.names (Utf8.encode text) : Option (List (Metrics α))).isSome) ↔
      ∀ row ∈ rows, (row.metrics? : Option (Metrics α)).isSome) ∧
    texts.flatMap (fun text =>
        (rowsOfLine? a.names (Utf8.encode text) : Option (List (Metrics α))).getD [])
      = rows.flatMap fun row => row.metrics?.toList := by
  induction h generalizing texts with
  | nil =>
      cases hsame
      exact ⟨by simp, rfl⟩
  | @blank rows lines line hblank _ ih =>
      rcases hsame with - | @⟨text, _, texts, _, hline, hsame⟩
      have hrows : (rowsOfLine? a.names (Utf8.encode text) : Option (List (Metrics α)))
          = some [] := by
        rw [rowsOfLine?, lineText_encode]
        exact if_pos (hline.blank.trans hblank)
      rw [List.forall_mem_cons, List.flatMap_cons, hrows]
      simpa using ih hsame
  | @row row rows cells lines hrow _ ih =>
      rcases hsame with - | @⟨text, _, texts, _, hline, hsame⟩
      obtain ⟨hsome, hflat⟩ := ih hsame
      rw [List.forall_mem_cons, List.forall_mem_cons, List.flatMap_cons, List.flatMap_cons,
        hsome, hflat, hrow.rowsOfLine?_eq hline, Option.isSome_map]
      refine ⟨Iff.rfl, ?_⟩
      rcases (row.metrics? : Option (Metrics α)) with - | m <;> rfl

/-- **Arranged rows are read one by one**, each by its values. -/
theorem Arrangement.Arranges.read_eq_ok_iff {rows : List Row} {bytes : List UInt8}
    (h : a.Arranges rows bytes) {ms : List (Metrics α)} :
    read bytes = .ok ms ↔ (∀ row ∈ rows, (row.metrics? : Option (Metrics α)).isSome) ∧
      ms = rows.flatMap fun row => row.metrics?.toList := by
  obtain ⟨lines, hbelow, hwritten⟩ := h
  obtain ⟨_ | ⟨first, texts⟩, hlines, hsame⟩ := hwritten.exists_texts
  · cases hsame
  · rw [List.forall₂_cons] at hsame
    -- the header may have lost a carriage return, but none of its names
    have hnames : columns? (Utf8.encode first) = some a.names := by
      have hall : (Column.all.all fun c => a.names.contains c.name.toList) = true := by
        simp [a.name_mem_names]
      rw [columns?, lineText_encode]
      show (some (lineFields first)).filter _ = _
      rw [hsame.1.fields, a.lineFields_header, Option.filter_some, if_pos hall]
    obtain ⟨hsome, hflat⟩ := hbelow.rowsOfLines (α := α) hsame.2
    rw [← toOption_eq_some_iff, toOption_read hlines, hnames, Option.bind_some,
      toOption_eq_some_iff, readRowsOnto_eq_ok_iff, List.forall_mem_map, hsome,
      List.flatMap_map, hflat]
    rfl

end Reading

/-! ### The order of the writer -/

/-- The columns as the writer puts them. -/
def Arrangement.ofWriter : Arrangement where
  headings := Column.all.map .column
  cells := Csv.names
  columns c := by cases c <;> decide
  others name h := by simp [Column.all] at h
  padded := by
    rw [Csv.names, List.forall₂_map_left_iff, List.forall₂_map_right_iff, List.forall₂_same]
    exact fun c _ => padded_self _
  isCell cell hcell := by
    have hfield := isField_of_mem_names cell hcell
    exact ⟨fun hc => (hfield ',' hc).1 rfl, fun hc => absurd (hfield '\n' hc).2 (by decide)⟩

theorem lineFeed_notMem_joinFields {cells : List (List Char)} (h : ∀ cell ∈ cells, IsCell cell) :
    '\n' ∉ joinFields cells := by
  intro hfeed
  obtain hcomma | ⟨cell, hcell, hfeed⟩ := mem_joinFields hfeed
  · exact absurd hcomma (by decide)
  · exact (h cell hcell).2 hfeed

theorem written_toBytes {lines : List (List Char)} (h : ∀ line ∈ lines, '\n' ∉ line) :
    Written lines (Lines.toBytes (lines.map Utf8.encode)) := by
  induction lines with
  | nil => exact .nil
  | cons line lines ih =>
      rw [List.forall_mem_cons] at h
      have hline : Utf8.encode (line ++ ['\n']) = Utf8.encode line ++ [Lines.lineFeed] :=
        Utf8.encode_append line ['\n']
      have hwritten := Written.ended h.1 (ih h.2)
      rwa [hline, List.append_assoc, List.singleton_append, ← Lines.toBytes_cons,
        ← List.map_cons] at hwritten

/-- **The order of the writer is one of the arrangements.** -/
theorem arranges_canonical (rows : List Row) :
    Arrangement.ofWriter.Arranges rows (canonical rows) := by
  refine ⟨rows.map Row.line, ?_, written_toBytes fun line hline => ?_⟩
  · induction rows with
    | nil => exact .nil
    | cons row rows ih =>
        refine .row ⟨row.isCell_values, fun i c hi => ?_⟩ ih
        have hcolumn : Column.all[i]? = some c := by
          simpa [Arrangement.ofWriter] using hi
        exact ⟨row.value c, by rw [List.getElem?_map, hcolumn]; rfl, padded_self _⟩
  · rcases List.mem_cons.mp hline with rfl | hline
    · exact lineFeed_notMem_joinFields Arrangement.ofWriter.isCell
    · obtain ⟨row, -, rfl⟩ := List.mem_map.mp hline
      exact lineFeed_notMem_joinFields row.isCell_values

end Csv

end TokenAlignment
