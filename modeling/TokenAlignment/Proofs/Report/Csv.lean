/-
TokenAlignment/Proofs/Report/Csv.lean

Tables are read back,

    read (encode (text of a table with rows ms))  =  ok ms

as long as the numbers in `ms` are read back from their texts.

A field holds neither commas nor white space, so a line is cut at the commas between its
fields (`lineFields_joinFields`), a text at the ends of its lines, and no row is blank.
The reader finds each column under its own name (`getElem?_position`).

Main result: `read_text`.
-/
import TokenAlignment.Proofs.Decimal.Natural
import TokenAlignment.Proofs.Score.Aggregation
import TokenAlignment.Proofs.Text.Split
import TokenAlignment.Report.Csv

namespace TokenAlignment

namespace Metrics

variable {α : Type} [CsvNumber α] {m : Metrics α}

/-- Whether the numbers of a record are read back from their texts. -/
def ReadsBack (m : Metrics α) : Prop :=
  ∀ k, CsvNumber.read (CsvNumber.write (m.value k)) = .ok (m.value k)

theorem readsBack_iff : m.ReadsBack ↔
    ∀ k ∈ [Metric.compression, .identifierFertility, .identifierSplitting,
        .rawIdentifierSplitting, .tokenSpan],
      (CsvNumber.read (CsvNumber.write (m.value k)) : Except FloatError α).toOption
        = some (m.value k) := by
  constructor
  · intro h k _
    rw [h k]
    rfl
  · intro h k
    have hk := h k (by cases k <;> decide)
    generalize (CsvNumber.read (CsvNumber.write (m.value k)) : Except FloatError α) = answer
      at hk ⊢
    cases answer with
    | error e => cases hk
    | ok x => exact congrArg Except.ok (Option.some.inj hk)

instance [DecidableEq α] : Decidable m.ReadsBack :=
  decidable_of_iff _ readsBack_iff.symm

end Metrics

namespace Csv

/-! ### Lines -/

theorem isField_name (c : Column) : IsField c.name.toList := by
  cases c <;> decide

/-- A line is cut at the commas between its cells, and these lose the white space around them. -/
theorem lineFields_joinFields_eq_map {cells : List (List Char)} (hne : cells ≠ [])
    (hcomma : ∀ cell ∈ cells, ',' ∉ cell) :
    lineFields (joinFields cells) = cells.map Text.trim := by
  rw [lineFields, joinFields, Text.fields_intercalate hne hcomma]

/-- **Fields are read back from a line.** -/
theorem lineFields_joinFields {fields : List (List Char)} (hne : fields ≠ [])
    (hfields : ∀ field ∈ fields, IsField field) : lineFields (joinFields fields) = fields := by
  have hcomma : ∀ field ∈ fields, ',' ∉ field :=
    fun field hfield hc => (hfields field hfield ',' hc).1 rfl
  rw [lineFields_joinFields_eq_map hne hcomma]
  refine (List.map_congr_left fun field hfield => ?_).trans (List.map_id fields)
  exact Text.trim_eq fun c hc => (hfields field hfield c hc).2

/-- A line holds the commas between its cells, and what the cells hold. -/
theorem mem_joinFields {cells : List (List Char)} {c : Char} (hc : c ∈ joinFields cells) :
    c = ',' ∨ ∃ cell ∈ cells, c ∈ cell := by
  rw [joinFields] at hc
  induction cells with
  | nil => cases hc
  | cons cell cells ih =>
      rcases cells with - | ⟨next, cells⟩
      · rw [List.intercalate_singleton] at hc
        exact .inr ⟨cell, List.mem_singleton_self cell, hc⟩
      · rw [List.intercalate_cons_cons, List.append_assoc, List.mem_append,
          List.singleton_append, List.mem_cons] at hc
        rcases hc with hc | rfl | hc
        · exact .inr ⟨cell, List.mem_cons_self .., hc⟩
        · exact .inl rfl
        · obtain rfl | ⟨other, hother, hc⟩ := ih hc
          · exact .inl rfl
          · exact .inr ⟨other, List.mem_cons_of_mem cell hother, hc⟩

/-- A line holds no white space, in particular no line end. -/
theorem isBlank_of_mem_joinFields {fields : List (List Char)}
    (hfields : ∀ field ∈ fields, IsField field) {c : Char} (hc : c ∈ joinFields fields) :
    isBlank c = false := by
  obtain rfl | ⟨field, hfield, hc⟩ := mem_joinFields hc
  · rfl
  · exact (hfields field hfield c hc).2

/-- A line of some cells has commas, if nothing else. -/
theorem isBlankLine_joinFields {cells : List (List Char)} (hlength : 1 < cells.length) :
    Text.isBlankLine (joinFields cells) = false := by
  have hcomma : ',' ∈ joinFields cells := by
    rcases cells with - | ⟨cell, - | ⟨next, cells⟩⟩
    · cases hlength
    · exact absurd hlength (Nat.lt_irrefl 1)
    · rw [joinFields, List.intercalate_cons_cons]
      simp
  rw [Text.isBlankLine, List.all_eq_false]
  exact ⟨',', hcomma, by decide⟩

/-! ### Rows -/

/-- The names in the header, as they are read. -/
def names : List (List Char) :=
  Column.all.map fun c => c.name.toList

theorem isField_of_mem_names : ∀ field ∈ names, IsField field := by
  intro field hfield
  obtain ⟨c, -, rfl⟩ := List.mem_map.mp hfield
  exact isField_name c

theorem lineFields_header : lineFields header = names :=
  lineFields_joinFields (by decide) isField_of_mem_names

/-- In the order of the header, the entry of a column is at its position. -/
theorem getElem?_position {β : Type} (f : Column → β) (c : Column) :
    (Column.all.map f)[position names c]? = some (f c) := by
  have hposition : Column.all[position names c]? = some c := by
    cases c <;> decide
  rw [List.getElem?_map, hposition]
  rfl

section Rows

variable {α : Type} [CsvNumber α]

theorem isField_of_mem_row (m : Metrics α) :
    ∀ field ∈ Column.all.map (fieldText m), IsField field := by
  intro field hfield
  obtain ⟨c, -, rfl⟩ := List.mem_map.mp hfield
  cases c with
  | totalTokens | totalBytes => exact IsField.digits _
  | compression | tokenSpan | rawIdentifierSplitting | identifierSplitting
  | identifierFertility => exact CsvNumber.isField_write _

theorem lineFields_row (m : Metrics α) : lineFields (row m) = Column.all.map (fieldText m) :=
  lineFields_joinFields (by simp [Column.all]) (isField_of_mem_row m)

theorem isBlankLine_row (m : Metrics α) : Text.isBlankLine (row m) = false :=
  isBlankLine_joinFields (by simp [Column.all])

theorem readField_eq {β : Type} {read : List Char → Except String β} {m : Metrics α}
    {c : Column} {x : β} (h : read (fieldText m c) = .ok x) (line : Nat) :
    readField read names (Column.all.map (fieldText m)) line c = .ok x := by
  rw [readField, getElem?_position]
  dsimp only
  rw [h]
  rfl

theorem readTotal_digits (n : UInt64) : readTotal (Natural.digits n.toNat) = .ok n := by
  rw [readTotal, Natural.read_digits]
  rfl

theorem readNumber_write {x : α} (h : CsvNumber.read (CsvNumber.write x) = .ok x) :
    readNumber (CsvNumber.write x) = .ok x := by
  rw [readNumber, h]
  rfl

/-- **A row is read back**, whatever line it is on. -/
theorem readRow_row {m : Metrics α} (h : m.ReadsBack) (line : Nat) :
    readRow names line (row m) = .ok m := by
  rw [readRow, lineFields_row, readField_eq (c := .totalTokens) (readTotal_digits m.totalTokens),
    readField_eq (c := .totalBytes) (readTotal_digits m.totalBytes),
    readField_eq (c := .compression) (readNumber_write (h .compression)),
    readField_eq (c := .tokenSpan) (readNumber_write (h .tokenSpan)),
    readField_eq (c := .rawIdentifierSplitting) (readNumber_write (h .rawIdentifierSplitting)),
    readField_eq (c := .identifierSplitting) (readNumber_write (h .identifierSplitting)),
    readField_eq (c := .identifierFertility) (readNumber_write (h .identifierFertility))]
  rfl

/-! ### Tables -/

theorem lineText_encode (text : List Char) : lineText (Utf8.encode text) = .ok text := by
  rw [lineText, Utf8.decode?_encode]

theorem readRowsOnto_rows {ms : List (Metrics α)} (h : ∀ m ∈ ms, m.ReadsBack)
    (done : List (Metrics α)) (line : Nat) :
    readRowsOnto names done line ((ms.map row).map Utf8.encode) = .ok (done.reverse ++ ms) := by
  induction ms generalizing done line with
  | nil => exact congrArg Except.ok (List.append_nil _).symm
  | cons m ms ih =>
      rw [List.forall_mem_cons] at h
      rw [List.map_cons, List.map_cons, readRowsOnto, lineText_encode]
      dsimp only
      rw [isBlankLine_row, if_neg Bool.false_ne_true, readRow_row h.1]
      dsimp only
      rw [ih h.2, List.reverse_cons, List.append_assoc]
      rfl

/-- The rows of a table that was filled one row after another. -/
theorem foldl_add_rows (t : Table) (ms : List (Metrics α)) :
    (ms.foldl Table.add t).rows = (ms.map row).reverse ++ t.rows := by
  induction ms generalizing t with
  | nil => rfl
  | cons m ms ih =>
      rw [List.foldl_cons, ih, List.map_cons, List.reverse_cons, List.append_assoc]
      rfl

/-- The bytes of a table are its header and its rows, on lines without line ends. -/
theorem ofBytes_text (ms : List (Metrics α)) :
    Lines.ofBytes (Utf8.encode (ms.foldl Table.add .empty).text)
      = (header :: ms.map row).map Utf8.encode := by
  have hrows : (ms.foldl Table.add .empty).rows.reverse = ms.map row := by
    rw [foldl_add_rows]
    simp [Table.empty]
  have hbytes : Utf8.encode (ms.foldl Table.add .empty).text
      = Lines.toBytes ((header :: ms.map row).map Utf8.encode) := by
    rw [Table.text, hrows, List.flatMap_def, Utf8.encode_flatten, Lines.toBytes,
      List.flatMap_def, List.map_map, List.map_map]
    refine congrArg List.flatten (List.map_congr_left fun line _ => ?_)
    exact Utf8.encode_append line ['\n']
  have hblank : ∀ line ∈ (header :: ms.map row), ∀ c ∈ line, isBlank c = false := by
    intro line hline c hc
    rcases List.mem_cons.mp hline with rfl | hline
    · exact isBlank_of_mem_joinFields isField_of_mem_names hc
    · obtain ⟨m, -, rfl⟩ := List.mem_map.mp hline
      exact isBlank_of_mem_joinFields (isField_of_mem_row m) hc
  -- an end of line among the bytes would be one among the characters
  have hend (c : Char) (hascii : c.toNat < 0x80) (hc : isBlank c = true) :
      ∀ line ∈ (header :: ms.map row).map Utf8.encode, UInt8.ofNat c.toNat ∉ line := by
    intro line hline hbyte
    obtain ⟨text, htext, rfl⟩ := List.mem_map.mp hline
    rw [hblank text htext c (Utf8.mem_of_mem_encode hascii hbyte)] at hc
    cases hc
  rw [hbytes]
  exact Lines.ofBytes_toBytes (hend '\n' (by decide) (by decide))
    (hend '\r' (by decide) (by decide))

/-- **A table is read back**: its rows, in the order in which they were added. -/
theorem read_text {ms : List (Metrics α)} (h : ∀ m ∈ ms, m.ReadsBack) :
    read (Utf8.encode (ms.foldl Table.add .empty).text) = .ok ms := by
  have hcolumns : (Column.all.find? fun c => !names.contains c.name.toList) = none := by
    decide
  rw [read, ofBytes_text, List.map_cons]
  simp only [lineText_encode, bind, Except.bind, lineFields_header, hcolumns]
  exact readRowsOnto_rows h [] 2

/-! ### Sums -/

section Sums

variable [Scalar α] {bytes : List UInt8} {rows : List (Metrics α)} {m : Metrics α}

/-- The rows of a table are merged in order. -/
theorem aggregate_of_read (h : read bytes = .ok rows) :
    aggregate bytes = Stop.ofSums (Metrics.mergeAll? rows) := by
  rw [aggregate, h]
  rfl

theorem aggregate_eq_ok_iff : aggregate bytes = .ok m ↔
    ∃ rows : List (Metrics α), read bytes = .ok rows ∧ Metrics.mergeAll? rows = some m := by
  rcases hread : (read bytes : Except CsvError (List (Metrics α))) with e | rows
  · rw [aggregate, hread]
    exact iff_of_false (by rintro ⟨⟩) (by simp)
  · rw [aggregate_of_read hread, Stop.ofSums_eq_ok_iff]
    simp

end Sums

end Rows

end Csv

end TokenAlignment
