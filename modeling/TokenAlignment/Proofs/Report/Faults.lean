/-
TokenAlignment/Proofs/Report/Faults.lean

A table that cannot be read is refused for its first fault,

    read (text)  =  error (row line c fault),

where `line` is the first line at fault, blank ones counted and the header as line one, and `c`
the first column at fault in it, in the order of the writer.

Design.  Faults are looked for in two nested searches, over the columns of a line and over the
lines (`error?_readRow`, `error?_readRowsOnto`).  Each is a chain of steps that either stop with
an error or go on with a value of which the later errors know nothing (`error?_readField_bind`).

Main result: `reads_by_name`.
-/
import TokenAlignment.Proofs.Report.Arrangements

namespace TokenAlignment

namespace Csv

/-! ### Columns at fault -/

/-- The error of a computation, if it has failed. -/
def error? {ε β : Type} : Except ε β → Option ε
  | .ok _ => none
  | .error e => some e

theorem error?_eq_some_iff {ε β : Type} {x : Except ε β} {e : ε} :
    error? x = some e ↔ x = .error e := by
  cases x <;> simp [error?]

/-- What is wrong with the field of a column: it lacks, or is not read. -/
def fieldFault? {β : Type} (read : List Char → Except String β) (names fields : List (List Char))
    (c : Column) : Option FieldFault :=
  match fields[position names c]? with
  | none => some .missing
  | some raw => (error? (read raw)).map (.invalid raw)

/-- What is wrong with a column: the totals are read as such, and the others as numbers. -/
def columnFault? (α : Type) [CsvNumber α] (names fields : List (List Char)) :
    Column → Option FieldFault
  | .totalTokens => fieldFault? readTotal names fields .totalTokens
  | .totalBytes => fieldFault? readTotal names fields .totalBytes
  | c => fieldFault? (fun raw => (readNumber raw : Except String α)) names fields c

/-- The error of the first of some columns that is at fault. -/
def firstFault? (α : Type) [CsvNumber α] (names fields : List (List Char)) (line : Nat)
    (columns : List Column) : Option CsvError :=
  columns.findSome? fun c => (columnFault? α names fields c).map (.row line c)

section Columns

variable {α β γ : Type} [CsvNumber α] {names fields : List (List Char)} {line : Nat} {c : Column}

theorem error?_readField (read : List Char → Except String β) :
    error? (readField read names fields line c)
      = (fieldFault? read names fields c).map (.row line c) := by
  rw [readField, fieldFault?]
  rcases fields[position names c]? with - | raw
  · rfl
  · dsimp only
    rcases read raw with reason | b <;> rfl

/-- **One column** is at fault, or those behind it decide. -/
theorem error?_readField_bind {read : List Char → Except String β} {columns : List Column}
    {rest : β → Except CsvError γ}
    (hread : columnFault? α names fields c = fieldFault? read names fields c)
    (hrest : ∀ b, error? (rest b) = firstFault? α names fields line columns) :
    error? (readField read names fields line c >>= rest)
      = firstFault? α names fields line (c :: columns) := by
  have hfault : error? (readField read names fields line c) = _ := error?_readField read
  rw [firstFault?, List.findSome?_cons, hread, ← hfault]
  rcases readField read names fields line c with e | b
  · rfl
  · exact hrest b

/-- **A row is refused for its first column at fault.** -/
theorem error?_readRow (text : List Char) :
    error? (readRow names line text : Except CsvError (Metrics α))
      = firstFault? α names (lineFields text) line Column.all := by
  rw [readRow]
  refine error?_readField_bind rfl fun totalTokens => ?_
  refine error?_readField_bind rfl fun totalBytes => ?_
  refine error?_readField_bind rfl fun compression => ?_
  refine error?_readField_bind rfl fun tokenSpan => ?_
  refine error?_readField_bind rfl fun rawSplitting => ?_
  refine error?_readField_bind rfl fun splitting => ?_
  exact error?_readField_bind rfl fun fertility => rfl

end Columns

/-! ### Lines at fault -/

/-- The error of a line where it stands, if it has one. -/
def lineFault? (α : Type) [CsvNumber α] (names : List (List Char)) (place : List Char × Nat) :
    Option CsvError :=
  if Text.isBlankLine place.1 then none
  else firstFault? α names (lineFields place.1) place.2 Column.all

section Lines

variable {α : Type} [CsvNumber α] {names : List (List Char)}

/-- **Lines are refused for the first one at fault**, and are counted also where they are blank. -/
theorem error?_readRowsOnto (done : List (Metrics α)) (line : Nat) (texts : List (List Char)) :
    error? (readRowsOnto names done line (texts.map Utf8.encode))
      = (texts.zipIdx line).findSome? (lineFault? α names) := by
  induction texts generalizing done line with
  | nil => rfl
  | cons text texts ih =>
      rw [List.map_cons, List.zipIdx_cons, List.findSome?_cons, readRowsOnto, lineText_encode,
        lineFault?]
      dsimp only
      split
      · exact ih done (line + 1)
      · rw [← error?_readRow]
        rcases (readRow names line text : Except CsvError (Metrics α)) with e | m
        · rfl
        · exact ih (m :: done) (line + 1)

theorem error?_read {bytes : List UInt8} {first : List Char} {texts : List (List Char)}
    (hlines : Lines.ofBytes bytes = (first :: texts).map Utf8.encode)
    (hcolumns : ∀ c : Column, c.name.toList ∈ lineFields first) :
    error? (read bytes : Except CsvError (List (Metrics α)))
      = (texts.zipIdx 2).findSome? (lineFault? α (lineFields first)) := by
  have hnone : (Column.all.find? fun c => !(lineFields first).contains c.name.toList) = none := by
    simp [hcolumns]
  rw [← error?_readRowsOnto [] 2 texts, read, hlines, List.map_cons]
  dsimp only
  rw [lineText_encode]
  simp only [bind, Except.bind, hnone]

end Lines

/-! ### The first fault -/

/-- A line that is read: it is blank, or has every column. -/
def Sound (α : Type) [CsvNumber α] (names : List (List Char)) (text : List Char) : Prop :=
  Text.isBlankLine text = true ∨ ∀ c, columnFault? α names (lineFields text) c = none

/-- A column at fault of a line that is not blank, while those in front of it are not. -/
structure FirstFault (α : Type) [CsvNumber α] (names : List (List Char)) (text : List Char)
    (c : Column) (fault : FieldFault) : Prop where
  not_blank : Text.isBlankLine text = false
  fault : columnFault? α names (lineFields text) c = some fault
  first : ∃ before after, Column.all = before ++ c :: after ∧
    ∀ earlier ∈ before, columnFault? α names (lineFields text) earlier = none

section FirstFault

variable {α : Type} [CsvNumber α] {names : List (List Char)} {text : List Char} {line : Nat}

theorem lineFault?_eq_none_iff : lineFault? α names (text, line) = none ↔ Sound α names text := by
  have hall : (∀ c ∈ Column.all, columnFault? α names (lineFields text) c = none) ↔
      ∀ c, columnFault? α names (lineFields text) c = none :=
    ⟨fun h c => h c (by cases c <;> decide), fun h c _ => h c⟩
  rw [lineFault?, Sound, ← hall]
  split
  · rename_i hblank
    exact iff_of_true rfl (.inl hblank)
  · rename_i hblank
    rw [firstFault?, List.findSome?_eq_none_iff, or_iff_right hblank]
    simp only [Option.map_eq_none_iff]

theorem lineFault?_eq_some_iff {e : CsvError} : lineFault? α names (text, line) = some e ↔
    ∃ c fault, FirstFault α names text c fault ∧ e = .row line c fault := by
  rw [lineFault?]
  split
  · rename_i hblank
    refine iff_of_false (by simp) ?_
    rintro ⟨c, fault, hfirst, -⟩
    exact Bool.false_ne_true (hfirst.not_blank.symm.trans hblank)
  · rename_i hblank
    rw [firstFault?, List.findSome?_eq_some_iff]
    simp only [Option.map_eq_some_iff, Option.map_eq_none_iff]
    constructor
    · rintro ⟨before, c, after, hsplit, ⟨fault, hfault, rfl⟩, hbefore⟩
      exact ⟨c, fault, ⟨Bool.eq_false_of_not_eq_true hblank, hfault, before, after, hsplit,
        hbefore⟩, rfl⟩
    · rintro ⟨c, fault, ⟨-, hfault, before, after, hsplit, hbefore⟩, rfl⟩
      exact ⟨before, c, after, hsplit, ⟨fault, hfault, rfl⟩, hbefore⟩

variable {bytes : List UInt8} {first : List Char} {texts : List (List Char)}

/-- **A table is refused just if one of its lines is at fault**, ... -/
theorem exists_read_eq_error_iff
    (hlines : Lines.ofBytes bytes = (first :: texts).map Utf8.encode)
    (hcolumns : ∀ c : Column, c.name.toList ∈ lineFields first) :
    (∃ e, (read bytes : Except CsvError (List (Metrics α))) = .error e) ↔
      ∃ text ∈ texts, ¬ Sound α (lineFields first) text := by
  simp only [← error?_eq_some_iff, error?_read hlines hcolumns]
  rw [← Option.isSome_iff_exists, List.findSome?_isSome_iff]
  have hsound (text : List Char) (line : Nat) :
      (lineFault? α (lineFields first) (text, line)).isSome = true ↔
        ¬ Sound α (lineFields first) text := by
    have hnone : lineFault? α (lineFields first) (text, line) = none ↔ _ := lineFault?_eq_none_iff
    rw [← hnone, Option.isSome_iff_ne_none]
  constructor
  · rintro ⟨⟨text, line⟩, hplace, hfault⟩
    exact ⟨text, List.fst_mem_of_mem_zipIdx hplace, (hsound text line).mp hfault⟩
  · rintro ⟨text, htext, hfault⟩
    rw [← List.zipIdx_map_fst 2 texts] at htext
    obtain ⟨⟨text, line⟩, hplace, rfl⟩ := List.mem_map.mp htext
    exact ⟨(text, line), hplace, (hsound text line).mpr hfault⟩

/-- ... and then **for the first one**. -/
theorem read_eq_error_iff
    (hlines : Lines.ofBytes bytes = (first :: texts).map Utf8.encode)
    (hcolumns : ∀ c : Column, c.name.toList ∈ lineFields first) {e : CsvError} :
    (read bytes : Except CsvError (List (Metrics α))) = .error e ↔
      ∃ above text below c fault, texts = above ++ text :: below ∧
        (∀ earlier ∈ above, Sound α (lineFields first) earlier) ∧
        FirstFault α (lineFields first) text c fault ∧ e = .row (above.length + 2) c fault := by
  rw [← error?_eq_some_iff, error?_read hlines hcolumns, List.findSome?_eq_some_iff]
  constructor
  · rintro ⟨_, ⟨text, line⟩, _, hsplit, hfault, habove⟩
    -- the lines above tell the number of the line
    obtain ⟨above, rest, rfl, rfl, hrest⟩ := List.zipIdx_eq_append_iff.mp hsplit
    obtain ⟨text', below, rfl, hplace, -⟩ := List.zipIdx_eq_cons_iff.mp hrest.symm
    obtain ⟨rfl, rfl⟩ := Prod.mk.inj hplace
    obtain ⟨c, fault, hfirst, rfl⟩ := lineFault?_eq_some_iff.mp hfault
    refine ⟨above, text, below, c, fault, rfl, fun earlier hearlier => ?_, hfirst, ?_⟩
    · rw [← List.zipIdx_map_fst 2 above] at hearlier
      obtain ⟨place, hplace, rfl⟩ := List.mem_map.mp hearlier
      exact lineFault?_eq_none_iff.mp (habove place hplace)
    · rw [Nat.add_comm]
  · rintro ⟨above, text, below, c, fault, rfl, habove, hfirst, rfl⟩
    refine ⟨above.zipIdx 2, (text, 2 + above.length), below.zipIdx (2 + above.length + 1), ?_,
      lineFault?_eq_some_iff.mpr ⟨c, fault, hfirst, by rw [Nat.add_comm]⟩, ?_⟩
    · rw [List.zipIdx_append, List.zipIdx_cons]
    · intro place hplace
      exact lineFault?_eq_none_iff.mpr (habove _ (List.fst_mem_of_mem_zipIdx hplace))

end FirstFault

/-! ### Tables -/

/-- **Columns are found by their names, and the first fault is told.**  Rows are read in any
arrangement as in the order of the writer; and lines of text below a header with all columns are
refused just if one is at fault, for the first one and its first column. -/
theorem reads_by_name (α : Type) [CsvNumber α] :
    (∀ (a : Arrangement) (rows : List Row) (bytes : List UInt8), a.Arranges rows bytes →
      ∀ ms : List (Metrics α), read bytes = .ok ms ↔ read (canonical rows) = .ok ms) ∧
    ∀ (bytes : List UInt8) (first : List Char) (texts : List (List Char)),
      Lines.ofBytes bytes = (first :: texts).map Utf8.encode →
      (∀ c : Column, c.name.toList ∈ lineFields first) →
      ((∃ e, (read bytes : Except CsvError (List (Metrics α))) = .error e) ↔
        ∃ text ∈ texts, ¬ Sound α (lineFields first) text) ∧
      ∀ e, (read bytes : Except CsvError (List (Metrics α))) = .error e ↔
        ∃ above text below c fault, texts = above ++ text :: below ∧
          (∀ earlier ∈ above, Sound α (lineFields first) earlier) ∧
          FirstFault α (lineFields first) text c fault ∧
          e = .row (above.length + 2) c fault ∧
          (fault = .missing →
            e.message = s!"line {above.length + 2}: missing value for `{c.name}`") ∧
          ∀ raw reason, fault = .invalid raw reason → e.message
            = s!"line {above.length + 2}: `{c.name}` = `{String.ofList raw}`: {reason}" := by
  refine ⟨fun a rows bytes h ms => ?_, fun bytes first texts hlines hcolumns => ⟨?_, fun e => ?_⟩⟩
  · exact h.read_eq_ok_iff.trans (arranges_canonical rows).read_eq_ok_iff.symm
  · exact exists_read_eq_error_iff hlines hcolumns
  · rw [read_eq_error_iff hlines hcolumns]
    constructor
    · rintro ⟨above, text, below, c, fault, htexts, habove, hfirst, rfl⟩
      refine ⟨above, text, below, c, fault, htexts, habove, hfirst, rfl, ?_, ?_⟩
      · rintro rfl
        rfl
      · rintro raw reason rfl
        rfl
    · rintro ⟨above, text, below, c, fault, htexts, habove, hfirst, he, -, -⟩
      exact ⟨above, text, below, c, fault, htexts, habove, hfirst, he⟩

/-- A text with a space on either side. -/
def spaced (text : List Char) : List Char :=
  ' ' :: text ++ [' ']

theorem padded_spaced (text : List Char) : Padded text (spaced text) := by
  have hblank : ∀ c ∈ [' '], isBlank c = true := List.forall_mem_singleton.mpr rfl
  exact ⟨[' '], [' '], hblank, hblank, by simp [spaced]⟩

theorem isCell_spaced {text : List Char} (h : IsCell text) : IsCell (spaced text) := by
  obtain ⟨hcomma, hfeed⟩ := h
  simp [IsCell, spaced, hcomma, hfeed]

/-- The columns of the writer backwards, with others in front, between and behind them. -/
def backwardsHeadings : List Heading :=
  .other "file".toList :: .other [] :: Column.all.reverse.map .column ++ [.other "token".toList]

/-- Their names are in the header with spaces. -/
def backwards : Arrangement where
  headings := backwardsHeadings
  cells := backwardsHeadings.map fun heading => spaced heading.name
  columns c := by cases c <;> decide
  others name h := by
    have hname : name ∈ ["file".toList, [], "token".toList] := by
      simpa [backwardsHeadings, Column.all] using h
    have hother : ∀ other ∈ ["file".toList, [], "token".toList], ∀ c ∈ Column.all,
        Text.trim other ≠ c.name.toList := by decide
    exact fun c => hother name hname c (by cases c <;> decide)
  padded := by
    rw [List.forall₂_map_right_iff, List.forall₂_same]
    exact fun heading _ => padded_spaced heading.name
  isCell := by
    have hplain : ∀ heading ∈ backwardsHeadings, ',' ∉ heading.name ∧ '\n' ∉ heading.name := by
      decide
    rw [List.forall_mem_map]
    exact fun heading hheading => isCell_spaced (hplain heading hheading)

/-- A row of small numbers. -/
def smallRow : Row where
  value
    | .totalTokens => ['1']
    | .totalBytes => ['4', '0']
    | _ => ['2']
  isCell c := by cases c <;> exact ⟨by decide, by decide⟩

/-- Its cells with spaces. -/
def smallCells : List (List Char) :=
  backwardsHeadings.map fun
    | .column c => spaced (smallRow.value c)
    | .other _ => ['?']

theorem isRow_smallCells : backwards.IsRow smallRow smallCells where
  isCell := by
    have hplain : ∀ cell ∈ smallCells, ',' ∉ cell ∧ '\n' ∉ cell := by decide
    exact hplain
  padded i c hi := by
    rw [smallCells, List.getElem?_map]
    exact ⟨_, congrArg (Option.map _) hi, padded_spaced _⟩

/-- The header, a blank line, and one line more. -/
def backwardsFile (line : List Char) : List UInt8 :=
  Utf8.encode (joinFields backwards.cells ++ ['\r', '\n']) ++
    (Utf8.encode ([' ', ' '] ++ ['\n']) ++ (Utf8.encode (line ++ ['\r', '\n']) ++ []))

theorem arranges_backwardsFile :
    backwards.Arranges [smallRow] (backwardsFile (joinFields smallCells)) :=
  ⟨[[' ', ' '], joinFields smallCells], .blank (by decide) (.row isRow_smallCells .nil),
    .returned (lineFeed_notMem_joinFields backwards.isCell) (.ended (by decide)
      (.returned (lineFeed_notMem_joinFields isRow_smallCells.isCell) .nil))⟩

/-- Neither the bytes nor the compression of this line are read. -/
def faultyLine : List Char :=
  "?,,2,2,2,2,?,-4,1".toList

theorem reads_by_name_backwards :
    backwards.Arranges [smallRow] (backwardsFile (joinFields smallCells)) ∧
    read (backwardsFile (joinFields smallCells)) = .ok [(⟨2, 2, 2, 2, 2, 1, 40⟩ : Metrics Float)] ∧
    (read (backwardsFile faultyLine) : Except CsvError (List (Metrics Float)))
      = .error (.row 3 .totalBytes (.invalid "-4".toList "invalid digit found in string")) := by
  obtain ⟨harranged, hfaults⟩ := reads_by_name Float
  have hcanonical : read (canonical [smallRow])
      = .ok [(⟨2, 2, 2, 2, 2, 1, 40⟩ : Metrics Float)] :=
    toOption_eq_some_iff.mp (by decide +kernel)
  refine ⟨arranges_backwardsFile, (harranged _ _ _ arranges_backwardsFile _).mpr hcanonical, ?_⟩
  have hcolumns (c : Column) : c.name.toList ∈ lineFields (joinFields backwards.cells) :=
    backwards.lineFields_header ▸ backwards.name_mem_names c
  have hlines : Lines.ofBytes (backwardsFile faultyLine)
      = [joinFields backwards.cells, [' ', ' '], faultyLine].map Utf8.encode := by
    decide +kernel
  refine ((hfaults _ _ _ hlines hcolumns).2 _).mpr ⟨[[' ', ' ']], faultyLine, [], .totalBytes,
    .invalid "-4".toList "invalid digit found in string", rfl, ?_, ?_, rfl, ?_, ?_⟩
  · simp only [List.forall_mem_singleton]
    exact .inl (by decide)
  · refine ⟨by decide +kernel, by decide +kernel, [.totalTokens], _, rfl, ?_⟩
    simp only [List.forall_mem_singleton]
    decide +kernel
  · intro h
    cases h
  · rintro _ _ ⟨⟩
    rfl

end Csv

end TokenAlignment
