/-
TokenAlignment/Report/Csv.lean

Tables of metrics as comma-separated values: one row for each scored document.

The writer puts the columns in a fixed order.  The reader finds them by the
names in the header, so it takes any order and any other columns between them:

    read (write rows) = rows

Rows are written as documents are scored; folding them with the merge of metrics
gives the metrics of all of them again.  The totals of a row may be any words, so
those of all rows need not fit one.
-/
import TokenAlignment.Report.CsvNumber
import TokenAlignment.Run.Sink
import TokenAlignment.Score.CorpusScore
import TokenAlignment.Text.Split
import TokenAlignment.Text.Utf8

namespace TokenAlignment

namespace Csv

/-! ### Columns -/

/-- The columns of the table. -/
inductive Column where
  | totalTokens
  | totalBytes
  | compression
  | tokenSpan
  | rawIdentifierSplitting
  | identifierSplitting
  | identifierFertility
  deriving DecidableEq, Repr

namespace Column

/-- The columns in the order of the writer. -/
def all : List Column :=
  [totalTokens, totalBytes, compression, tokenSpan, rawIdentifierSplitting,
    identifierSplitting, identifierFertility]

/-- The name in the header. -/
def name : Column → String
  | totalTokens => "total_tokens"
  | totalBytes => "total_bytes"
  | compression => "compression"
  | tokenSpan => "token_span_score"
  | rawIdentifierSplitting => "raw_identifier_splitting_score"
  | identifierSplitting => "identifier_splitting_score"
  | identifierFertility => "identifier_fertility"

end Column

/-! ### Writing -/

/-- The text of a column of a row. -/
def fieldText {α : Type} [CsvNumber α] (m : Metrics α) : Column → List Char
  | .totalTokens => Natural.digits m.totalTokens.toNat
  | .totalBytes => Natural.digits m.totalBytes.toNat
  | .compression => CsvNumber.write m.compression
  | .tokenSpan => CsvNumber.write m.tokenSpan
  | .rawIdentifierSplitting => CsvNumber.write m.rawIdentifierSplitting
  | .identifierSplitting => CsvNumber.write m.identifierSplitting
  | .identifierFertility => CsvNumber.write m.identifierFertility

/-- Fields with commas between them. -/
def joinFields (fields : List (List Char)) : List Char :=
  [','].intercalate fields

/-- The header. -/
def header : List Char :=
  joinFields (Column.all.map fun c => c.name.toList)

/-- The row of some metrics. -/
def row {α : Type} [CsvNumber α] (m : Metrics α) : List Char :=
  joinFields (Column.all.map (fieldText m))

/-- A table under construction: its rows, newest first. -/
structure Table where
  rows : List (List Char)

namespace Table

/-- The table with no rows. -/
def empty : Table :=
  ⟨[]⟩

/-- The number of rows. -/
def size (t : Table) : Nat :=
  t.rows.length

/-- The header and the rows, each on a line. -/
def text (t : Table) : List Char :=
  (header :: t.rows.reverse).flatMap (· ++ ['\n'])

/-- Adds a row. -/
def add {α : Type} [CsvNumber α] (t : Table) (m : Metrics α) : Table :=
  ⟨row m :: t.rows⟩

end Table

/-- The sink that collects a table and never fails. -/
def sink (α : Type) [CsvNumber α] : MetricsSink α Table where
  record _ m t := (none, t.add m)
  finish t := (none, t)

/-! ### Reading -/

/-- What is wrong with a field of a row. -/
inductive FieldFault where
  | missing
  | invalid (raw : List Char) (reason : String)
  deriving DecidableEq, Repr

end Csv

/-- Why a text is no table of metrics. -/
inductive CsvError where
  /-- A line that is reached is not UTF-8. -/
  | notText
  | empty
  | missingColumn (column : Csv.Column)
  /-- The first column at fault in a line; lines count from one. -/
  | row (line : Nat) (column : Csv.Column) (fault : Csv.FieldFault)
  deriving DecidableEq, Repr

namespace CsvError

/-- The wording of the error. -/
def message : CsvError → String
  | notText => "stream did not contain valid UTF-8"
  | empty => "CSV input is empty"
  | missingColumn column => s!"CSV header lacks column `{column.name}`"
  | row line column .missing => s!"line {line}: missing value for `{column.name}`"
  | row line column (.invalid raw reason) =>
    s!"line {line}: `{column.name}` = `{String.ofList raw}`: {reason}"

end CsvError

namespace Csv

/-- The fields of a line, without white space around them. -/
def lineFields (line : List Char) : List (List Char) :=
  (Text.fields ',' line).map Text.trim

/-- The position of a column in a header. -/
def position (names : List (List Char)) (c : Column) : Nat :=
  names.idxOf c.name.toList

/-- Reads one field of a row. -/
def readField {β : Type} (read : List Char → Except String β) (names fields : List (List Char))
    (line : Nat) (c : Column) : Except CsvError β :=
  match fields[position names c]? with
  | none => .error (.row line c .missing)
  | some raw => (read raw).mapError fun reason => .row line c (.invalid raw reason)

/-- Reads a total. -/
def readTotal (raw : List Char) : Except String UInt64 :=
  (Natural.read raw).mapError NaturalError.message

/-- Reads a number. -/
def readNumber {α : Type} [CsvNumber α] (raw : List Char) : Except String α :=
  (CsvNumber.read raw).mapError FloatError.message

/-- Reads a row; its columns are looked at in the order of the writer. -/
def readRow {α : Type} [CsvNumber α] (names : List (List Char)) (line : Nat)
    (text : List Char) : Except CsvError (Metrics α) := do
  let fields := lineFields text
  let totalTokens ← readField readTotal names fields line .totalTokens
  let totalBytes ← readField readTotal names fields line .totalBytes
  let compression ← readField readNumber names fields line .compression
  let tokenSpan ← readField readNumber names fields line .tokenSpan
  let rawSplitting ← readField readNumber names fields line .rawIdentifierSplitting
  let splitting ← readField readNumber names fields line .identifierSplitting
  let fertility ← readField readNumber names fields line .identifierFertility
  return ⟨compression, fertility, splitting, rawSplitting, tokenSpan, totalTokens, totalBytes⟩

/-- The text of a line. -/
def lineText (line : List UInt8) : Except CsvError (List Char) :=
  match Utf8.decode? line with
  | some text => .ok text
  | none => .error .notText

/-- Reads rows from line `line` on, after rows already read (newest first).
Blank lines are passed over, but counted. -/
def readRowsOnto {α : Type} [CsvNumber α] (names : List (List Char)) (done : List (Metrics α))
    (line : Nat) : List (List UInt8) → Except CsvError (List (Metrics α))
  | [] => .ok done.reverse
  | bytes :: rest =>
    match lineText bytes with
    | .error e => .error e
    | .ok text =>
      if Text.isBlankLine text then readRowsOnto names done (line + 1) rest
      else
        match readRow names line text with
        | .error e => .error e
        | .ok m => readRowsOnto names (m :: done) (line + 1) rest

/-- Reads a table. -/
def read {α : Type} [CsvNumber α] (bytes : List UInt8) : Except CsvError (List (Metrics α)) :=
  match Lines.ofBytes bytes with
  | [] => .error .empty
  | first :: rest => do
    let names := lineFields (← lineText first)
    match Column.all.find? fun c => !names.contains c.name.toList with
    | some c => .error (.missingColumn c)
    | none => readRowsOnto names [] 2 rest

/-- The metrics of all rows of a table together. -/
def aggregate {α : Type} [Scalar α] [CsvNumber α] (bytes : List UInt8) :
    Except (Stop CsvError) (Metrics α) := do
  let rows ← (read bytes).mapError .error
  Stop.ofSums (Metrics.mergeAll? rows)

end Csv

/-! ### Tables of languages -/

namespace CorpusScore

/-- Adds the metrics of a table to the record of a language. -/
def addTable {α : Type} [Scalar α] [CsvNumber α] (s : CorpusScore α) (lang : Language)
    (bytes : List UInt8) : Except (Stop CsvError) (CorpusScore α) := do
  let m ← Csv.aggregate bytes
  Stop.ofSums (s.add? lang m)

end CorpusScore

end TokenAlignment
