/-
TokenAlignment/Report/Table.lean

Reports for readers: the splits of every identifier of a document with its
metrics, and the headline of a corpus.

The cells of a column are padded to the longest of them, in characters, and no
line ends in white space.
-/
import TokenAlignment.Decimal.Rounded
import TokenAlignment.Document
import TokenAlignment.Score.CorpusScore
import TokenAlignment.Score.Identifiers

namespace TokenAlignment

namespace Report

/-- A number with two decimal places. -/
def twoPlaces (x : Float) : List Char :=
  Decimal.rounded 2 x

/-- A word in decimal. -/
def wordText (n : UInt64) : List Char :=
  Natural.digits n.toNat

/-! ### Tables -/

/-- Texts with a separator between them. -/
def joinWith (separator : String) (parts : List (List Char)) : List Char :=
  separator.toList.intercalate parts

/-- The lengths of the longest cells of the columns. -/
def widths (rows : List (List (List Char))) : List Nat :=
  match rows with
  | [] => []
  | first :: rest =>
    rest.foldl (fun ws row => List.zipWith max ws (row.map List.length)) (first.map List.length)

/-- A cell with blanks up to a width. -/
def pad (width : Nat) (cell : List Char) : List Char :=
  cell ++ List.replicate (width - cell.length) ' '

/-- A row as a line. -/
def renderRow (ws : List Nat) (row : List (List Char)) : List Char :=
  Text.trimEnd (joinWith " | " (List.zipWith pad ws row)) ++ ['\n']

/-- The rows of a table as lines. -/
def renderTable (rows : List (List (List Char))) : List Char :=
  rows.flatMap (renderRow (widths rows))

/-- The metrics of a document or corpus, one on a line. -/
def metricsTable (m : Metrics Float) : List Char :=
  renderTable [
    ["compression".toList, twoPlaces m.compression],
    ["token_span_score".toList, twoPlaces m.tokenSpan],
    ["raw_identifier_splitting_score".toList, twoPlaces m.rawIdentifierSplitting],
    ["identifier_splitting_score".toList, twoPlaces m.identifierSplitting],
    ["identifier_fertility".toList, twoPlaces m.identifierFertility],
    ["total_tokens".toList, wordText m.totalTokens],
    ["total_bytes".toList, wordText m.totalBytes]]

/-! ### Identifiers -/

/-- Pieces with blanks between them, a dash if there are none. -/
def piecesText (pieces : List (List Char)) : List Char :=
  if pieces.isEmpty then ['-'] else joinWith " " pieces

/-- Whether a split agrees with the authoritative one. -/
def mark (candidate authoritative : List (List Char)) : List Char :=
  if candidate = authoritative then ['✓'] else ['✗']

/-- The row of an identifier. -/
def splitRow (document : Document) (s : IdentifierSplits) : List (List Char) :=
  [document.visibleText s.identifier.span, piecesText s.authoritative, piecesText s.raw,
    mark s.raw s.authoritative, piecesText s.clipped, mark s.clipped s.authoritative]

/-- The splits of the identifiers of a document, and its metrics. -/
def snippet (document : Document) (splits : List IdentifierSplits) (m : Metrics Float) :
    List Char :=
  let head := ["identifier", "authoritative", "raw", "exact", "clipped", "exact"]
  renderTable (head.map String.toList :: splits.map (splitRow document)) ++
    '\n' :: metricsTable m

/-! ### Headlines -/

/-- The headline of a language. -/
def languageLine (lang : Language) (m : Metrics Float) : String :=
  let two (x : Float) := String.ofList (twoPlaces x)
  let splitting := s!"{two m.identifierSplitting} (raw {two m.rawIdentifierSplitting})"
  s!"{lang}: compression {two m.compression}, token span {two m.tokenSpan}, " ++
    s!"identifier splitting {splitting}, fertility {two m.identifierFertility}\n"

/-- The headlines of the languages with data, and of the whole corpus. -/
def headline (s : CorpusScore Float) : String :=
  let lines := s.withData.map fun (lang, m) => languageLine lang m
  let parity := String.ofList (twoPlaces s.compressionParity)
  String.join lines ++
    s!"total: {s.totalTokens} tokens over {s.totalBytes} bytes, compression parity {parity}\n"

end Report

end TokenAlignment
