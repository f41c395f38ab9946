/-
TokenAlignment/Report/Json.lean

Reports as JSON: the score of a corpus, and the frequencies of pieces.

The score can be read back.  A record has every field exactly once; languages go
by their names, and of a repeated one the last entry counts:

    ofText? (toText s) = some s      for scores with finite numbers
-/
import TokenAlignment.Json.Number
import TokenAlignment.Json.Printer
import TokenAlignment.Json.Reader
import TokenAlignment.Score.CorpusScore
import TokenAlignment.Score.Frequencies

namespace TokenAlignment

/-! ### Metrics -/

namespace Metrics

/-- The names of the fields, in order. -/
def fieldNames : List String :=
  ["compression", "identifier_fertility", "identifier_splitting_score",
    "raw_identifier_splitting_score", "token_span_score", "total_tokens", "total_bytes"]

/-- The metrics as a JSON value. -/
def toJson {α : Type} [JsonNumber α] (m : Metrics α) : Json :=
  .record (fieldNames.zip
    [JsonNumber.write m.compression, JsonNumber.write m.identifierFertility,
      JsonNumber.write m.identifierSplitting, JsonNumber.write m.rawIdentifierSplitting,
      JsonNumber.write m.tokenSpan, JsonNumber.ofWord m.totalTokens,
      JsonNumber.ofWord m.totalBytes])

end Metrics

namespace Json

/-- The number that a JSON value is. -/
def asNumber? {α : Type} [JsonNumber α] : Json → Option α
  | number lexeme => JsonNumber.read? lexeme
  | _ => none

/-- The word that a JSON value is. -/
def asWord? : Json → Option UInt64
  | number lexeme => JsonNumber.readWord? lexeme
  | _ => none

/-- The metrics that a JSON value describes. -/
def metrics? {α : Type} [JsonNumber α] (v : Json) : Option (Metrics α) :=
  match v.fields? Metrics.fieldNames with
  | some [c, f, s, r, t, tokens, bytes] => do
    return ⟨← c.asNumber?, ← f.asNumber?, ← s.asNumber?, ← r.asNumber?, ← t.asNumber?,
      ← tokens.asWord?, ← bytes.asWord?⟩
  | _ => none

/-- Puts the metrics that a member describes in the place of its language. -/
def addLanguage? {α : Type} [JsonNumber α] (found : PerLanguage (Option (Metrics α)))
    (member : Option (List Char) × Json) : Option (PerLanguage (Option (Metrics α))) := do
  let name ← member.1
  let lang ← Language.ofName? (String.ofList name)
  let m ← member.2.metrics?
  return found.set lang (some m)

/-- The metrics by language that a JSON value describes. -/
def perLanguage? {α : Type} [JsonNumber α] : Json → Option (PerLanguage (Option (Metrics α)))
  | object members => members.foldlM addLanguage? (.const none)
  | _ => none

end Json

/-! ### Scores -/

namespace CorpusScore

variable {α : Type} [JsonNumber α]

/-- The names of the fields, in order. -/
def fieldNames : List String :=
  ["metrics", "total_tokens", "total_bytes"]

/-- The score as a JSON value. -/
def toJson (s : CorpusScore α) : Json :=
  let entry (lang : Language) : Option (String × Json) :=
    (s.metrics.get lang).map fun m => (lang.name, m.toJson)
  .record (fieldNames.zip
    [.record (Language.all.filterMap entry), JsonNumber.ofWord s.totalTokens,
      JsonNumber.ofWord s.totalBytes])

/-- The score as text. -/
def toText (s : CorpusScore α) : List Char :=
  s.toJson.render

/-- The score that a JSON value describes. -/
def ofJson? (v : Json) : Option (CorpusScore α) :=
  match v.fields? fieldNames with
  | some [metrics, tokens, bytes] => do
    return ⟨← metrics.perLanguage?, ← tokens.asWord?, ← bytes.asWord?⟩
  | _ => none

/-- The score that a text describes. -/
def ofText? (text : List Char) : Option (CorpusScore α) :=
  (Json.ofText? text).bind ofJson?

end CorpusScore

/-! ### Frequencies -/

namespace FrequencySummary

/-- A piece and its count as a JSON value. -/
def pieceJson (p : PieceCount) : Json :=
  .record [("piece", .string (some p.piece)), ("count", JsonNumber.ofWord p.count)]

/-- A count as a JSON value. -/
def countJson (n : Nat) : Json :=
  .number (Natural.digits n)

/-- The summary as a JSON value. -/
def toJson {α : Type} [JsonNumber α] (s : FrequencySummary α) : Json :=
  .record [
    ("total_tokens", JsonNumber.ofWord s.totalTokens),
    ("unique_pieces", countJson s.uniquePieces),
    ("never_occurring", countJson s.neverOccurring),
    ("average_occurrences", JsonNumber.write s.averageOccurrences),
    ("occurring_exactly", .array (s.occurringExactly.map countJson)),
    ("rarest", .array (s.rarest.map pieceJson)),
    ("most_frequent", .array (s.mostFrequent.map pieceJson))]

end FrequencySummary

end TokenAlignment
