/-
TokenAlignment/Proofs/Report/Json.lean

Reports are read back,

    ofText? (toText s)  =  some s      if the numbers in s are finite,
    ofText? (toText s)  =  none        if one of them is not,

as long as a finite number is read back from its digits.  The text of a report always spells the
value that was printed, with null in the place of a number that is not finite; and null is no
number, so the field is missed when the record is read.

Main result: `toText_reads_back`.
-/
import TokenAlignment.Proofs.Json.RoundTrip
import TokenAlignment.Proofs.Score.Aggregation
import TokenAlignment.Report.Json

namespace TokenAlignment

theorem Language.ofName?_name (lang : Language) : ofName? lang.name = some lang := by
  cases lang <;> decide

namespace Json

/-! ### Records -/

theorem plain_record {ms : List (String × Json)} (h : ∀ m ∈ ms, Plain m.2) :
    Plain (record ms) := by
  have hobject : Plain (object ((ms.map fun m => (m.1.toList, m.2)).map fun m =>
      (some m.1, m.2))) := by
    refine .object fun m hm => ?_
    obtain ⟨m', hm', rfl⟩ := List.mem_map.mp hm
    exact h m' hm'
  rwa [List.map_map] at hobject

/-- A record with given names of its fields. -/
theorem plain_record_zip {names : List String} {values : List Json} (h : ∀ v ∈ values, Plain v) :
    Plain (record (names.zip values)) :=
  plain_record fun _ hm => h _ (List.of_mem_zip hm).2

/-- A field of a record is the one member with its name. -/
theorem field?_of_mem {ms : List (String × Json)} (hnames : (ms.map Prod.fst).Nodup)
    {m : String × Json} (hm : m ∈ ms) :
    field? (ms.map fun m => (some m.1.toList, m.2)) m.1 = some m.2 := by
  have hkey (m' : String × Json) :
      (some m'.1.toList == some m.1.toList) = true ↔ m'.1 = m.1 := by
    rw [beq_iff_eq, Option.some.injEq, String.toList_inj]
  have hfilter : (ms.map fun m => (some m.1.toList, m.2)).filter
      (fun x => x.1 == some m.1.toList) = [(some m.1.toList, m.2)] := by
    induction ms with
    | nil => cases hm
    | cons m' ms ih =>
        rw [List.map_cons, List.nodup_cons] at hnames
        rcases List.mem_cons.mp hm with rfl | hm
        · rw [List.map_cons, List.filter_cons_of_pos (by simp)]
          refine congrArg _ (List.filter_eq_nil_iff.mpr fun x hx => ?_)
          obtain ⟨m', hm', rfl⟩ := List.mem_map.mp hx
          rw [hkey]
          intro hsame
          exact hnames.1 (hsame ▸ List.mem_map_of_mem hm')
        · rw [List.map_cons, List.filter_cons_of_neg, ih hnames.2 hm]
          rw [hkey]
          intro hsame
          exact hnames.1 (hsame ▸ List.mem_map_of_mem hm)
  rw [field?, hfilter]

/-- **The fields of a record are read by their names.** -/
theorem fields?_record {ms : List (String × Json)} (hnames : (ms.map Prod.fst).Nodup) :
    (record ms).fields? (ms.map Prod.fst) = some (ms.map Prod.snd) := by
  have hfield : ∀ m ∈ ms, field? (ms.map fun m => (some m.1.toList, m.2)) m.1 = some m.2 :=
    fun m hm => field?_of_mem hnames hm
  rw [record, fields?, if_pos (by simp)]
  generalize field? (ms.map fun m => (some m.1.toList, m.2)) = read at hfield
  clear hnames
  induction ms with
  | nil => rfl
  | cons m ms ih =>
      rw [List.forall_mem_cons] at hfield
      rw [List.map_cons, List.mapM_cons, hfield.1, ih hfield.2]
      rfl

/-! ### Words -/

theorem asWord?_ofWord (n : UInt64) : (JsonNumber.ofWord n).asWord? = some n := by
  have hhead : (Natural.digits n.toNat).head?.any Char.isDigit = true := by
    obtain ⟨c, cs, hdigits⟩ := List.exists_cons_of_ne_nil (isDigits_digits n.toNat).ne_nil
    rw [hdigits]
    exact (isDigits_digits n.toNat).isDigit c (hdigits ▸ List.mem_cons_self)
  show JsonNumber.readWord? (Natural.digits n.toNat) = _
  rw [JsonNumber.readWord?, if_pos hhead, Natural.read_digits]
  rfl

theorem plain_ofWord (n : UInt64) : Plain (JsonNumber.ofWord n) :=
  .number (isNumber_digits n.toNat)

end Json

/-! ### Metrics -/

section Metrics

variable {α : Type} [JsonNumber α] {m : Metrics α}

namespace Metrics

theorem plain_toJson (h : ∀ k, (JsonNumber.write (m.value k)).Plain) : m.toJson.Plain := by
  refine Json.plain_record_zip ?_
  simp only [List.forall_mem_cons]
  exact ⟨h .compression, h .identifierFertility, h .identifierSplitting,
    h .rawIdentifierSplitting, h .tokenSpan, Json.plain_ofWord _, Json.plain_ofWord _,
    List.forall_mem_nil _⟩

/-- The metrics that are read, from the fields that are read. -/
theorem metrics?_toJson : (m.toJson.metrics? : Option (Metrics α)) = do
    return ⟨← (JsonNumber.write m.compression).asNumber?,
      ← (JsonNumber.write m.identifierFertility).asNumber?,
      ← (JsonNumber.write m.identifierSplitting).asNumber?,
      ← (JsonNumber.write m.rawIdentifierSplitting).asNumber?,
      ← (JsonNumber.write m.tokenSpan).asNumber?, m.totalTokens, m.totalBytes⟩ := by
  have hfields : m.toJson.fields? fieldNames = some
      [JsonNumber.write m.compression, JsonNumber.write m.identifierFertility,
        JsonNumber.write m.identifierSplitting, JsonNumber.write m.rawIdentifierSplitting,
        JsonNumber.write m.tokenSpan, JsonNumber.ofWord m.totalTokens,
        JsonNumber.ofWord m.totalBytes] :=
    Json.fields?_record (show fieldNames.Nodup by decide)
  rw [Json.metrics?, hfields]
  simp only [Json.asWord?_ofWord]
  rfl

theorem metrics?_eq_some (h : ∀ k, (JsonNumber.write (m.value k)).asNumber? = some (m.value k)) :
    m.toJson.metrics? = some m := by
  rw [metrics?_toJson]
  have h₁ := h .compression
  have h₂ := h .identifierFertility
  have h₃ := h .identifierSplitting
  have h₄ := h .rawIdentifierSplitting
  have h₅ := h .tokenSpan
  dsimp only [value] at h₁ h₂ h₃ h₄ h₅
  rw [h₁, h₂, h₃, h₄, h₅]
  rfl

theorem metrics?_eq_none {k : Metric}
    (h : (JsonNumber.write (m.value k)).asNumber? = (none : Option α)) :
    (m.toJson.metrics? : Option (Metrics α)) = none := by
  rw [metrics?_toJson]
  cases k <;> dsimp only [value] at h <;> simp [h]

end Metrics

end Metrics

/-! ### Scores -/

namespace CorpusScore

variable {α : Type} [JsonNumber α] {s : CorpusScore α}

/-- The member of a language in a report. -/
def entry (s : CorpusScore α) (lang : Language) : Option (String × Json) :=
  (s.metrics.get lang).map fun m => (lang.name, m.toJson)

theorem addLanguage?_entry (found : PerLanguage (Option (Metrics α))) (lang : Language)
    (m : Metrics α) : Json.addLanguage? found (some lang.name.toList, m.toJson)
      = (m.toJson.metrics? : Option (Metrics α)).map fun m => found.set lang (some m) := by
  show ((Language.ofName? (String.ofList lang.name.toList)).bind fun lang =>
    (m.toJson.metrics?).bind fun m => some (found.set lang (some m))) = _
  rw [String.ofList_toList, Language.ofName?_name]
  cases (m.toJson.metrics? : Option (Metrics α)) <;> rfl

/-- The records of some languages, read into what was found before. -/
theorem foldlM_addLanguage? (langs : List Language)
    (h : ∀ lang m, s.metrics.get lang = some m → m.toJson.metrics? = some m)
    (found : PerLanguage (Option (Metrics α))) :
    ∃ found', ((langs.filterMap s.entry).map fun m => (some m.1.toList, m.2)).foldlM
        Json.addLanguage? found = some found' ∧
      ∀ lang, found'.get lang
        = if lang ∈ langs then (s.metrics.get lang).or (found.get lang) else found.get lang := by
  induction langs generalizing found with
  | nil => exact ⟨found, rfl, by simp⟩
  | cons lang langs ih =>
      rw [List.filterMap_cons, entry]
      rcases hget : s.metrics.get lang with - | m
      · obtain ⟨found', hfold, hfound⟩ := ih found
        refine ⟨found', hfold, fun other => ?_⟩
        rw [hfound]
        by_cases hother : other = lang <;> simp [hother, hget]
      · obtain ⟨found', hfold, hfound⟩ := ih (found.set lang (some m))
        refine ⟨found', ?_, fun other => ?_⟩
        · show List.foldlM _ _ ((some lang.name.toList, m.toJson) :: _) = _
          rw [List.foldlM_cons, addLanguage?_entry, h lang m hget]
          exact hfold
        · rw [hfound, PerLanguage.get_set]
          by_cases hother : other = lang <;> simp [hother, hget]

/-- A record that cannot be read is missed. -/
theorem foldlM_addLanguage?_eq_none {langs : List Language} {lang : Language} {m : Metrics α}
    (hlang : lang ∈ langs) (hget : s.metrics.get lang = some m)
    (h : (m.toJson.metrics? : Option (Metrics α)) = none)
    (found : PerLanguage (Option (Metrics α))) :
    ((langs.filterMap s.entry).map fun m => (some m.1.toList, m.2)).foldlM
      Json.addLanguage? found = none := by
  induction langs generalizing found with
  | nil => cases hlang
  | cons first langs ih =>
      rw [List.filterMap_cons, entry]
      rcases List.mem_cons.mp hlang with rfl | hlang
      · rw [hget]
        show List.foldlM _ _ ((some lang.name.toList, m.toJson) :: _) = _
        rw [List.foldlM_cons, addLanguage?_entry, h]
        rfl
      · rcases s.metrics.get first with - | m'
        · exact ih hlang found
        · show List.foldlM _ _ ((some first.name.toList, m'.toJson) :: _) = _
          rw [List.foldlM_cons, addLanguage?_entry]
          -- an earlier record may be missed as well
          rcases (m'.toJson.metrics? : Option (Metrics α)) with - | m'
          · rfl
          · exact ih hlang _

theorem ofJson?_toJson : (ofJson? s.toJson : Option (CorpusScore α))
    = (Json.perLanguage? (.record (Language.all.filterMap s.entry))).map fun metrics =>
      ⟨metrics, s.totalTokens, s.totalBytes⟩ := by
  have hfields : s.toJson.fields? fieldNames = some
      [.record (Language.all.filterMap s.entry), JsonNumber.ofWord s.totalTokens,
        JsonNumber.ofWord s.totalBytes] :=
    Json.fields?_record (show fieldNames.Nodup by decide)
  rw [ofJson?, hfields]
  simp only [Json.asWord?_ofWord]
  cases Json.perLanguage? (α := α) (.record (Language.all.filterMap s.entry)) <;> rfl

/-- **A score is read back** if its records are. -/
theorem ofJson?_eq_some (h : ∀ lang m, s.metrics.get lang = some m → m.toJson.metrics? = some m) :
    ofJson? s.toJson = some s := by
  obtain ⟨found, hfold, hfound⟩ := foldlM_addLanguage? Language.all h (.const none)
  have hmetrics : found = s.metrics := by
    refine PerLanguage.ext_get fun lang => ?_
    rw [hfound, PerLanguage.get_const, Option.or_none, if_pos]
    cases lang <;> decide
  rw [ofJson?_toJson]
  show (List.foldlM Json.addLanguage? (.const none) _).map _ = _
  rw [hfold, hmetrics]
  rfl

theorem ofJson?_eq_none {lang : Language} {m : Metrics α} (hget : s.metrics.get lang = some m)
    (h : (m.toJson.metrics? : Option (Metrics α)) = none) :
    (ofJson? s.toJson : Option (CorpusScore α)) = none := by
  have hlang : lang ∈ Language.all := by cases lang <;> decide
  rw [ofJson?_toJson]
  show (List.foldlM Json.addLanguage? (.const none) _).map _ = _
  rw [foldlM_addLanguage?_eq_none hlang hget h]
  rfl

/-! ### Texts -/

/-- The text of a score spells its value, if every number has a form in the grammar. -/
theorem ofText?_toText_eq (h : ∀ x : α, (JsonNumber.write x).Plain) :
    (ofText? s.toText : Option (CorpusScore α)) = ofJson? s.toJson := by
  have hlanguages : (Json.record (Language.all.filterMap s.entry)).Plain := by
    refine Json.plain_record fun member hmember => ?_
    obtain ⟨lang, -, hentry⟩ := List.mem_filterMap.mp hmember
    obtain ⟨m, -, rfl⟩ := Option.map_eq_some_iff.mp hentry
    exact Metrics.plain_toJson fun k => h (m.value k)
  have hplain : s.toJson.Plain := by
    refine Json.plain_record_zip ?_
    simp only [List.forall_mem_cons]
    exact ⟨hlanguages, Json.plain_ofWord _, Json.plain_ofWord _, List.forall_mem_nil _⟩
  rw [ofText?, toText, Json.ofText?_render hplain]
  rfl

end CorpusScore

namespace JsonNumber

theorem plain_write (x : Float) : (JsonNumber.write x).Plain := by
  by_cases h : IsFinite x
  · rw [write_of_isFinite h]
    exact .number (isNumber_floatText x)
  · rw [write_of_not_isFinite h]
    exact .null

/-- Whether a number is read back from its digits. -/
def ReadsBack (x : Float) : Prop :=
  readFloat? (floatText x) = some x

instance (x : Float) : Decidable (ReadsBack x) :=
  inferInstanceAs (Decidable (_ = _))

end JsonNumber

namespace CorpusScore

open JsonNumber (IsFinite ReadsBack)

/-- **A report keeps a score as it is.**  If all numbers of a score are finite, and are read back
from their digits, then the score is read back from its text: all fields of all records, those
languages that have one and no other, and both totals.  If a number is not finite, then no score
is read. -/
theorem toText_reads_back (s : CorpusScore Float) :
    ((∀ lang m k, s.get? lang = some m → IsFinite (m.value k) ∧ ReadsBack (m.value k)) →
      ofText? s.toText = some s) ∧
    ((∃ lang m k, s.get? lang = some m ∧ ¬IsFinite (m.value k)) →
      (ofText? s.toText : Option (CorpusScore Float)) = none) := by
  rw [ofText?_toText_eq JsonNumber.plain_write]
  constructor
  · intro h
    refine ofJson?_eq_some fun lang m hget => Metrics.metrics?_eq_some fun k => ?_
    obtain ⟨hfinite, hback⟩ := h lang m k hget
    rw [JsonNumber.write_of_isFinite hfinite]
    exact hback
  · rintro ⟨lang, m, k, hget, hfinite⟩
    refine ofJson?_eq_none hget (Metrics.metrics?_eq_none (k := k) ?_)
    rw [JsonNumber.write_of_not_isFinite hfinite]
    rfl

/-- A record with plain numbers, a minus sign in front of a zero among them. -/
def plainRecord : Metrics Float :=
  ⟨.ofNat 2, .ofNat 1 / .ofNat 3, .ofNat 0, .ofNat 1 / .ofNat 10, -.ofNat 0, 1, 0⟩

/-- A record with exponents, and with totals that no floating-point number has. -/
def exponentRecord : Metrics Float :=
  ⟨.ofNat (10 ^ 21), .ofNat 1 / .ofNat (10 ^ 7), .ofNat 1, .ofNat 1, .ofNat 123 / .ofNat 8,
    18446744073709551615, 9007199254740993⟩

/-- The score with two records. -/
def twoRecords (second : Metrics Float) : CorpusScore Float :=
  ⟨⟨some plainRecord, none, none, none, some second⟩, 18446744073709551615, 3⟩

theorem readsBack_of_get?_twoRecords :
    ∀ lang m k, (twoRecords exponentRecord).get? lang = some m →
      IsFinite (m.value k) ∧ ReadsBack (m.value k) := by
  intro lang m k hget
  have hm : m = plainRecord ∨ m = exponentRecord := by
    cases lang with
    | cpp => exact .inl (Option.some.inj hget).symm
    | python => exact .inr (Option.some.inj hget).symm
    | go | java | javascript => cases (show none = some m from hget)
  rcases hm with rfl | rfl <;> cases k <;> decide +kernel

theorem toText_reads_back_twoRecords :
    (∀ lang m k, (twoRecords exponentRecord).get? lang = some m →
      IsFinite (m.value k) ∧ ReadsBack (m.value k)) ∧
      ofText? (twoRecords exponentRecord).toText = some (twoRecords exponentRecord) ∧
      ¬IsFinite (.ofNat 1 / .ofNat 0) ∧
      (ofText? (twoRecords { exponentRecord with compression := .ofNat 1 / .ofNat 0 }).toText :
        Option (CorpusScore Float)) = none := by
  have hinfinite : ¬IsFinite (.ofNat 1 / .ofNat 0) := by decide +kernel
  exact ⟨readsBack_of_get?_twoRecords,
    (toText_reads_back _).1 readsBack_of_get?_twoRecords, hinfinite,
    (toText_reads_back _).2 ⟨.python, _, .compression, rfl, hinfinite⟩⟩

end CorpusScore

end TokenAlignment
