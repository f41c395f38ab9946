/-
TokenAlignment/Proofs/Corpus/Jsonl.lean

The records of a corpus do not know each other,

    items (A ++ B)  =  items A ++ items B, with numbers raised by the lines of A,

where A stops with a line.  What a line holds depends on its own bytes alone (`ofLine`), and
the number of a line on the line feeds before it alone; so whatever stands on one line, no
other item changes, gets lost or gets another label.

Main result: `items_independent`.
-/
import TokenAlignment.Corpus.Jsonl
import TokenAlignment.Proofs.Document
import TokenAlignment.Proofs.Text.Split

namespace TokenAlignment

namespace Jsonl

open Lines (lineFeed toBytes finish)

/-! ### One line -/

/-- What a line holds: nothing if it is blank, else a document or the reason why it is none. -/
def ofLine (line : List UInt8) : Option (Except Rejection Document) :=
  (itemOfLine "" line 0).map (·.document)

/-- Whether the bytes spell a text of white space only. -/
def IsBlankLine (line : List UInt8) : Prop :=
  ∃ text, Utf8.encode text = line ∧ ∀ c ∈ text, isBlank c = true

/-- The name of a language and the content that a text describes. -/
def recordOf? (text : List Char) : Option (List Char × List Char) :=
  (Json.ofText? text).bind record?

/-- What a line holds that is not blank: it fails if it is no text or no record, and is skipped
if nobody knows its language or its content is too long for a document. -/
inductive Holds (line : List UInt8) : Except Rejection Document → Prop
  | unreadable : (∀ text, Utf8.encode text ≠ line) → Holds line (.error (.failed unreadable))
  | malformed {text} : Utf8.encode text = line → recordOf? text = none →
      Holds line (.error (.failed malformed))
  | unsupported {text name content e} : Utf8.encode text = line →
      recordOf? text = some (name, content) → Language.parse (String.ofList name) = .error e →
      Holds line (.error (.skipped e.message))
  | tooLarge {text name content lang e} : Utf8.encode text = line →
      recordOf? text = some (name, content) → Language.parse (String.ofList name) = .ok lang →
      Document.ofContent? lang (Utf8.encode content) = .error e →
      Holds line (.error (.skipped e.message))
  | document {text name content lang d} : Utf8.encode text = line →
      recordOf? text = some (name, content) → Language.parse (String.ofList name) = .ok lang →
      Document.ofContent? lang (Utf8.encode content) = .ok d → Holds line (.ok d)

/-- The label tells where an item is from, and nothing else. -/
theorem itemOfText_eq (label label' : String) (text : List Char) :
    itemOfText label text = ⟨label, (itemOfText label' text).document⟩ := by
  rw [itemOfText, itemOfText]
  rcases (Json.ofText? text).bind record? with - | ⟨name, content⟩
  · rfl
  · dsimp only
    rcases Language.parse (String.ofList name) with e | lang <;> rfl

theorem itemOfLine_eq (source : String) (line : List UInt8) (number : Nat) :
    itemOfLine source line number
      = (ofLine line).map fun found => ⟨label source number, found⟩ := by
  rw [ofLine, itemOfLine, itemOfLine]
  rcases Utf8.decode? line with - | text
  · rfl
  · dsimp only
    split
    · rfl
    · rw [itemOfText_eq _ (label "" 0)]
      rfl

/-- A line is no text, or spells one: a blank one is passed over. -/
theorem ofLine_cases (line : List UInt8) :
    ((∀ text, Utf8.encode text ≠ line) ∧ ofLine line = some (.error (.failed unreadable))) ∨
    ∃ text, Utf8.encode text = line ∧
      ((Text.isBlankLine text = true ∧ ofLine line = none) ∨
        (Text.isBlankLine text = false ∧
          ofLine line = some (itemOfText "" text).document)) := by
  rw [ofLine, itemOfLine]
  rcases htext : Utf8.decode? line with - | text
  · refine .inl ⟨fun text hspells => ?_, rfl⟩
    rw [← Utf8.decode?_eq_some_iff, htext] at hspells
    cases hspells
  · refine .inr ⟨text, Utf8.decode?_eq_some_iff.mp htext, ?_⟩
    rcases hblank : Text.isBlankLine text with - | -
    · refine .inr ⟨rfl, ?_⟩
      rw [itemOfText_eq "" (label "" 0)]
      simp [hblank]
    · exact .inl ⟨rfl, by simp [hblank]⟩

theorem isBlankLine_encode {text : List Char} :
    IsBlankLine (Utf8.encode text) ↔ Text.isBlankLine text = true := by
  rw [Text.isBlankLine, List.all_eq_true]
  constructor
  · rintro ⟨text', hspells, hblank⟩
    rwa [← Utf8.encode_inj.mp hspells]
  · exact fun hblank => ⟨text, rfl, hblank⟩

theorem holds_iff_of_unreadable {line : List UInt8} (h : ∀ text, Utf8.encode text ≠ line)
    {found : Except Rejection Document} :
    Holds line found ↔ found = .error (.failed unreadable) := by
  constructor
  · rintro (_ | ⟨hspells, -⟩ | ⟨hspells, -, -⟩ | ⟨hspells, -, -, -⟩ | ⟨hspells, -, -, -⟩)
    · rfl
    all_goals exact absurd hspells (h _)
  · rintro rfl
    exact .unreadable h

/-- A line that is a text holds what the text describes. -/
theorem holds_encode_iff {text : List Char} {found : Except Rejection Document} :
    Holds (Utf8.encode text) found ↔ found = (itemOfText "" text).document := by
  rw [itemOfText]
  constructor
  · rintro (h | ⟨hspells, hrecord⟩ | ⟨hspells, hrecord, hlang⟩ |
      ⟨hspells, hrecord, hlang, hdocument⟩ | ⟨hspells, hrecord, hlang, hdocument⟩)
    · exact absurd rfl (h text)
    all_goals
      obtain rfl := Utf8.encode_inj.mp hspells
      rw [recordOf?] at hrecord
      rw [hrecord]
    · dsimp only
      rw [hlang]
    all_goals
      dsimp only
      rw [hlang]
      dsimp only
      rw [CorpusItem.ofContent, hdocument]
      rfl
  · rintro rfl
    rcases hrecord : (Json.ofText? text).bind record? with - | ⟨name, content⟩
    · exact .malformed rfl hrecord
    · dsimp only
      rcases hlang : Language.parse (String.ofList name) with e | lang
      · exact .unsupported rfl hrecord hlang
      · dsimp only
        rw [CorpusItem.ofContent]
        rcases hdocument : Document.ofContent? lang (Utf8.encode content) with e | d
        · exact .tooLarge rfl hrecord hlang hdocument
        · exact .document rfl hrecord hlang hdocument

/-- **A line holds nothing if it is blank.** -/
theorem ofLine_eq_none_iff {line : List UInt8} : ofLine line = none ↔ IsBlankLine line := by
  rcases ofLine_cases line with ⟨hunreadable, h⟩ | ⟨text, rfl, ⟨hblank, h⟩ | ⟨hblank, h⟩⟩
  · refine iff_of_false (by simp [h]) ?_
    rintro ⟨text, hspells, -⟩
    exact hunreadable text hspells
  · exact iff_of_true h (isBlankLine_encode.mpr hblank)
  · exact iff_of_false (by simp [h]) (by simp [isBlankLine_encode, hblank])

/-- **A line that is not blank holds one thing**, which its own bytes determine. -/
theorem ofLine_eq_some_iff {line : List UInt8} {found : Except Rejection Document} :
    ofLine line = some found ↔ ¬IsBlankLine line ∧ Holds line found := by
  rcases ofLine_cases line with ⟨hunreadable, h⟩ | ⟨text, rfl, ⟨hblank, h⟩ | ⟨hblank, h⟩⟩
  · have hblank : ¬IsBlankLine line := by
      rw [← ofLine_eq_none_iff, h]
      exact Option.some_ne_none _
    rw [holds_iff_of_unreadable hunreadable, h, Option.some.injEq, eq_comm]
    simp [hblank]
  · rw [h, isBlankLine_encode, hblank]
    simp
  · rw [holds_encode_iff, isBlankLine_encode, hblank, h, Option.some.injEq, eq_comm]
    simp

/-! ### The lines of a corpus -/

/-- What some lines hold, each with the number of its line. -/
def entriesFrom (first : Nat) (lines : List (List UInt8)) :
    List (Nat × Except Rejection Document) :=
  (lines.zipIdx first).filterMap fun (line, number) => (ofLine line).map (Prod.mk number)

/-- What the lines of a corpus hold, numbered from one. -/
def entries (bytes : List UInt8) : List (Nat × Except Rejection Document) :=
  entriesFrom 1 (Lines.ofBytes bytes)

/-- The item of what a line holds. -/
def itemOf (source : String) (entry : Nat × Except Rejection Document) : CorpusItem :=
  ⟨label source entry.1, entry.2⟩

/-- The same with a number raised by some lines. -/
def raise (lines : Nat) (entry : Nat × Except Rejection Document) :
    Nat × Except Rejection Document :=
  (lines + entry.1, entry.2)

theorem entriesFrom_cons (first : Nat) (line : List UInt8) (lines : List (List UInt8)) :
    entriesFrom first (line :: lines)
      = ((ofLine line).map (Prod.mk first)).toList ++ entriesFrom (first + 1) lines := by
  rw [entriesFrom, List.zipIdx_cons, List.filterMap_cons]
  dsimp only
  rcases ofLine line with - | found <;> rfl

theorem entriesFrom_append (first : Nat) (upper lower : List (List UInt8)) :
    entriesFrom first (upper ++ lower)
      = entriesFrom first upper ++ entriesFrom (first + upper.length) lower := by
  rw [entriesFrom, List.zipIdx_append, List.filterMap_append]
  rfl

/-- Lines further below hold the same under higher numbers. -/
theorem entriesFrom_add (lines : Nat) (first : Nat) (lower : List (List UInt8)) :
    entriesFrom (lines + first) lower = (entriesFrom first lower).map (raise lines) := by
  induction lower generalizing first with
  | nil => rfl
  | cons line lower ih =>
      rw [entriesFrom_cons, entriesFrom_cons, List.map_append, Nat.add_assoc, ih]
      rcases ofLine line with - | found <;> rfl

/-- **An item is what its line holds**, labelled with the number of the line. -/
theorem items_eq (source : String) (bytes : List UInt8) :
    items source bytes = (entries bytes).map (itemOf source) := by
  have hline : ∀ entry : List UInt8 × Nat, itemOfLine source entry.1 entry.2
      = ((ofLine entry.1).map (Prod.mk entry.2)).map (itemOf source) := by
    intro entry
    rw [itemOfLine_eq, Option.map_map]
    rfl
  rw [items, entries, entriesFrom, List.map_filterMap]
  exact congrArg (List.filterMap · _) (funext hline)

/-- Whether no line of the bytes is without its line feed. -/
def IsWhole (bytes : List UInt8) : Prop :=
  bytes = [] ∨ bytes.getLast? = some lineFeed

/-- **The records of a corpus stay as they are in a longer one**; those below get higher
numbers. -/
theorem entries_append {upper : List UInt8} (h : IsWhole upper) (lower : List UInt8) :
    entries (upper ++ lower)
      = entries upper ++ (entries lower).map (raise (upper.count lineFeed)) := by
  -- a part that stops with a line has as many lines as line feeds, and no rest
  obtain ⟨bodies, rfl, hfeed⟩ := Lines.exists_eq_toBytes h
  have hupper := Lines.ofBytes_toBytes_append hfeed []
  rw [List.append_nil, show Lines.ofBytes [] = [] from rfl, List.append_nil] at hupper
  rw [entries, entries, entries, Lines.ofBytes_toBytes_append hfeed, hupper, entriesFrom_append,
    ← entriesFrom_add, Lines.count_toBytes hfeed, List.length_map, Nat.add_comm 1]

/-- One line, if there is a line feed behind it. -/
theorem entries_line {line : List UInt8} (hfeed : lineFeed ∉ line) :
    entries (line ++ [lineFeed]) = ((ofLine (finish line.reverse)).map (Prod.mk 1)).toList := by
  rw [entries, Lines.ofBytes_cons hfeed, entriesFrom_cons]
  exact List.append_nil _

/-- One line, if it is the last one and there is no line feed behind it. -/
theorem entries_tail {tail : List UInt8} (hfeed : lineFeed ∉ tail) :
    entries tail = ((ofLine tail).map (Prod.mk 1)).toList := by
  rw [entries, Lines.ofBytes_of_notMem hfeed]
  split
  · next hnil =>
      have hblank : ofLine [] = none := ofLine_eq_none_iff.mpr ⟨[], rfl, by simp⟩
      rw [hnil, hblank]
      rfl
  · rw [entriesFrom_cons]
    exact List.append_nil _

/-- **The records of a corpus are independent of each other.**  Below a part that stops with a
line, all is as it is alone, under numbers that are raised by the lines of the part; one line
between two parts gives the one item that it holds, or none if it is blank.  What a line holds
is a matter of its own bytes. -/
theorem items_independent (source : String) :
    (∀ bytes, items source bytes = (entries bytes).map (itemOf source)) ∧
    (∀ upper, IsWhole upper →
      (∀ lower, items source (upper ++ lower)
        = items source upper
          ++ ((entries lower).map (raise (upper.count lineFeed))).map (itemOf source)) ∧
      (∀ line lower, lineFeed ∉ line →
        items source (upper ++ (line ++ lineFeed :: lower))
          = items source upper
            ++ ((ofLine (finish line.reverse)).map fun found =>
                itemOf source (upper.count lineFeed + 1, found)).toList
            ++ ((entries lower).map (raise (upper.count lineFeed + 1))).map (itemOf source)) ∧
      (∀ tail, lineFeed ∉ tail →
        items source (upper ++ tail)
          = items source upper
            ++ ((ofLine tail).map fun found =>
                itemOf source (upper.count lineFeed + 1, found)).toList)) ∧
    ∀ line, (ofLine line = none ↔ IsBlankLine line) ∧
      ∀ found, ofLine line = some found ↔ ¬IsBlankLine line ∧ Holds line found := by
  refine ⟨items_eq source, fun upper hwhole => ?_,
    fun line => ⟨ofLine_eq_none_iff, fun found => ofLine_eq_some_iff⟩⟩
  have happend : ∀ lower, items source (upper ++ lower) = items source upper
      ++ ((entries lower).map (raise (upper.count lineFeed))).map (itemOf source) := by
    intro lower
    rw [items_eq, items_eq, entries_append hwhole, List.map_append]
  have hlabel : ∀ found : Option (Except Rejection Document),
      (((found.map (Prod.mk 1)).toList).map (raise (upper.count lineFeed))).map (itemOf source)
        = (found.map fun found => itemOf source (upper.count lineFeed + 1, found)).toList := by
    rintro (_ | found) <;> rfl
  refine ⟨happend, fun line lower hfeed => ?_, fun tail hfeed => ?_⟩
  -- the line with its line feed is a part that stops with a line, and raises what is below by one
  · have hraise : raise (upper.count lineFeed) ∘ raise 1 = raise (upper.count lineFeed + 1) :=
      funext fun entry => Prod.ext (Nat.add_assoc _ _ _).symm rfl
    have hline : IsWhole (line ++ [lineFeed]) := .inr List.getLast?_concat
    have hcount : (line ++ [lineFeed]).count lineFeed = 1 := by
      rw [List.count_append, List.count_eq_zero_of_not_mem hfeed, List.count_singleton_self]
    rw [happend, List.append_cons, entries_append hline, entries_line hfeed, hcount,
      List.map_append, List.map_append, hlabel, List.map_map (g := raise _), hraise,
      List.append_assoc]
  · rw [happend, entries_tail hfeed, hlabel]

/-- An item as a value that can be compared. -/
def summary (item : CorpusItem) : String × (Rejection ⊕ Language × List UInt8) :=
  (item.label, match item.document with
    | .error reason => .inl reason
    | .ok d => .inr (d.language, d.content.toList))

/-- A line that is no text, below a blank one and one that is no record, and above records with
a blank line between them. -/
theorem items_independent_unreadable :
    let upper := Utf8.encode "\t\r\n[]\n".toList
    let line := [0xFF, 0x0D]
    let lower := Utf8.encode "[\"ada\", \"\"]\r\n\n[\"go\", \"x\"]".toList
    IsWhole upper ∧ lineFeed ∉ line ∧
      (items "c" (upper ++ (line ++ lineFeed :: lower))).map summary
        = [("c:2", .inl (.failed malformed)), ("c:3", .inl (.failed unreadable)),
          ("c:4", .inl (.skipped (UnsupportedLanguage.message ⟨"ada"⟩))),
          ("c:6", .inr (.go, [0x78]))] := by
  intro upper line lower
  have hwhole : IsWhole upper := .inr (by decide +kernel)
  have hfeed : lineFeed ∉ line := by decide
  refine ⟨hwhole, hfeed, ?_⟩
  rw [((items_independent "c").2.1 upper hwhole).2.1 line lower hfeed]
  decide +kernel

end Jsonl

end TokenAlignment
