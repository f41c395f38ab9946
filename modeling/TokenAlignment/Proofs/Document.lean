/-
TokenAlignment/Proofs/Document.lean

Reading a document.  A span has a text if it lies in the document and its bytes spell
one,

    d.text s = ok T   iff   d.bytes s = ok (encode T),

and a cut of such a span shows the characters of T that lie in the cut as a whole
(`visibleText_cut`), wherever in a character the cut begins or ends.
-/
import TokenAlignment.Document
import TokenAlignment.Proofs.Text.Slice

namespace TokenAlignment

namespace Document

variable {d : Document} {span : Span} {text : List Char}

theorem textOf_eq_ok_iff {bytes : List UInt8} :
    textOf span bytes = .ok text ↔ Utf8.encode text = bytes := by
  rw [textOf, ← Utf8.decode?_eq_some_iff]
  rcases Utf8.decode? bytes with - | decoded <;> simp

/-- **A document has a text if its bytes spell it.** -/
theorem fullText_eq_ok_iff : d.fullText = .ok text ↔ Utf8.encode text = d.content.toList :=
  textOf_eq_ok_iff

/-- The content spells no text, or exactly one. -/
theorem fullText_cases (d : Document) :
    (∃ e, d.fullText = .error e ∧ ∀ text, Utf8.encode text ≠ d.content.toList) ∨
    ∃ text, d.fullText = .ok text ∧
      ∀ text', Utf8.encode text' = d.content.toList ↔ text = text' := by
  rcases htext : d.fullText with e | text
  · left
    refine ⟨e, rfl, ?_⟩
    intro text hspells
    rw [← fullText_eq_ok_iff, htext] at hspells
    cases hspells
  · right
    refine ⟨text, rfl, ?_⟩
    intro text'
    rw [← fullText_eq_ok_iff, htext, Except.ok.injEq]

theorem bytes_eq_ok (h : span.stop ≤ d.length) :
    d.bytes span = .ok (Utf8.slice 0 d.content.toList span) := by
  rw [bytes, if_pos h, Array.toList_extract, List.extract_eq_take_drop, Utf8.slice,
    List.drop_take]
  rfl

theorem bytes_eq_ok_iff {bytes : List UInt8} :
    d.bytes span = .ok bytes
      ↔ span.stop ≤ d.length ∧ bytes = Utf8.slice 0 d.content.toList span := by
  by_cases h : span.stop ≤ d.length
  · rw [bytes_eq_ok h, Except.ok.injEq]
    constructor
    · intro hbytes
      exact ⟨h, hbytes.symm⟩
    · intro hbytes
      exact hbytes.2.symm
  · rw [Document.bytes, if_neg h]
    constructor
    · intro hbytes
      cases hbytes
    · intro hbytes
      exact absurd hbytes.1 h

/-- **A span has a text if its bytes are there and spell it.** -/
theorem text_eq_ok_iff : d.text span = .ok text ↔ d.bytes span = .ok (Utf8.encode text) := by
  rw [Document.text]
  rcases d.bytes span with e | bytes
  · constructor <;> intro h <;> cases h
  · show textOf span bytes = .ok text ↔ _
    rw [textOf_eq_ok_iff, Except.ok.injEq]
    exact eq_comm

/-- A span has one text at most. -/
theorem text_unique {text' : List Char} (h : d.bytes span = .ok (Utf8.encode text))
    (h' : d.bytes span = .ok (Utf8.encode text')) : text = text' := by
  rw [← text_eq_ok_iff] at h h'
  exact Except.ok.inj (h.symm.trans h')

/-- A span has as many bytes as it is wide. -/
theorem length_bytes {bytes : List UInt8} (h : d.bytes span = .ok bytes) :
    bytes.length = span.length := by
  obtain ⟨hstop, rfl⟩ := bytes_eq_ok_iff.mp h
  have hsize : span.stop ≤ d.content.toList.length := hstop
  rw [Utf8.slice, List.length_drop, List.length_take, Nat.sub_zero, Nat.sub_zero,
    Nat.min_eq_left hsize]
  rfl

/-- The bytes of a text end where its span does, in the document. -/
theorem start_add_length (h : d.bytes span = .ok (Utf8.encode text)) :
    span.start + (Utf8.encode text).length = span.stop ∧ span.stop ≤ d.length := by
  have := span.start_le_stop
  rw [length_bytes h, Span.length]
  exact ⟨by omega, (bytes_eq_ok_iff.mp h).1⟩

/-- The bytes of the span are there and spell a text. -/
def IsText (d : Document) (span : Span) : Prop :=
  ∃ text, d.bytes span = .ok (Utf8.encode text)

theorem isText_iff : d.IsText span ↔ (d.text span).toOption.isSome = true := by
  rw [IsText]
  rcases htext : d.text span with e | text
  · refine iff_of_false ?_ (by simp [Except.toOption])
    rintro ⟨text, hspells⟩
    rw [← text_eq_ok_iff, htext] at hspells
    cases hspells
  · exact iff_of_true ⟨text, text_eq_ok_iff.mp htext⟩ rfl

instance (d : Document) (span : Span) : Decidable (d.IsText span) :=
  decidable_of_iff _ isText_iff.symm

/-- A document without bytes. -/
def empty (language : Language) : Document :=
  ⟨language, #[], by decide⟩

/-- **A cut of a text shows the characters that lie in it as a whole.** -/
theorem visibleText_cut {cut : Span} (h : d.bytes span = .ok (Utf8.encode text))
    (hcut : span.contains cut = true) :
    d.visibleText cut
      = ((Utf8.located span.start text).filter fun x => cut.contains x.2).map Prod.fst := by
  obtain ⟨hstop, htext⟩ := bytes_eq_ok_iff.mp h
  rw [Span.contains_iff] at hcut
  have hbytes : Utf8.slice 0 d.content.toList cut
      = Utf8.slice span.start (Utf8.encode text) cut := by
    rw [htext, Utf8.slice_slice hcut.1 hcut.2]
  rw [visibleText, bytes_eq_ok (Nat.le_trans hcut.2 hstop)]
  show Utf8.decodeLossy _ = _
  rw [hbytes, Utf8.decodeLossy_slice]

end Document

end TokenAlignment
