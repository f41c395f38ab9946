/-
TokenAlignment/Corpus/Item.lean

The items of a corpus.

An item that is rejected before scoring, because its file cannot be read or its
record makes no document, carries the rejection in place of a document, so that
a run counts it like any other.
-/
import TokenAlignment.Document

namespace TokenAlignment

/-- Why an item of a corpus is no document. -/
inductive Rejection where
  | skipped (reason : String)
  | failed (reason : String)
  deriving DecidableEq, Repr

/-- A document of a corpus, or the reason why it is none; labelled by its path
or line. -/
structure CorpusItem where
  label : String
  document : Except Rejection Document

namespace CorpusItem

/-- The item of a content in a known language. -/
def ofContent (label : String) (lang : Language) (content : List UInt8) : CorpusItem where
  label := label
  document := (Document.ofContent? lang content).mapError fun e => .skipped e.message

end CorpusItem

end TokenAlignment
