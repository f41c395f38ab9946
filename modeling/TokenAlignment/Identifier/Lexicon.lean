/-
TokenAlignment/Identifier/Lexicon.lean

Known words with their costs, and the cheapest way to write a word as a
sequence of them.

A frequent word is cheap.  The words are ranked, and a word of rank r among n
costs as much as a Zipf distribution makes it rare, `log (r · log n)`; the costs
may be taken in any type with a sum and an order.

A table holds, for each beginning of the word, its cheapest segmentation:

    best stop  =  the least  best start + cost (start, stop)  over known words

and of equally cheap ones the one whose last word starts first.
-/
import Std.Data.HashMap
import TokenAlignment.Identifier.CommonWords
import TokenAlignment.Text.Blank

namespace TokenAlignment

/-- The costs of the known words, and the length of the longest. -/
structure Lexicon (κ : Type) where
  costs : Std.HashMap String κ
  longest : Nat

namespace Lexicon

/-! ### Building -/

/-- A word that a user adds, brought to lower case; refused unless it has at
least two letters, all of them ASCII. -/
def normalize? (word : List Char) : Option (List Char) :=
  let lower := (Text.trim word).map Char.toLower
  if 1 < lower.length ∧ lower.all Char.isLower then some lower else none

/-- Every word by rank: the common words, then those that a user adds. -/
def ranked (extra : List (List Char)) : List (List Char) :=
  commonWords.map String.toList ++ extra.filterMap normalize?

/-- Adds a word with the rank `rank`; a word known already keeps its cost. -/
def addWord {κ : Type} (cost : Nat → κ) (lex : Lexicon κ) (word : List Char) (rank : Nat) :
    Lexicon κ :=
  ⟨lex.costs.insertIfNew (String.ofList word) (cost rank), max lex.longest word.length⟩

/-- The lexicon of ranked words, where `cost n r` is the cost of rank `r` (from
zero) among `n` words. -/
def ofRanked {κ : Type} (cost : Nat → Nat → κ) (words : List (List Char)) : Lexicon κ :=
  words.zipIdx.foldl (fun lex entry => lex.addWord (cost words.length) entry.1 entry.2) ⟨∅, 0⟩

/-- The lexicon of the common words and those that a user adds. -/
def withWords {κ : Type} (cost : Nat → Nat → κ) (extra : List (List Char)) : Lexicon κ :=
  ofRanked cost (ranked extra)

/-- The cost of a rank under a Zipf distribution over the ranks. -/
def zipfCost (count rank : Nat) : Float :=
  Float.log (Float.ofNat (rank + 1) * Float.log (Float.ofNat (max count 2)))

/-- Whether the word is known. -/
def isKnown {κ : Type} (lex : Lexicon κ) (word : List Char) : Bool :=
  lex.costs.contains (String.ofList word)

/-! ### Segmenting -/

/-- A beginning of a word as known words: the cost, and the range of each word,
the last first. -/
structure Path (κ : Type) where
  cost : κ
  ranges : List (Nat × Nat)

variable {κ : Type} [Add κ] [LT κ] [DecidableLT κ] [OfNat κ 0]

/-- The path that goes on from one in the table with the known word at
`start ≤ i < stop`. -/
def extend? (lex : Lexicon κ) (word : Array Char) (table : Array (Option (Path κ)))
    (stop start : Nat) : Option (Path κ) :=
  (table[start]?.join).bind fun path =>
    (lex.costs[String.ofList (word.extract start stop).toList]?).map fun cost =>
      ⟨path.cost + cost, (start, stop) :: path.ranges⟩

/-- The cheaper of two paths, the first if neither is. -/
def cheaper (best : Option (Path κ)) (other : Option (Path κ)) : Option (Path κ) :=
  match best, other with
  | none, other => other
  | best, none => best
  | some b, some o => if o.cost < b.cost then some o else some b

/-- The cheapest path to `stop`, from the table of those to earlier offsets.  No
known word is longer than the longest, so the look back ends there. -/
def bestTo (lex : Lexicon κ) (word : Array Char) (table : Array (Option (Path κ)))
    (stop : Nat) : Option (Path κ) :=
  (List.range' (stop - lex.longest) (min stop lex.longest)).foldl
    (fun best start => cheaper best (lex.extend? word table stop start)) none

/-- The cheapest path to every offset of the word. -/
def paths (lex : Lexicon κ) (word : Array Char) : Array (Option (Path κ)) :=
  (List.range' 1 word.size).foldl (fun table stop => table.push (lex.bestTo word table stop))
    #[some ⟨0, []⟩]

/-- The ranges of the cheapest known words that make up the word, in order. -/
def segment? (lex : Lexicon κ) (word : List Char) : Option (List (Nat × Nat)) :=
  ((lex.paths word.toArray)[word.length]?.join).map fun path => path.ranges.reverse

end Lexicon

end TokenAlignment
