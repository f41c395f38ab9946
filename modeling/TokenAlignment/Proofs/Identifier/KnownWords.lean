/-
TokenAlignment/Proofs/Identifier/KnownWords.lean

What a lexicon knows.

A lexicon is filled word by word, and a word that is there already keeps its cost.  So
its words are those of the ranking, each at the cost of its first place,

    costs[w]  =  cost (the first rank of w)

and nothing depends on how the table of costs is stored.
-/
import TokenAlignment.Identifier.Lexicon
import Mathlib.Data.List.Basic

namespace TokenAlignment

namespace Lexicon

variable {κ : Type}

theorem costs_addWord (cost : Nat → κ) (lex : Lexicon κ) (word : List Char) (rank : Nat)
    (w : List Char) :
    (lex.addWord cost word rank).costs[String.ofList w]?
      = lex.costs[String.ofList w]?.or (if word = w then some (cost rank) else none) := by
  rw [addWord, Std.HashMap.getElem?_insertIfNew]
  by_cases hword : word = w
  · subst hword
    by_cases hmem : String.ofList word ∈ lex.costs
    · rw [if_neg (by simp [hmem]), Std.HashMap.getElem?_eq_some_getElem hmem]
      rfl
    · rw [if_pos ⟨beq_self_eq_true _, hmem⟩, Std.HashMap.getElem?_eq_none hmem, if_pos rfl]
      rfl
  · have hkey : ¬ (String.ofList word == String.ofList w) = true := by
      rwa [beq_iff_eq, String.ofList_inj]
    rw [if_neg (fun h => hkey h.1), if_neg hword, Option.or_none]

/-- The costs after some more words: first those that were there, then the first place. -/
theorem costs_foldl_addWord (cost : Nat → κ) (lex : Lexicon κ)
    (entries : List (List Char × Nat)) (w : List Char) :
    (entries.foldl (fun lex entry => lex.addWord cost entry.1 entry.2) lex).costs[
        String.ofList w]?
      = lex.costs[String.ofList w]?.or
          ((entries.find? fun entry => entry.1 = w).map fun entry => cost entry.2) := by
  induction entries generalizing lex with
  | nil => simp
  | cons entry entries ih =>
      rw [List.foldl_cons, ih, costs_addWord, Option.or_assoc, List.find?_cons]
      by_cases hword : entry.1 = w <;> simp [hword]

/-- **A word has the cost of its first rank**, and words without a rank have none. -/
theorem costs_ofRanked (cost : Nat → Nat → κ) (words : List (List Char)) (w : List Char) :
    (ofRanked cost words).costs[String.ofList w]?
      = (words.zipIdx.find? fun entry => entry.1 = w).map
          fun entry => cost words.length entry.2 := by
  rw [ofRanked, costs_foldl_addWord]
  simp

/-- **The known words are the ranked ones.** -/
theorem isKnown_ofRanked (cost : Nat → Nat → κ) (words : List (List Char)) (w : List Char) :
    (ofRanked cost words).isKnown w = true ↔ w ∈ words := by
  rw [isKnown, Std.HashMap.contains_eq_isSome_getElem?, costs_ofRanked, Option.isSome_map,
    List.find?_isSome]
  constructor
  · rintro ⟨⟨word, rank⟩, hentry, hword⟩
    rw [← of_decide_eq_true hword]
    exact List.mem_of_getElem? (List.mem_zipIdx_iff_getElem?.mp hentry)
  · intro hmem
    obtain ⟨rank, hrank, rfl⟩ := List.getElem_of_mem hmem
    exact ⟨(words[rank], rank), List.mem_zipIdx_iff_getElem?.mpr (by simp [hrank]), by simp⟩

end Lexicon

end TokenAlignment
