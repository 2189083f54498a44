import FormulaMarkup.Proofs.Lexicon.Bucketed
import FormulaMarkup.Proofs.Lexicon.Sorted
import FormulaMarkup.Proofs.Lexicon.Transducer
import FormulaMarkup.Proofs.Lexicon.Trie

/-!
# All lexicons agree

Each data structure answers as its entries mean, so any two of them give the same answers. For the
buckets this holds with every way of hashing; for a tree of bytes and for indexed values it holds
with every lawful tree and every lawful map under them.
-/

namespace FormulaMarkup.Lexicon

variable {α : Type}

/-- Buckets and sorted keys answer with the longest key and its last value, hence alike, and a hit
ends between two characters. -/
theorem means_bucketed_and_sorted (digest : String → UInt64) (entries : Entries α) :
    Means (Bucketed.ofEntries entries : Bucketed digest α) entries ∧
      Means (Sorted.ofEntries entries) entries ∧
      ∀ text : List Char,
        longest? (Bucketed.ofEntries entries : Bucketed digest α) text =
            longest? (Sorted.ofEntries entries) text ∧
          value? (Bucketed.ofEntries entries : Bucketed digest α) text =
            value? (Sorted.ofEntries entries) text ∧
          ∀ hit, longest? (Sorted.ofEntries entries) text = some hit →
            ∃ front rest, text = front ++ rest ∧ hit.size = Utf8.size front := by
  have hbucketed := Bucketed.means_ofEntries digest entries
  have hsorted := Sorted.means_ofEntries entries
  refine ⟨hbucketed, hsorted, fun text ↦ ?_⟩
  have heq := hbucketed.longest?_eq hsorted text
  refine ⟨heq, ?_, fun hit ↦ hsorted.exists_front⟩
  unfold value?
  rw [heq]

/-- A walk down any lawful tree, and values indexed by any lawful map, answer with the longest key
and its last value. The map is always built, and each index in it is that of the right value. -/
theorem means_tree_and_indexed (τ μ : Type) [KeyTree τ α] [LawfulKeyTree τ] [KeyMap μ]
    [LawfulKeyMap μ] [DecidableEq α] (entries : Entries α) :
    Means (TreeLexicon.ofEntries entries : TreeLexicon τ) entries ∧
      ∃ lexicon : Indexed μ α, Indexed.ofEntries? entries = some lexicon ∧
        Means lexicon entries ∧
        ∀ key index, KeyMap.get? lexicon.map key = some index →
          ∃ value, lexicon.values[index]? = some value ∧ IsLast entries.keyed key value := by
  refine ⟨TreeLexicon.means_ofEntries τ entries, ?_⟩
  obtain ⟨lexicon, hmade, hholds⟩ := Indexed.exists_holds_ofEntries? μ entries
  exact ⟨lexicon, hmade, hholds.means, fun _ _ ↦ hholds.exists_getElem?_values⟩

/-- Keys that go on one another, one of them twice, with the empty key and one of two bytes. -/
def overlapping : Entries Nat :=
  [("t", 0), ("tan", 1), ("tanh", 2), ("", 3), ("ü", 1), ("tan", 4)]

theorem means_tree_and_indexed_overlapping :
    LawfulKeyTree (ByteTree Nat) ∧ LawfulKeyMap KeyList ∧
      Means (TreeLexicon.ofEntries overlapping : TreeLexicon (ByteTree Nat)) overlapping ∧
      ∃ lexicon : Indexed KeyList Nat, Indexed.ofEntries? overlapping = some lexicon ∧
        Means lexicon overlapping ∧
        ∀ key index, KeyMap.get? lexicon.map key = some index →
          ∃ value, lexicon.values[index]? = some value ∧ IsLast overlapping.keyed key value :=
  ⟨inferInstance, inferInstance, means_tree_and_indexed (ByteTree Nat) KeyList overlapping⟩

end FormulaMarkup.Lexicon
