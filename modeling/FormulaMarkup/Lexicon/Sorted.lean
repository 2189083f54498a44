import FormulaMarkup.Lexicon.Basic

/-!
# Keys from longest to shortest

A lexicon that is a list of entries sorted by size, so that the first key that fits is the longest.
It is cheap to make and serves small tables.
-/

namespace FormulaMarkup

/-- Entries without two of one key, the longer keys first and keys of one size by their bytes. -/
structure Sorted (α : Type) where
  entries : Entries α

namespace Sorted

variable {α : Type}

/-- May the first entry stand before the second? -/
def inOrder (a b : String × α) : Bool :=
  if a.1.utf8ByteSize = b.1.utf8ByteSize then
    decide (Utf8.bytes a.1.toList ≤ Utf8.bytes b.1.toList)
  else decide (b.1.utf8ByteSize < a.1.utf8ByteSize)

/-- The sort is stable, so among entries of one key the last given comes last. -/
def ofEntries (entries : Entries α) : Sorted α := ⟨keepLast (entries.mergeSort inOrder)⟩

def keys (lexicon : Sorted α) : List String := lexicon.entries.map (·.1)

def longest? (lexicon : Sorted α) (text : List Char) : Option (Hit α) :=
  lexicon.entries.findSome? fun entry ↦
    if entry.1.toList.isPrefixOf text then some ⟨entry.1.utf8ByteSize, entry.2⟩ else none

instance : Lexicon (Sorted α) α := ⟨longest?⟩

end Sorted

end FormulaMarkup
