import FormulaMarkup.Text.Utf8

/-!
# Lexicons

A lexicon finds the longest of its keys at the front of a text. It is made from a list of entries,
of which a later one replaces an earlier one of the same key. `Entries.longest?` is this meaning
said on the list itself; the lexicons of the other modules are data structures for it.
-/

namespace FormulaMarkup

/-- A key that was found: how many bytes it covers, and its value. -/
structure Hit (α : Type) where
  size : Nat
  value : α
deriving DecidableEq

/-- What answers longest key queries. -/
class Lexicon (μ : Type) (α : outParam Type) where
  longest? : μ → List Char → Option (Hit α)

/-- The value of the key that is the whole text. -/
def Lexicon.value? {μ α : Type} [Lexicon μ α] (lexicon : μ) (text : List Char) : Option α :=
  match longest? lexicon text with
  | some hit => if hit.size = Utf8.size text then some hit.value else none
  | none => none

/-- Keys with their values in the order in which they were given. -/
abbrev Entries (α : Type) := List (String × α)

namespace Entries

variable {α : Type}

/-- The last value given for a key. -/
def last? (entries : Entries α) (key : List Char) : Option α :=
  (entries.reverse.find? fun entry ↦ entry.1.toList = key).map (·.2)

/-- The longest of the first `count` fronts of a text that is a key. -/
def longestWithin? (entries : Entries α) (text : List Char) : Nat → Option (Hit α)
  | 0 => (entries.last? []).map fun value ↦ ⟨0, value⟩
  | count + 1 =>
    match entries.last? (text.take (count + 1)) with
    | some value => some ⟨Utf8.size (text.take (count + 1)), value⟩
    | none => longestWithin? entries text count

/-- The longest key at the front of a text, with the last value given for it. -/
def longest? (entries : Entries α) (text : List Char) : Option (Hit α) :=
  entries.longestWithin? text text.length

instance : Lexicon (Entries α) α := ⟨longest?⟩

end Entries

/-- Of neighbours with one key the last stays. -/
def keepLast {κ α : Type} [DecidableEq κ] : List (κ × α) → List (κ × α)
  | [] => []
  | [entry] => [entry]
  | entry :: next :: rest =>
    if entry.1 = next.1 then keepLast (next :: rest) else entry :: keepLast (next :: rest)

end FormulaMarkup
