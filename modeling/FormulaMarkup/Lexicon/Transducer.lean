import FormulaMarkup.Lexicon.Basic

/-!
# Keys streamed through an automaton

A lexicon that holds its keys in byte order, each with the index of its value, so that equal
values are stored once. A query streams the keys that an automaton accepts, namely those at the
front of the text; they come in byte order, so each is longer than the one before it. A stream may
leave out the empty key, which is looked up on its own. What the lexicon asks of the map from keys
to indices is said by `KeyMap`, and `KeyList` is a plain map of this kind.
-/

namespace FormulaMarkup

/-- Reads the bytes of a key one by one, and accepts it or not. -/
structure Automaton (σ : Type) where
  start : σ
  accepts : σ → Bool
  /-- Is a state that accepts still in reach? -/
  mayAccept : σ → Bool
  advance : σ → UInt8 → σ

namespace Automaton

variable {σ : Type}

/-- Is the key accepted from a state on? -/
def acceptsFrom (automaton : Automaton σ) (state : σ) (key : List UInt8) : Bool :=
  automaton.accepts (key.foldl automaton.advance state)

/-- Accepts the fronts of a text. The state counts the bytes read, until one differs. -/
def frontOf (text : List UInt8) : Automaton (Option Nat) where
  start := some 0
  accepts := Option.isSome
  mayAccept := Option.isSome
  advance
    | some count, byte => if text[count]? = some byte then some (count + 1) else none
    | none, _ => none

end Automaton

/-- Maps from byte strings to numbers that are built from ascending keys. -/
class KeyMap (μ : Type) where
  Builder : Type
  start : Builder
  /-- Refuses a key that does not come after all before it. -/
  insert? : Builder → List UInt8 → Nat → Option Builder
  finish : Builder → μ
  get? : μ → List UInt8 → Option Nat
  /-- The accepted keys in ascending order. -/
  search : {σ : Type} → μ → Automaton σ → List (List UInt8 × Nat)

/-- A map from keys to the indices of their values. -/
structure Indexed (μ α : Type) where
  map : μ
  values : List α

namespace Indexed

variable {μ α : Type} [KeyMap μ]

/-- The index of a value. A new value gets the next index. -/
def number [DecidableEq α] (indices : List (α × Nat)) (value : α) : Nat × List (α × Nat) :=
  match indices.lookup value with
  | some index => (index, indices)
  | none => (indices.length, (value, indices.length) :: indices)

/-- Adds entries one by one, with the indices that were given to values so far. -/
def extend? [DecidableEq α] (builder : KeyMap.Builder μ) (indices : List (α × Nat)) :
    Entries α → Option (KeyMap.Builder μ × List (α × Nat))
  | [] => some (builder, indices)
  | (key, value) :: entries =>
    let (index, indices) := number indices value
    match KeyMap.insert? builder (Utf8.bytes key.toList) index with
    | some builder => extend? builder indices entries
    | none => none

/-- The values in the order of their indices. -/
def valuesOf (indices : List (α × Nat)) : List α :=
  (indices.mergeSort fun a b ↦ decide (a.2 ≤ b.2)).map (·.1)

/-- May the first entry stand before the second? -/
def inOrder (a b : String × α) : Bool :=
  decide (Utf8.bytes a.1.toList ≤ Utf8.bytes b.1.toList)

/-- Sorts the entries by the bytes of their keys, keeps the last of each key, and adds them. -/
def ofEntries? [DecidableEq α] (entries : Entries α) : Option (Indexed μ α) := do
  let (builder, indices) ← extend? KeyMap.start [] (keepLast (entries.mergeSort inOrder))
  return ⟨KeyMap.finish builder, valuesOf indices⟩

/-- The last of the streamed keys, and the empty one if no other is streamed. -/
def longestIndex? (map : μ) (text : List UInt8) : Option (Hit Nat) :=
  (KeyMap.search map (.frontOf text)).foldl
    (fun longest entry ↦ if entry.1.isEmpty then longest else some ⟨entry.1.length, entry.2⟩)
    ((KeyMap.get? map []).map fun index ↦ ⟨0, index⟩)

def longest? (lexicon : Indexed μ α) (text : List Char) : Option (Hit α) := do
  let hit ← longestIndex? lexicon.map (Utf8.bytes text)
  let value ← lexicon.values[hit.value]?
  return ⟨hit.size, value⟩

instance : Lexicon (Indexed μ α) α := ⟨longest?⟩

end Indexed

/-- Ascending keys with their numbers. -/
structure KeyList where
  entries : List (List UInt8 × Nat)

namespace KeyList

/-- Puts a key behind keys given in reverse, and refuses one that is not larger than all. -/
def push? (reversed : List (List UInt8 × Nat)) (key : List UInt8) (index : Nat) :
    Option (List (List UInt8 × Nat)) :=
  match reversed with
  | [] => some [(key, index)]
  | (last, _) :: _ => if last < key then some ((key, index) :: reversed) else none

def get? (map : KeyList) (key : List UInt8) : Option Nat := map.entries.lookup key

/-- Reads a key as long as it may be accepted. -/
def passes {σ : Type} (automaton : Automaton σ) (state : σ) : List UInt8 → Bool
  | [] => automaton.accepts state
  | byte :: key => automaton.mayAccept state && passes automaton (automaton.advance state byte) key

/-- The accepted keys without the empty one. -/
def search {σ : Type} (map : KeyList) (automaton : Automaton σ) : List (List UInt8 × Nat) :=
  map.entries.filter fun entry ↦ !entry.1.isEmpty && passes automaton automaton.start entry.1

instance : KeyMap KeyList where
  Builder := List (List UInt8 × Nat)
  start := []
  insert? := push?
  finish reversed := ⟨reversed.reverse⟩
  get? := get?
  search := search

end KeyList

abbrev Transducer (α : Type) := Indexed KeyList α

def Transducer.ofEntries? {α : Type} [DecidableEq α] (entries : Entries α) :
    Option (Transducer α) :=
  Indexed.ofEntries? entries

end FormulaMarkup
