import FormulaMarkup.Lexicon.Basic

/-!
# Keys in a tree of bytes

A lexicon that branches on the bytes of its keys. A query walks along the text byte by byte, into
smaller and smaller parts of the tree, remembers the last key on its way, and stops where no key
goes on. What it asks of the tree is said by `KeyTree`, and `ByteTree` is a plain tree of this kind.
-/

namespace FormulaMarkup

/-- Trees that hold values under byte strings. -/
class KeyTree (τ : Type) (α : outParam Type) where
  /-- Of entries with one key the last stays. -/
  collect : List (List UInt8 × α) → τ
  get? : τ → List UInt8 → Option α
  /-- The part of the keys that start with a front; the keys in it stay whole. -/
  subtree : τ → List UInt8 → τ
  isEmpty : τ → Bool

/-- A tree as a lexicon. -/
structure TreeLexicon (τ : Type) where
  tree : τ

namespace TreeLexicon

variable {τ α : Type} [KeyTree τ α]

def ofEntries (entries : Entries α) : TreeLexicon τ :=
  ⟨KeyTree.collect (entries.map fun entry ↦ (Utf8.bytes entry.1.toList, entry.2))⟩

/-- Walks on behind a front of the text, in the part of the tree below this front and with the
longest key that was found up to there. -/
def walk (part : τ) (found : Option (Hit α)) (front : List UInt8) : List UInt8 → Option (Hit α)
  | [] => found
  | byte :: rest =>
    let front := front ++ [byte]
    let part := KeyTree.subtree part front
    if KeyTree.isEmpty part then found
    else
      match KeyTree.get? part front with
      | some value => walk part (some ⟨front.length, value⟩) front rest
      | none => walk part found front rest

def longest? (lexicon : TreeLexicon τ) (text : List Char) : Option (Hit α) :=
  walk (KeyTree.subtree lexicon.tree []) ((KeyTree.get? lexicon.tree []).map fun value ↦ ⟨0, value⟩)
    [] (Utf8.bytes text)

instance : Lexicon (TreeLexicon τ) α := ⟨longest?⟩

end TreeLexicon

/-- The value of the key that ends here, and the longer keys by their next byte. -/
inductive ByteTree (α : Type) where
  | node (value : Option α) (branches : List (UInt8 × ByteTree α))

namespace ByteTree

variable {α : Type}

def empty : ByteTree α := node none []

/-- The branch of a byte. -/
def branch? (byte : UInt8) : List (UInt8 × ByteTree α) → Option (ByteTree α)
  | [] => none
  | (label, tree) :: branches => if label = byte then some tree else branch? byte branches

/-- Changes the branch of a byte, which starts empty. -/
def change (byte : UInt8) (f : ByteTree α → ByteTree α) :
    List (UInt8 × ByteTree α) → List (UInt8 × ByteTree α)
  | [] => [(byte, f empty)]
  | (label, tree) :: branches =>
    if label = byte then (label, f tree) :: branches else (label, tree) :: change byte f branches

def insert (value : α) : List UInt8 → ByteTree α → ByteTree α
  | [], node _ branches => node (some value) branches
  | byte :: key, node found branches => node found (change byte (insert value key) branches)

def ofKeys (entries : List (List UInt8 × α)) : ByteTree α :=
  entries.foldl (fun tree entry ↦ tree.insert entry.2 entry.1) empty

def get? : ByteTree α → List UInt8 → Option α
  | node value _, [] => value
  | node _ branches, byte :: key =>
    match branch? byte branches with
    | some tree => get? tree key
    | none => none

/-- Keeps one path and what stands below its end. -/
def subtree : ByteTree α → List UInt8 → ByteTree α
  | tree, [] => tree
  | node _ branches, byte :: front =>
    match branch? byte branches with
    | some tree => node none [(byte, subtree tree front)]
    | none => empty

mutual

def isEmpty : ByteTree α → Bool
  | node value branches => value.isNone && areEmpty branches

def areEmpty : List (UInt8 × ByteTree α) → Bool
  | [] => true
  | (_, tree) :: branches => isEmpty tree && areEmpty branches

end

instance : KeyTree (ByteTree α) α := ⟨ofKeys, get?, subtree, isEmpty⟩

end ByteTree

abbrev Trie (α : Type) := TreeLexicon (ByteTree α)

def Trie.ofEntries {α : Type} (entries : Entries α) : Trie α := TreeLexicon.ofEntries entries

end FormulaMarkup
