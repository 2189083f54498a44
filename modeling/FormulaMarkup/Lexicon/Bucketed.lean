import FormulaMarkup.Lexicon.Basic
import Std.Data.HashMap

/-!
# Keys in buckets by size

A lexicon that keeps one hash table for each number of bytes that a key can have. A query probes
the tables from the largest size that could match down to the empty key. The way in which keys are
hashed is a parameter, since no answer depends on it.
-/

namespace FormulaMarkup

/-- A key under a given way of hashing. -/
structure HashedKey (digest : String → UInt64) where
  text : String
deriving DecidableEq

instance (digest : String → UInt64) : Hashable (HashedKey digest) := ⟨fun key ↦ digest key.text⟩

/-- Entry `n` of `buckets` has the keys of `n` bytes. -/
structure Bucketed (digest : String → UInt64) (α : Type) where
  buckets : Array (Std.HashMap (HashedKey digest) α)

namespace Bucketed

variable {digest : String → UInt64} {α : Type}

def empty : Bucketed digest α := ⟨#[]⟩

/-- Adds buckets up to the size of the key where they are missing. -/
def insert (lexicon : Bucketed digest α) (key : String) (value : α) : Bucketed digest α :=
  let missing := key.utf8ByteSize + 1 - lexicon.buckets.size
  let buckets := lexicon.buckets ++ Array.replicate missing ∅
  ⟨buckets.modify key.utf8ByteSize (·.insert ⟨key⟩ value)⟩

def ofEntries (entries : Entries α) : Bucketed digest α :=
  entries.foldl (fun lexicon entry ↦ lexicon.insert entry.1 entry.2) empty

/-- The number of bytes of the longest key, `0` if there is none. -/
def maxKeySize (lexicon : Bucketed digest α) : Nat := lexicon.buckets.size - 1

/-- The key that is the front of `size` bytes of a text. -/
def keyOfSize? (lexicon : Bucketed digest α) (text : List Char) (size : Nat) : Option (Hit α) := do
  let front ← Utf8.take? size text
  let bucket ← lexicon.buckets[size]?
  let value ← bucket[(⟨String.ofList front⟩ : HashedKey digest)]?
  return ⟨size, value⟩

/-- The longest key at the front of a text with at most the given number of bytes. -/
def longestUpTo? (lexicon : Bucketed digest α) (text : List Char) : Nat → Option (Hit α)
  | 0 => lexicon.keyOfSize? text 0
  | size + 1 =>
    match lexicon.keyOfSize? text (size + 1) with
    | some hit => some hit
    | none => longestUpTo? lexicon text size

def longest? (lexicon : Bucketed digest α) (text : List Char) : Option (Hit α) :=
  lexicon.longestUpTo? text (min (Utf8.size text) lexicon.maxKeySize)

instance : Lexicon (Bucketed digest α) α := ⟨longest?⟩

end Bucketed

/-- Hashes the bytes of a text one by one: each is mixed in by exclusive or, then all is multiplied
by a fixed prime. -/
def multiplicativeDigest (text : String) : UInt64 :=
  (Utf8.bytes text.toList).foldl (fun digest byte ↦ (digest ^^^ byte.toUInt64) * 0x100000001b3)
    0xcbf29ce484222325

end FormulaMarkup
