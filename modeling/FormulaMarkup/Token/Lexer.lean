import FormulaMarkup.Fault
import FormulaMarkup.Lexicon.Trie
import FormulaMarkup.Token.Scan

/-!
# Reading tokens

A `Lexer` is a place in the input: the characters ahead and at most one token that was given back.
`next` always answers, with the end of the input once nothing is left; `next?` answers `none` there.
An entry may give the kind `endOfInput` to a spelling, which then ends a run of tokens early.
-/

namespace FormulaMarkup

structure Lexer (μ : Type) where
  lexicon : μ
  rest : List Char
  pending : Option Token := none

namespace Lexer

variable {μ : Type}

def ofString (lexicon : μ) (input : String) : Lexer μ := { lexicon, rest := input.toList }

/-- The input ahead. A token that was given back is not part of it. -/
def remaining (lexer : Lexer μ) : String := String.ofList lexer.rest

/-- No more tokens than this follow: each is given back or takes up a character. -/
def size (lexer : Lexer μ) : Nat := lexer.rest.length + lexer.pending.toList.length

/-- The least and the largest number of tokens that may follow, judged by the bytes ahead. -/
def sizeBounds (lexer : Lexer μ) : Nat × Nat :=
  let waiting := lexer.pending.toList.length
  (waiting, Utf8.size lexer.rest + waiting)

/-- Gives a token back. The end of the input need not be kept, since it comes again anyway. -/
def pushBack (lexer : Lexer μ) (token : Token) : Except Fault (Lexer μ) :=
  if token.kind = .endOfInput then .ok lexer
  else
    match lexer.pending with
    | some _ => .error .alreadyPending
    | none => .ok { lexer with pending := some token }

variable [Lexicon μ Entry]

def next (lexer : Lexer μ) : Token × Lexer μ :=
  match lexer.pending with
  | some token => (token, { lexer with pending := none })
  | none =>
    let (token, rest) := Token.scan lexer.lexicon (lexer.rest.dropWhile Unicode.isBlank)
    (token, { lexer with rest })

/-- The next token, or none if it has the kind `endOfInput`. The lexer moves on in both cases. -/
def next? (lexer : Lexer μ) : Option Token × Lexer μ :=
  let (token, lexer) := lexer.next
  (if token.kind = .endOfInput then none else some token, lexer)

/-- At most `count` tokens up to the first end of input. -/
def take (lexer : Lexer μ) : Nat → List Token × Lexer μ
  | 0 => ([], lexer)
  | count + 1 =>
    match lexer.next? with
    | (some token, lexer) =>
      let (tokens, lexer) := take lexer count
      (token :: tokens, lexer)
    | (none, lexer) => ([], lexer)

/-- All tokens up to the first end of input, and the lexer behind it. -/
def drain (lexer : Lexer μ) : List Token × Lexer μ := lexer.take (lexer.size + 1)

def tokens (lexer : Lexer μ) : List Token := lexer.drain.1

end Lexer

namespace Symbol

/-- The standard spellings in a tree of the kind `τ`, ready for queries. -/
def standardIn (τ : Type) [KeyTree τ Entry] : TreeLexicon τ := .ofEntries table

def standard : Trie Entry := standardIn (ByteTree Entry)

/-- The entry of a standard spelling. -/
def lookupIn? (τ : Type) [KeyTree τ Entry] (spelling : String) : Option Entry :=
  Lexicon.value? (standardIn τ) spelling.toList

def lookup? (spelling : String) : Option Entry := lookupIn? (ByteTree Entry) spelling

end Symbol

end FormulaMarkup
