import FormulaMarkup.Symbol.Entry

/-!
# Tokens

A token is a piece of the input together with its meaning: an entry and the text it was read from.
The text of a quotation is held without its delimiters.
-/

namespace FormulaMarkup

structure Token extends Entry where
  text : String
deriving DecidableEq

namespace Token

def ofEntry (text : String) (entry : Entry) : Token := ⟨entry, text⟩

/-- A token that stands for no symbol. -/
def plain (kind : TokenKind) (text : String) : Token := ofEntry text { symbol := none, kind }

def endOfInput : Token := plain .endOfInput ""

/-- Is the token this symbol between two operands? -/
def isInfix (token : Token) (symbol : Symbol) : Bool :=
  token.kind = .infixOp && token.symbol = some symbol

end Token

end FormulaMarkup
