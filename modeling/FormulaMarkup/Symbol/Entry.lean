import FormulaMarkup.Symbol.Basic

/-!
# What a spelling means

An `Entry` tells what a spelling stands for, how it takes part in the grammar, and whether an
operand is converted when the operator is applied.
-/

namespace FormulaMarkup

/-- How a token takes part in the grammar. -/
inductive TokenKind where
  /-- a symbol that stands for itself -/
  | symbol
  | text
  | number
  /-- a character that starts no known spelling -/
  | identifier
  /-- an operator before its operand -/
  | unary
  /-- an operator before its two operands -/
  | binary
  /-- an operator between its operands: a fraction bar or the mark of a script -/
  | infixOp
  | opening
  | closing
  /-- a bracket that can open or close -/
  | bar
  | endOfInput
deriving DecidableEq

/-- What is made of an operand beyond the formula that it was read as. -/
inductive Conversion where
  | toColor
deriving DecidableEq

/-- The conversions of an operator's operands. -/
structure Conversions where
  operand : Option Conversion := none
  first : Option Conversion := none
  second : Option Conversion := none
deriving DecidableEq

def Conversions.firstToColor : Conversions := { first := some .toColor }

/-- The meaning of a spelling. A bracket without a symbol groups its body and is not drawn. -/
structure Entry where
  symbol : Option Symbol
  kind : TokenKind
  conversions : Option Conversions := none
deriving DecidableEq

end FormulaMarkup
