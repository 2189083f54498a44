import FormulaMarkup.Symbol.Appearance

/-!
# What can go wrong

The causes for which a formula cannot be built, read or drawn, and the wording of each.
-/

namespace FormulaMarkup

/-- How an operator stands to its operands. -/
inductive Arity where
  | unary
  | binary
  | infixOp
deriving DecidableEq

def Arity.phrase : Arity → String
  | .unary => "a unary operator"
  | .binary => "a binary operator"
  | .infixOp => "an infix operator"

inductive Fault where
  /-- an operation was built with an operator of another kind -/
  | wrongOperator (arity : Arity) (text : String)
  /-- a scripted formula was built without a script -/
  | missingScript
  /-- a token was given back while another one was waiting -/
  | alreadyPending
  /-- the symbol's role has no drawing as an operator of this arity -/
  | notDrawable (symbol : Symbol) (arity : Arity) (role : Role)
  | outOfBounds (length index : Nat)
  /-- a text refused a character that was written to it -/
  | textRefused
  /-- a reader was given fewer steps than its input needs -/
  | outOfFuel
deriving DecidableEq

def Fault.message : Fault → String
  | .wrongOperator arity text => Text.quoted text ++ " is not " ++ arity.phrase
  | .missingScript => "a scripted expression needs at least one script"
  | .alreadyPending => "only one token can be pushed back"
  | .notDrawable symbol arity role =>
    symbol.name ++ " can't be rendered as " ++ arity.phrase ++ " (" ++ role.name ++ ")"
  | .outOfBounds length index =>
    "index out of bounds: the len is " ++ toString length ++ " but the index is " ++ toString index
  | .textRefused => "writing to a string can't fail: Error"
  | .outOfFuel => "the reader ran out of steps"

end FormulaMarkup
