import FormulaMarkup.Formula.Matrix
import FormulaMarkup.Formula.Source
import FormulaMarkup.Token.Lexer

/-!
# Reading a formula

The grammar, over tokens:

* a simple formula is a leaf, a bracketed expression, or an operator before one or two simple
  formulas;
* a scripted formula is a simple one with an optional `_` script and then an optional `^` script;
* an item is a scripted formula, or two of them with a `/` between;
* an expression is a run of items.

Reading never refuses an input. A missing operand is an empty identifier, an operator mark that
stands alone is a symbol, a script or a denominator that does not follow is dropped, and a bar
without its partner is a symbol before what follows it. While a bracket is open a closing bracket
ends the expression; at the top it is a symbol.

The readers take one token at a time and give back the one that they have no use for. Those of one
level are made from a reader of the level below, and the two that call each other, `expression` and
`simple`, are given a number of steps, of which `Lexer.read` gives as many as any input can need.
-/

namespace FormulaMarkup

/-- Reads at the place of a lexer, which moves on. -/
abbrev Reader (μ : Type) := StateT (Lexer μ) (Except Fault)

namespace Reader

variable {μ : Type}

def pushBack (token : Token) : Reader μ Unit := fun lexer ↦
  match lexer.pushBack token with
  | .ok lexer => .ok ((), lexer)
  | .error fault => .error fault

variable [Lexicon μ Entry]

def next : Reader μ Token := fun lexer ↦ .ok lexer.next

/-- Reads the scripts of a base. A `^` script follows a `_` script only if that one is there. -/
def scripts (simple : Reader μ (Option Formula)) : Reader μ (Option Formula × Option Formula) := do
  let token ← next
  if token.isInfix .sub then
    let some lower ← simple | return (none, none)
    let token ← next
    if token.isInfix .sup then return (some lower, ← simple)
    pushBack token
    return (some lower, none)
  else if token.isInfix .sup then return (none, ← simple)
  else
    pushBack token
    return (none, none)

/-- Reads a simple formula and its scripts. -/
def scripted (simple : Reader μ (Option Formula)) : Reader μ (Option Formula) := do
  let some base ← simple | return none
  match ← scripts simple with
  | (none, none) => return some base
  | (lower, upper) =>
    return some (← Formula.ofScripts base (lower.map (·.asOperand)) (upper.map (·.asOperand)))

/-- Reads an operand, which is an empty identifier if it is missing. -/
def operand (simple : Reader μ (Option Formula)) : Reader μ Formula := do
  match ← simple with
  | some formula => return formula.asOperand
  | none => return .identifier ""

/-- Reads the operand of a unary operator. -/
def unary (operator : Token) (simple : Reader μ (Option Formula)) : Reader μ Formula := do
  let only ← operand simple
  let conversions := operator.conversions.getD {}
  Formula.ofUnary operator.mark (only.converted conversions.operand)

/-- Reads the operands of a binary operator. -/
def binary (operator : Token) (simple : Reader μ (Option Formula)) : Reader μ Formula := do
  let first ← operand simple
  let second ← operand simple
  let conversions := operator.conversions.getD {}
  Formula.ofBinary operator.mark (first.converted conversions.first)
    (second.converted conversions.second)

/-- The kind of token that closes a bracket. -/
def closerOf (opener : Token) : TokenKind :=
  if opener.kind = .opening then .closing else .bar

/-- What is made of a bracket whose closing one is missing. -/
def unclosed (opener : Token) (body : Option Formula) : Formula :=
  if opener.kind = .bar then
    match body with
    | some body => Formula.concat (.symbol opener.mark) body
    | none => .symbol opener.mark
  else .bracketed (some opener.mark) body none

/-- Reads what follows an opening bracket or a bar. -/
def bracket (opener : Token) (expression : Reader μ (Option Formula)) : Reader μ Formula := do
  let token ← next
  if token.kind = closerOf opener then
    return .bracketed (some opener.mark) none (some token.mark)
  pushBack token
  let body ← expression
  let token ← next
  if token.kind = closerOf opener then return Matrix.enclose opener.mark body token.mark
  pushBack token
  return unclosed opener body

mutual

/-- Reads the items up to the end of the expression. Those read before come in reverse. -/
def expression (closer : Option TokenKind) (before : List Formula) :
    Nat → Reader μ (Option Formula)
  | 0 => throw .outOfFuel
  | steps + 1 => do
    let some first ← scripted (simple closer steps) | return Formula.ofItems? before.reverse
    let token ← next
    if token.isInfix .frac then
      match ← scripted (simple closer steps) with
      | some second =>
        let fraction ← Formula.ofInfix token.mark first.asOperand second.asOperand
        expression closer (fraction :: before) steps
      | none => expression closer (first.items.reverseAux before) steps
    else
      let read := first.items.reverseAux before
      if token.kind = .endOfInput then return Formula.ofItems? read.reverse
      pushBack token
      if some token.kind = closer then return Formula.ofItems? read.reverse
      expression closer read steps

/-- Reads a simple formula, if one starts here. -/
def simple (closer : Option TokenKind) : Nat → Reader μ (Option Formula)
  | 0 => throw .outOfFuel
  | steps + 1 => do
    let token ← next
    match token.kind with
    | .endOfInput => return none
    | .number => return some (.number token.text)
    | .text => return some (.text token.text)
    | .identifier => return some (.identifier token.text)
    | .symbol | .infixOp => return some (.symbol token.mark)
    | .unary => return some (← unary token (simple closer steps))
    | .binary => return some (← binary token (simple closer steps))
    | .opening | .bar =>
      return some (← bracket token (expression (some (closerOf token)) [] steps))
    | .closing =>
      if closer.isNone then return some (.symbol token.mark)
      pushBack token
      return none

end

end Reader

namespace Lexer

variable {μ : Type} [Lexicon μ Entry]

/-- Reads a whole formula, which is missing if there is no token, and tells where reading ended.
Between two steps of each reader a token is used up. -/
def read (lexer : Lexer μ) : Except Fault (Option Formula × Lexer μ) :=
  Reader.expression none [] (2 * lexer.size + 2) lexer

def formula (lexer : Lexer μ) : Except Fault (Option Formula) := do
  return (← lexer.read).1

end Lexer

/-- Reads a formula written with the standard symbols, whose spellings are in a tree of the kind
`τ`. -/
def Formula.ofStringIn (τ : Type) [KeyTree τ Entry] (input : String) :
    Except Fault (Option Formula) :=
  (Lexer.ofString (Symbol.standardIn τ) input).formula

/-- The same with the standard spellings in a tree of bytes. -/
def Formula.ofString (input : String) : Except Fault (Option Formula) :=
  Formula.ofStringIn (ByteTree Entry) input

end FormulaMarkup
