import FormulaMarkup.Color
import FormulaMarkup.Fault
import FormulaMarkup.Token.Basic

/-!
# Formulas

A `Formula` is a tree of leaves, brackets, matrices, operations and scripts. Operators keep no
kind, since their place in the tree fixes it, and a scripted formula has a constructor for each
choice of scripts, so that it always has one. The functions here are the only places where a
formula is built from parts that might not fit: they check the parts and name what is wrong.
-/

namespace FormulaMarkup

/-- A symbol as it stands in the input: what it means, its text, and its part in the grammar. -/
structure Mark where
  symbol : Option Symbol
  text : String
  kind : TokenKind
deriving DecidableEq

/-- Is the mark this symbol in exactly this spelling? -/
def Mark.spells (mark : Mark) (symbol : Symbol) (text : String) : Bool :=
  mark.symbol = some symbol && mark.text = text

def Token.mark (token : Token) : Mark := ⟨token.symbol, token.text, token.kind⟩

/-- The symbol of an operation. -/
structure Operator where
  symbol : Option Symbol
  text : String
deriving DecidableEq

def Arity.kind : Arity → TokenKind
  | .unary => .unary
  | .binary => .binary
  | .infixOp => .infixOp

def Operator.mark (operator : Operator) (arity : Arity) : Mark :=
  ⟨operator.symbol, operator.text, arity.kind⟩

/-- A mark can only be the operator of its own arity. -/
def Mark.operator? (mark : Mark) (arity : Arity) : Except Fault Operator :=
  if mark.kind = arity.kind then .ok ⟨mark.symbol, mark.text⟩
  else .error (.wrongOperator arity mark.text)

inductive Formula where
  /-- nothing, for instance an empty cell of a matrix -/
  | empty
  | number (text : String)
  | text (text : String)
  | identifier (text : String)
  | symbol (mark : Mark)
  /-- formulas next to each other -/
  | sequence (items : List Formula)
  | bracketed (left : Option Mark) (body : Option Formula) (right : Option Mark)
  /-- brackets that only group their body and are not drawn -/
  | grouped (left : Option Mark) (body : Option Formula) (right : Option Mark)
  | matrix (left : Mark) (rows : List (List Formula)) (right : Mark)
  | unary (operator : Operator) (operand : Formula)
  | binary (operator : Operator) (first second : Formula)
  | infixOp (operator : Operator) (first second : Formula)
  | sub (base script : Formula)
  | sup (base script : Formula)
  | subSup (base lower upper : Formula)
  | color (color : Color)

namespace Formula

def ofUnary (mark : Mark) (operand : Formula) : Except Fault Formula := do
  return unary (← mark.operator? .unary) operand

def ofBinary (mark : Mark) (first second : Formula) : Except Fault Formula := do
  return binary (← mark.operator? .binary) first second

def ofInfix (mark : Mark) (first second : Formula) : Except Fault Formula := do
  return infixOp (← mark.operator? .infixOp) first second

def ofScripts (base : Formula) (lower upper : Option Formula) : Except Fault Formula :=
  match lower, upper with
  | some lower, some upper => .ok (subSup base lower upper)
  | some lower, none => .ok (sub base lower)
  | none, some upper => .ok (sup base upper)
  | none, none => .error .missingScript

/-- The formulas next to each other that a formula consists of. -/
def items : Formula → List Formula
  | sequence items => items
  | formula => [formula]

/-- Formulas next to each other, if there are any. One alone stands for itself. -/
def ofItems? : List Formula → Option Formula
  | [] => none
  | [formula] => some formula
  | formulas => some (sequence formulas)

/-- Two formulas next to each other, as one flat sequence. -/
def concat : Formula → Formula → Formula
  | sequence left, sequence right => sequence (left ++ right)
  | sequence left, right => sequence (left ++ [right])
  | left, sequence right => sequence (left :: right)
  | left, right => sequence [left, right]

/-- Puts a formula behind others, and of a sequence its items. -/
def pushOnto (items : List Formula) : Formula → List Formula
  | sequence more => items ++ more
  | formula => items ++ [formula]

/-- Formulas next to each other, as one flat sequence. -/
def collect (formulas : List Formula) : Formula := sequence (formulas.foldl pushOnto [])

theorem items_eq_singleton {formula : Formula} (h : ∀ items, formula = sequence items → False) :
    formula.items = [formula] := by
  cases formula with
  | sequence items => exact (h items rfl).elim
  | _ => rfl

theorem concat_eq (left right : Formula) :
    left.concat right = sequence (left.items ++ right.items) := by
  fun_cases concat left right with
  | case1 left right => rfl
  | case2 left right hright =>
    rw [items_eq_singleton hright]
    rfl
  | case3 left right hleft =>
    rw [items_eq_singleton hleft]
    rfl
  | case4 left right _ hleft hright =>
    rw [items_eq_singleton hleft, items_eq_singleton hright]
    rfl

@[simp]
theorem items_concat (left right : Formula) :
    (left.concat right).items = left.items ++ right.items := by
  rw [concat_eq, items]

theorem concat_assoc (a b c : Formula) : (a.concat b).concat c = a.concat (b.concat c) := by
  rw [concat_eq, concat_eq a (b.concat c), items_concat, items_concat, List.append_assoc]

theorem pushOnto_eq (items : List Formula) (formula : Formula) :
    pushOnto items formula = items ++ formula.items := by
  cases formula <;> rfl

theorem foldl_pushOnto (items formulas : List Formula) :
    formulas.foldl pushOnto items = items ++ formulas.flatMap Formula.items := by
  induction formulas generalizing items with
  | nil => simp
  | cons formula formulas ih =>
    rw [List.foldl_cons, ih, pushOnto_eq, List.flatMap_cons, List.append_assoc]

theorem collect_eq (formulas : List Formula) :
    collect formulas = sequence (formulas.flatMap items) := by
  rw [collect, foldl_pushOnto, List.nil_append]

/-- Brackets can be dropped around an operand when each is dedicated to its side. -/
def droppable (left right : Option Mark) : Bool :=
  left.all (·.kind = .opening) && right.all (·.kind = .closing)

/-- The formula as an operand, around which redundant brackets only group. -/
def asOperand : Formula → Formula
  | bracketed left body right =>
    if droppable left right then grouped left body right else bracketed left body right
  | formula => formula

/-- The mark of a formula that is a single symbol. -/
def mark? : Formula → Option Mark
  | symbol mark => some mark
  | _ => none

end Formula

end FormulaMarkup
