import FormulaMarkup.Formula.Basic

/-!
# The text of a formula

`Formula.source` puts the texts of a formula's leaves, operators and drawn brackets together again,
in the order of the input as far as the tree still knows it. A color that was split into symbols
is read back from it. Matrices and colors have no text here.
-/

namespace FormulaMarkup

def Mark.textOf : Option Mark → String
  | some mark => mark.text
  | none => ""

namespace Formula

mutual

def source : Formula → String
  | empty => ""
  | number written => written
  | text written => written
  | identifier written => written
  | symbol mark => mark.text
  | sequence items => sourceOfList items
  | bracketed left body right => Mark.textOf left ++ sourceOfBody body ++ Mark.textOf right
  | grouped _ body _ => sourceOfBody body
  | matrix _ _ _ => ""
  | unary operator operand => operator.text ++ source operand
  | binary operator first second => operator.text ++ source first ++ source second
  | infixOp operator first second => source first ++ operator.text ++ source second
  | sub base script => source base ++ source script
  | sup base script => source base ++ source script
  | subSup base lower upper => source base ++ source lower ++ source upper
  | color _ => ""

def sourceOfList : List Formula → String
  | [] => ""
  | formula :: rest => source formula ++ sourceOfList rest

def sourceOfBody : Option Formula → String
  | none => ""
  | some formula => source formula

end

/-- Reads a formula as a color. -/
def toColor (formula : Formula) : Formula := .color (Color.ofText formula.source)

/-- What a conversion makes of an operand. -/
def converted (formula : Formula) : Option Conversion → Formula
  | some .toColor => formula.toColor
  | none => formula

end Formula

end FormulaMarkup
