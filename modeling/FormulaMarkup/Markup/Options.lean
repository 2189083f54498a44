/-!
# Options of a drawing
-/

namespace FormulaMarkup

/-- Whether a formula stands on its own or within a line of text. -/
inductive Display where
  | block
  | inline
deriving DecidableEq

def Display.name : Display → String
  | block => "block"
  | inline => "inline"

/-- When the formulas in the place of one are put into a row. -/
inductive RowMode where
  /-- never -/
  | omit
  /-- a sequence that is not empty -/
  | avoid
  /-- always, even a single formula, to keep operands apart in editors -/
  | force
deriving DecidableEq

structure Options where
  display : Option Display := none
  title : Option String := none
  escapeNonAscii : Bool := true
  rowMode : RowMode := .avoid
  straightPhi : Bool := true
deriving DecidableEq

end FormulaMarkup
