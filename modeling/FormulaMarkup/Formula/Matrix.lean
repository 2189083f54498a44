import FormulaMarkup.Formula.Basic

/-!
# Matrices

A bracketed formula is a matrix when its body is rows with commas between them, where a row stands
in plain round or square brackets. The commas at the top of a row separate its cells.
-/

namespace FormulaMarkup.Matrix

def isSeparator : Formula → Bool
  | .identifier text => text = ","
  | _ => false

/-- Only brackets spelled `(` `)` or `[` `]` make a row. -/
def isRowFence (left right : Mark) : Bool :=
  left.kind = .opening && right.kind = .closing &&
    (left.spells .leftParen "(" && right.spells .rightParen ")" ||
      left.spells .leftBracket "[" && right.spells .rightBracket "]")

/-- The body of a row, itself missing when the row is empty. -/
def rowBody? : Formula → Option (Option Formula)
  | .bracketed (some left) body (some right) => if isRowFence left right then some body else none
  | _ => none

/-- The bodies of one or more rows that have a separator between each two. -/
def rowBodies? : List Formula → Option (List (Option Formula))
  | [] => none
  | [row] => (rowBody? row).map ([·])
  | row :: separator :: rows =>
    if isSeparator separator then do
      let body ← rowBody? row
      let bodies ← rowBodies? rows
      return body :: bodies
    else none

/-- The runs between the separators, one more than there are separators. -/
def splitAtSeparators : List Formula → List (List Formula)
  | [] => [[]]
  | formula :: rest =>
    if isSeparator formula then [] :: splitAtSeparators rest
    else
      match splitAtSeparators rest with
      | [] => [[formula]]
      | run :: runs => (formula :: run) :: runs

theorem splitAtSeparators_ne_nil (formulas : List Formula) : splitAtSeparators formulas ≠ [] := by
  induction formulas with
  | nil => simp [splitAtSeparators]
  | cons formula rest ih =>
    simp only [splitAtSeparators]
    split
    · simp
    · split <;> simp

/-- The cell that holds a run of formulas. -/
def cellOf : List Formula → Formula
  | [] => .empty
  | [formula] => formula
  | formulas => .sequence formulas

/-- The cells of a row. A body that is no sequence is one cell. -/
def cellsOf : Option Formula → List Formula
  | none => [.empty]
  | some (.sequence items) => (splitAtSeparators items).map cellOf
  | some formula => [formula]

/-- A body in brackets, as a matrix if the body has the form of one. -/
def enclose (left : Mark) (body : Option Formula) (right : Mark) : Formula :=
  match body.bind fun formula ↦ rowBodies? formula.items with
  | some bodies => .matrix left (bodies.map cellsOf) right
  | none => .bracketed (some left) body (some right)

/-- The cells at a row of a matrix. -/
def row (rows : List (List Formula)) (index : Nat) : Except Fault (List Formula) :=
  match rows[index]? with
  | some cells => .ok cells
  | none => .error (.outOfBounds rows.length index)

/-- The formula at a row and a column of a matrix. -/
def cell (rows : List (List Formula)) (index column : Nat) : Except Fault Formula := do
  let cells ← row rows index
  match cells[column]? with
  | some formula => return formula
  | none => throw (.outOfBounds cells.length column)

end FormulaMarkup.Matrix
