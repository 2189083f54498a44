import FormulaMarkup.Markup.Drawing

/-!
# Drawing a formula

`Formula.draw` makes the drawing of a formula from the drawings of its parts, and `Formula.markup`
puts it into the one element of the document. What `Formula.write` puts is the written form of that
element.
-/

namespace FormulaMarkup

namespace Formula

mutual

def draw (options : Options) : Formula → Except Fault Drawing
  | empty => .ok .nothing
  | number written => .ok (.single (.leaf .mn written))
  | text written => .ok (.single (.leaf .mtext written))
  | identifier written => .ok (.ofText written)
  | symbol mark => .ok (.ofSymbol options mark.symbol mark.text)
  | sequence items => do return { markup := ← drawItems options items, isRun := !items.isEmpty }
  | bracketed left body right => do
    return .fence (options.delimiter left) (options.delimiter right) (← drawBody options body)
  | grouped _ body _ => do return { markup := ← drawBody options body }
  | matrix left rows right => do
    let rows ← drawRows options rows
    return .fence (options.delimiter (some left)) (options.delimiter (some right))
      [.element .mtable [] rows]
  | unary operator operand => Drawing.ofUnary options operator (draw options operand)
  | binary operator first second =>
    Drawing.ofBinary options operator first.color? (draw options first) (draw options second)
  | infixOp operator first second =>
    Drawing.ofInfix options operator (draw options first) (draw options second)
  | sub base script => do
    let base ← draw options base
    return .scripted options.rowMode .msub base (some (← draw options script)) none
  | sup base script => do
    let base ← draw options base
    return .scripted options.rowMode .msup base none (some (← draw options script))
  | subSup base lower upper => do
    let base ← draw options base
    let lower ← draw options lower
    return .scripted options.rowMode .msubsup base (some lower) (some (← draw options upper))
  | color _ => .ok .nothing

/-- Formulas next to each other, a nested sequence as a row of its own. -/
def drawItems (options : Options) : List Formula → Except Fault (List Markup)
  | [] => .ok []
  | formula :: rest => do
    let drawing ← draw options formula
    return drawing.place .avoid ++ (← drawItems options rest)

def drawBody (options : Options) : Option Formula → Except Fault (List Markup)
  | none => .ok []
  | some formula => do return (← draw options formula).place .avoid

def drawCells (options : Options) : List Formula → Except Fault (List Markup)
  | [] => .ok []
  | formula :: rest => do
    let drawing ← draw options formula
    return .element .mtd [] (drawing.place .avoid) :: (← drawCells options rest)

def drawRows (options : Options) : List (List Formula) → Except Fault (List Markup)
  | [] => .ok []
  | cells :: rest => do
    let cells ← drawCells options cells
    return .element .mtr [] cells :: (← drawRows options rest)

end

end Formula

/-- The attributes of the whole document. -/
def Options.attributes (options : Options) : List Attribute :=
  (options.display.map fun display ↦ ⟨.display, display.name⟩).toList ++
    (options.title.map fun title ↦ ⟨.title, title⟩).toList

namespace Formula

/-- The one element that a formula is drawn as. -/
def markup (options : Options) (formula : Formula) : Except Fault Markup := do
  let drawing ← formula.draw options
  return .element .math options.attributes (drawing.place .omit)

end Formula

end FormulaMarkup
