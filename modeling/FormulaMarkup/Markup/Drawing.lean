import FormulaMarkup.Formula.Writer

/-!
# Drawings

What the writer puts piece by piece is here put together as elements, so that one may speak of
children and of siblings. A `Drawing` is a run of sibling elements with what its surroundings need
to know to place it: whether the run asks for a row, and whether it is an accent or has its scripts
as limits. The row mode of a place says when a row is put around what is placed there.

The drawing of an operator asks for its role first, and only then for the drawings of its operands
in the order of the output, so of several faults the one that the writer meets first is named.
-/

namespace FormulaMarkup

structure Drawing where
  markup : List Markup
  /-- more than one element may come of it -/
  isRun : Bool := false
  isAccent : Bool := false
  hasLimits : Bool := false

namespace Drawing

def nothing : Drawing := { markup := [] }

def single (markup : Markup) : Drawing := { markup := [markup] }

/-- The elements of a drawing in a place with a row mode. -/
def place (mode : RowMode) (drawing : Drawing) : List Markup :=
  match mode with
  | .omit => drawing.markup
  | .avoid => if drawing.isRun then [.mrow drawing.markup] else drawing.markup
  | .force => [.mrow drawing.markup]

/-- Between delimiters, in a row unless both are empty. -/
def fence (left right : String) (body : List Markup) : Drawing :=
  if left.isEmpty && right.isEmpty then { markup := body }
  else
    let delimiter := fun glyph : String ↦
      if glyph.isEmpty then [] else [Markup.leaf .mo glyph]
    single (.mrow (delimiter left ++ body ++ delimiter right))

/-- An accent is never put into a row. -/
def placeMark (mode : RowMode) (drawing : Drawing) : List Markup :=
  drawing.place (if drawing.isAccent then .avoid else mode)

/-- A base with marks below and above it. -/
def underOver (mode : RowMode) (base : Drawing) (lower upper : Option Drawing) : Drawing :=
  let accented := fun (name : AttributeName) (mark : Option Drawing) ↦
    if mark.any (·.isAccent) then [(⟨name, "true"⟩ : Attribute)] else []
  let attributes := accented .accent upper ++ accented .accentunder lower
  let children := base.place mode ++ lower.toList.flatMap (placeMark mode) ++
    upper.toList.flatMap (placeMark mode)
  match lower, upper with
  | some _, some _ => single (.element .munderover attributes children)
  | some _, none => single (.element .munder attributes children)
  | none, some _ => single (.element .mover attributes children)
  | none, none => { markup := base.place mode }

/-- A base with scripts, at its side or as limits. -/
def scripted (mode : RowMode) (tag : Tag) (base : Drawing) (lower upper : Option Drawing) :
    Drawing :=
  if base.hasLimits then underOver mode base lower upper
  else
    single (.element tag [] (base.place mode ++ lower.toList.flatMap (place mode) ++
      upper.toList.flatMap (place mode)))

def fraction (mode : RowMode) (above below : Drawing) : Drawing :=
  single (.element .mfrac [] (above.place mode ++ below.place mode))

/-- Bare text, an operator or an identifier by its first character. -/
def ofText (text : String) : Drawing :=
  match text.toList with
  | first :: _ =>
    if Unicode.isAlphanumeric first then single (.leaf .mi text) else single (.leaf .mo text)
  | [] => single (.leaf .mi text)

/-- The leaf of a glyph in a role. -/
def ofGlyph (appearance : Appearance) : Markup :=
  match appearance.role with
  | .operator | .accent _ | .opening | .closing | .bar => .leaf .mo appearance.glyph
  | .text => .leaf .mtext appearance.glyph
  | _ => .leaf .mi appearance.glyph

/-- A symbol on its own: its glyph, or its text if it has none. -/
def ofSymbol (options : Options) (symbol : Option Symbol) (text : String) : Drawing :=
  match options.appearance? symbol with
  | some appearance =>
    let drawing := if appearance.glyph.isEmpty then ofText text else single (ofGlyph appearance)
    { drawing with isAccent := appearance.isAccent, hasLimits := appearance.hasLimits }
  | none => ofText text

/-- The drawing of an operator without a symbol is empty. -/
def ofUnary (options : Options) (operator : Operator) (operand : Except Fault Drawing) :
    Except Fault Drawing :=
  match operator.symbol with
  | none => .ok nothing
  | some symbol =>
    let mode := options.rowMode
    let appearance := symbol.appearance options.straightPhi
    let glyph := ofSymbol options symbol operator.text
    let drawing := match appearance.role with
      | .identifier | .operator => do
        return single (.mrow (ofGlyph appearance :: (← operand).place mode))
      | .wrap left right => do return fence left right ((← operand).place .avoid)
      | .accent .over => do return underOver mode (← operand) none (some glyph)
      | .accent .under => do return underOver mode (← operand) (some glyph) none
      | .font => do
        let style := [(⟨.mathvariant, appearance.glyph⟩ : Attribute)]
        return single (.element .mstyle style ((← operand).place .avoid))
      | .cancel => do
        let strike := [(⟨.strike, "updiagonalstrike"⟩ : Attribute)]
        return single (.element .menclose strike ((← operand).place .omit))
      | .sqrt => do return single (.element .msqrt [] ((← operand).place mode))
      | role => .error (.notDrawable symbol .unary role)
    drawing.map fun drawing ↦
      { drawing with isAccent := appearance.isAccent, hasLimits := appearance.hasLimits }

/-- Of the first operand its color is asked for, if it was read as one. -/
def ofBinary (options : Options) (operator : Operator) (color : Option Color)
    (first second : Except Fault Drawing) : Except Fault Drawing :=
  match operator.symbol with
  | none => .ok nothing
  | some symbol =>
    let mode := options.rowMode
    match (symbol.appearance options.straightPhi).role, color with
    | .over, _ => do
      let base ← second
      return underOver mode base none (some (← first))
    | .under, _ => do
      let base ← second
      return underOver mode base (some (← first)) none
    | .root, _ => do
      let radicand ← second
      let index ← first
      return single (.element .mroot [] (radicand.place mode ++ index.place mode))
    | .color, some color => do
      let style := [(⟨.mathcolor, color.rgb.hex⟩ : Attribute)]
      return single (.element .mstyle style ((← second).place .avoid))
    | .frac, _ => do
      let above ← first
      return fraction mode above (← second)
    | role, _ => .error (.notDrawable symbol .binary role)

def ofInfix (options : Options) (operator : Operator) (first second : Except Fault Drawing) :
    Except Fault Drawing :=
  match operator.symbol with
  | none => .ok nothing
  | some symbol =>
    match (symbol.appearance options.straightPhi).role with
    | .frac => do
      let above ← first
      return fraction options.rowMode above (← second)
    | role => .error (.notDrawable symbol .infixOp role)

end Drawing

end FormulaMarkup
