import FormulaMarkup.Formula.Basic
import FormulaMarkup.Markup.Basic
import FormulaMarkup.Markup.Options
import FormulaMarkup.Markup.Sink
import FormulaMarkup.Unicode.Letter

/-!
# Writing a formula

A formula is written to a sink in the order of its output, each tag, attribute and text on its own.
No markup is built before: the two tags of an element are two pieces, with the writing of what is
between them in the middle, and a tag that depends on the scripts of a formula is chosen while it is
written. The row mode of a place says when a formula in it is put into a row.

A `Part` is a formula in the middle of this, with the writing of what it consists of. What a row,
an accent or limits depend on is asked of the formula itself.
-/

namespace FormulaMarkup

/-- How a mark is drawn, if it stands for a symbol. -/
def Options.appearance? (options : Options) (symbol : Option Symbol) : Option Appearance :=
  symbol.map (·.appearance options.straightPhi)

/-- The glyph of a delimiter, empty where there is none. -/
def Options.delimiter (options : Options) (mark : Option Mark) : String :=
  match mark.bind fun mark ↦ options.appearance? mark.symbol with
  | some appearance => appearance.glyph
  | none => ""

namespace Formula

def color? : Formula → Option Color
  | color value => some value
  | _ => none

/-- Is the formula written as a run? -/
def isRun : Formula → Bool
  | sequence items => !items.isEmpty
  | _ => false

/-- How the symbol of a formula is drawn, alone or as an operator before its operand. -/
def appearance? (options : Options) : Formula → Option Appearance
  | symbol mark => options.appearance? mark.symbol
  | unary operator _ => options.appearance? operator.symbol
  | _ => none

end Formula

structure Part (σ : Type) where
  formula : Formula
  /-- what the formula writes when no row is put around it -/
  content : Writing σ Unit

namespace Part

variable {σ : Type} (options : Options) (part : Part σ)

def isAccent : Bool := (part.formula.appearance? options).any (·.isAccent)

def hasLimits : Bool := (part.formula.appearance? options).any (·.hasLimits)

end Part

namespace Writing

variable {σ : Type} [Sink σ] (options : Options)

def leaf (tag : LeafTag) (text : String) : Writing σ Unit := do
  putAll ["<", tag.name, ">"]
  escaped options.escapeNonAscii false text.toList
  putAll ["</", tag.name, ">"]

/-- Bare text is an operator if it starts with punctuation and an identifier otherwise. -/
def bareText (text : String) : Writing σ Unit :=
  match text.toList with
  | first :: _ =>
    if Unicode.isAlphanumeric first then leaf options .mi text else leaf options .mo text
  | [] => leaf options .mi text

/-- A symbol on its own: its glyph, or its text if it has none. -/
def symbol (symbol : Option Symbol) (text : String) : Writing σ Unit :=
  match options.appearance? symbol with
  | some appearance =>
    if appearance.glyph.isEmpty then bareText options text
    else
      match appearance.role with
      | .operator | .accent _ | .opening | .closing | .bar => leaf options .mo appearance.glyph
      | .text => leaf options .mtext appearance.glyph
      | _ => leaf options .mi appearance.glyph
  | none => bareText options text

def delimiter (glyph : String) : Writing σ Unit :=
  if glyph.isEmpty then pure () else leaf options .mo glyph

/-- Writes delimiters around a body, if there are any. -/
def fenced (left right : String) (body : Writing σ Unit) : Writing σ Unit :=
  if left.isEmpty && right.isEmpty then body
  else do
    put "<mrow>"
    delimiter options left
    body
    delimiter options right
    put "</mrow>"

/-- Writes a part in a place with a row mode. -/
def node (mode : RowMode) (part : Part σ) : Writing σ Unit :=
  match mode with
  | .omit => part.content
  | .avoid =>
    if part.formula.isRun then do
      put "<mrow>"
      part.content
      put "</mrow>"
    else part.content
  | .force => do
    put "<mrow>"
    part.content
    put "</mrow>"

def nodes (mode : RowMode) : List (Part σ) → Writing σ Unit
  | [] => pure ()
  | part :: parts => do
    node mode part
    nodes mode parts

def fraction (above below : Part σ) : Writing σ Unit := do
  put "<mfrac>"
  node options.rowMode above
  node options.rowMode below
  put "</mfrac>"

/-- The attribute of an element with an accent. -/
def accent (isAccent : Bool) (text : String) : Writing σ Unit :=
  if isAccent then put text else pure ()

/-- An accent is never put into a row. -/
def mark : Option (Part σ) → Writing σ Unit
  | none => pure ()
  | some part => node (if part.isAccent options then .avoid else options.rowMode) part

/-- The element of a base with marks, if it has any. -/
def marksTag? {α : Type} : Option α → Option α → Option Tag
  | some _, some _ => some .munderover
  | some _, none => some .munder
  | none, some _ => some .mover
  | none, none => none

/-- A base with marks below and above it. -/
def underOver (base : Part σ) (lower upper : Option (Part σ)) : Writing σ Unit :=
  match marksTag? lower upper with
  | none => node options.rowMode base
  | some tag => do
    putAll ["<", tag.name]
    accent (upper.any (·.isAccent options)) " accent=\"true\""
    accent (lower.any (·.isAccent options)) " accentunder=\"true\""
    put ">"
    node options.rowMode base
    mark options lower
    mark options upper
    putAll ["</", tag.name, ">"]

def scriptsTag {α : Type} : Option α → Option α → Tag
  | some _, some _ => .msubsup
  | some _, none => .msub
  | none, _ => .msup

/-- A base with scripts, at its side or as limits. -/
def scripts (base : Part σ) (lower upper : Option (Part σ)) : Writing σ Unit :=
  if base.hasLimits options then underOver options base lower upper
  else do
    let tag := scriptsTag lower upper
    putAll ["<", tag.name, ">"]
    node options.rowMode base
    nodes options.rowMode (lower.toList ++ upper.toList)
    putAll ["</", tag.name, ">"]

/-- Nothing is written for an operator without a symbol. -/
def unary (operator : Operator) (operand : Part σ) : Writing σ Unit :=
  match operator.symbol with
  | none => pure ()
  | some symbol =>
    let appearance := symbol.appearance options.straightPhi
    let glyph : Part σ :=
      ⟨.symbol (operator.mark .unary), Writing.symbol options symbol operator.text⟩
    match appearance.role with
    | .identifier => do
      put "<mrow>"
      leaf options .mi appearance.glyph
      node options.rowMode operand
      put "</mrow>"
    | .operator => do
      put "<mrow>"
      leaf options .mo appearance.glyph
      node options.rowMode operand
      put "</mrow>"
    | .wrap left right => fenced options left right (node .avoid operand)
    | .accent .over => underOver options operand none (some glyph)
    | .accent .under => underOver options operand (some glyph) none
    | .font => do
      putAll ["<mstyle mathvariant=\"", appearance.glyph, "\">"]
      node .avoid operand
      put "</mstyle>"
    | .cancel => do
      put "<menclose notation=\"updiagonalstrike\">"
      node .omit operand
      put "</menclose>"
    | .sqrt => do
      put "<msqrt>"
      node options.rowMode operand
      put "</msqrt>"
    | role => throw (.fault (.notDrawable symbol .unary role))

/-- The second operand is the base that the first one marks, except in a fraction. Only a first
operand that was read as a color can color the second. -/
def binary (operator : Operator) (first second : Part σ) : Writing σ Unit :=
  match operator.symbol with
  | none => pure ()
  | some symbol =>
    match (symbol.appearance options.straightPhi).role, first.formula.color? with
    | .over, _ => underOver options second none (some first)
    | .under, _ => underOver options second (some first) none
    | .root, _ => do
      put "<mroot>"
      node options.rowMode second
      node options.rowMode first
      put "</mroot>"
    | .color, some color => do
      let component := fun value ↦ String.ofList (Rgb.hexDigits value)
      putAll ["<mstyle mathcolor=\"#", component color.rgb.red, component color.rgb.green,
        component color.rgb.blue, "\">"]
      node .avoid second
      put "</mstyle>"
    | .frac, _ => fraction options first second
    | role, _ => throw (.fault (.notDrawable symbol .binary role))

def infixOp (operator : Operator) (first second : Part σ) : Writing σ Unit :=
  match operator.symbol with
  | none => pure ()
  | some symbol =>
    match (symbol.appearance options.straightPhi).role with
    | .frac => fraction options first second
    | role => throw (.fault (.notDrawable symbol .infixOp role))

def display : Option Display → Writing σ Unit
  | none => pure ()
  | some display => putAll [" display=\"", display.name, "\""]

def title (nonAscii : Bool) : Option String → Writing σ Unit
  | none => pure ()
  | some title => do
    put " title=\""
    escaped nonAscii true title.toList
    put "\""

/-- The one element of the whole output. -/
def document (part : Part σ) : Writing σ Unit := do
  put "<math"
  display options.display
  title options.escapeNonAscii options.title
  put ">"
  node .omit part
  put "</math>"

end Writing

namespace Formula

variable {σ : Type} [Sink σ]

mutual

def content (options : Options) : Formula → Writing σ Unit
  | empty => pure ()
  | number written => .leaf options .mn written
  | text written => .leaf options .mtext written
  | identifier written => .bareText options written
  | symbol mark => .symbol options mark.symbol mark.text
  | sequence items => contentOfItems options items
  | bracketed left body right =>
    .fenced options (options.delimiter left) (options.delimiter right) (contentOfBody options body)
  | grouped _ body _ => contentOfBody options body
  | matrix left rows right =>
    .fenced options (options.delimiter (some left)) (options.delimiter (some right)) do
      .put "<mtable>"
      contentOfRows options rows
      .put "</mtable>"
  | unary operator operand => .unary options operator ⟨operand, content options operand⟩
  | binary operator first second =>
    .binary options operator ⟨first, content options first⟩ ⟨second, content options second⟩
  | infixOp operator first second =>
    .infixOp options operator ⟨first, content options first⟩ ⟨second, content options second⟩
  | sub base script =>
    .scripts options ⟨base, content options base⟩ (some ⟨script, content options script⟩) none
  | sup base script =>
    .scripts options ⟨base, content options base⟩ none (some ⟨script, content options script⟩)
  | subSup base lower upper =>
    .scripts options ⟨base, content options base⟩ (some ⟨lower, content options lower⟩)
      (some ⟨upper, content options upper⟩)
  | color _ => pure ()

def contentOfItems (options : Options) : List Formula → Writing σ Unit
  | [] => pure ()
  | formula :: rest => do
    .node .avoid ⟨formula, content options formula⟩
    contentOfItems options rest

def contentOfBody (options : Options) : Option Formula → Writing σ Unit
  | none => pure ()
  | some formula => .node .avoid ⟨formula, content options formula⟩

def contentOfCells (options : Options) : List Formula → Writing σ Unit
  | [] => pure ()
  | formula :: rest => do
    .put "<mtd>"
    .node .avoid ⟨formula, content options formula⟩
    .put "</mtd>"
    contentOfCells options rest

def contentOfRows (options : Options) : List (List Formula) → Writing σ Unit
  | [] => pure ()
  | cells :: rest => do
    .put "<mtr>"
    contentOfCells options cells
    .put "</mtr>"
    contentOfRows options rest

end

/-- Writes a formula. Nothing is written where there is none. -/
def write (options : Options) : Option Formula → Writing σ Unit
  | none => pure ()
  | some formula => .document options ⟨formula, content options formula⟩

/-- The sink that writing leaves, as an error if it refused a character. -/
def writeTo (options : Options) (sink : σ) (tree : Option Formula) : Except Fault (Except σ σ) :=
  match write options tree sink with
  | .ok _ sink => .ok (.ok sink)
  | .error .refused sink => .ok (.error sink)
  | .error (.fault fault) _ => .error fault

def render (options : Options) (tree : Option Formula) : Except Fault String := do
  match ← writeTo options "" tree with
  | .ok output => return output
  | .error _ => throw .textRefused

end Formula

end FormulaMarkup
