import FormulaMarkup.Markup.Escape

/-!
# Presentation markup

The elements of MathML in which a formula is drawn: leaves with text and elements with children.
`Markup.chars` is their written form, with each text and each value of an attribute escaped.
-/

namespace FormulaMarkup

/-- The elements that hold text. -/
inductive LeafTag where
  | mi
  | mn
  | mo
  | mtext
deriving DecidableEq

def LeafTag.name : LeafTag → String
  | mi => "mi"
  | mn => "mn"
  | mo => "mo"
  | mtext => "mtext"

/-- The elements that hold elements. -/
inductive Tag where
  | math
  | mrow
  | mfrac
  | mroot
  | msqrt
  | msub
  | msup
  | msubsup
  | munder
  | mover
  | munderover
  | mtable
  | mtr
  | mtd
  | mstyle
  | menclose
deriving DecidableEq

def Tag.name : Tag → String
  | math => "math"
  | mrow => "mrow"
  | mfrac => "mfrac"
  | mroot => "mroot"
  | msqrt => "msqrt"
  | msub => "msub"
  | msup => "msup"
  | msubsup => "msubsup"
  | munder => "munder"
  | mover => "mover"
  | munderover => "munderover"
  | mtable => "mtable"
  | mtr => "mtr"
  | mtd => "mtd"
  | mstyle => "mstyle"
  | menclose => "menclose"

inductive AttributeName where
  | display
  | title
  | accent
  | accentunder
  | mathvariant
  | mathcolor
  /-- which line strikes an enclosed formula -/
  | strike
deriving DecidableEq

def AttributeName.name : AttributeName → String
  | display => "display"
  | title => "title"
  | accent => "accent"
  | accentunder => "accentunder"
  | mathvariant => "mathvariant"
  | mathcolor => "mathcolor"
  | strike => "notation"

structure Attribute where
  name : AttributeName
  value : String
deriving DecidableEq

inductive Markup where
  | leaf (tag : LeafTag) (text : String)
  | element (tag : Tag) (attributes : List Attribute) (children : List Markup)

namespace Markup

def openTag (name : String) : List Char := '<' :: name.toList ++ ['>']

def closeTag (name : String) : List Char := '<' :: '/' :: name.toList ++ ['>']

/-- An attribute with the blank before it. -/
def attributeChars (nonAscii : Bool) (item : Attribute) : List Char :=
  ' ' :: item.name.name.toList ++ ['=', '"'] ++ escape nonAscii true item.value.toList ++ ['"']

/-- An opening tag with its attributes. -/
def startTag (nonAscii : Bool) (tag : Tag) (attributes : List Attribute) : List Char :=
  '<' :: tag.name.toList ++ attributes.flatMap (attributeChars nonAscii) ++ ['>']

mutual

/-- The written form, in which `nonAscii` asks for references for all but ASCII. -/
def chars (nonAscii : Bool) : Markup → List Char
  | leaf tag text =>
    openTag tag.name ++ escape nonAscii false text.toList ++ closeTag tag.name
  | element tag attributes children =>
    startTag nonAscii tag attributes ++ charsOfList nonAscii children ++ closeTag tag.name

def charsOfList (nonAscii : Bool) : List Markup → List Char
  | [] => []
  | markup :: rest => chars nonAscii markup ++ charsOfList nonAscii rest

end

def write (nonAscii : Bool) (markup : Markup) : String := String.ofList (markup.chars nonAscii)

theorem charsOfList_eq_flatMap (nonAscii : Bool) (list : List Markup) :
    charsOfList nonAscii list = list.flatMap (chars nonAscii) := by
  induction list with
  | nil => rfl
  | cons markup rest ih => simp [charsOfList, ih]

theorem charsOfList_append (nonAscii : Bool) (list more : List Markup) :
    charsOfList nonAscii (list ++ more) =
      charsOfList nonAscii list ++ charsOfList nonAscii more := by
  simp only [charsOfList_eq_flatMap, List.flatMap_append]

/-- An `mrow` around its children. -/
def mrow (children : List Markup) : Markup := element .mrow [] children

end Markup

end FormulaMarkup
