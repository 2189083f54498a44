import FormulaMarkup.Symbol.Basic
import FormulaMarkup.Text.Quoted

/-!
# How symbols are drawn

The `Appearance` of a symbol is its glyph, the role in which it is drawn, and whether its scripts
go below and above it. It depends on the symbol alone and not on a spelling.
-/

namespace FormulaMarkup

/-- Where a mark sits relative to what it marks. -/
inductive Side where
  | over
  | under
deriving DecidableEq

/-- The part that a symbol plays in a drawing. -/
inductive Role where
  | operator
  | identifier
  | text
  | opening
  | closing
  | bar
  | accent (side : Side)
  /-- the glyph is the name of a font variant -/
  | font
  /-- brackets around the operand -/
  | wrap (left right : String)
  | cancel
  | sqrt
  | over
  | under
  | root
  | color
  | frac
deriving DecidableEq

/-- The name of a role in messages. -/
def Role.name : Role → String
  | .operator => "Operator"
  | .identifier => "Identifier"
  | .text => "Text"
  | .opening => "LeftParen"
  | .closing => "RightParen"
  | .bar => "LeftRightParen"
  | .accent .over => "Accent(Over)"
  | .accent .under => "Accent(Under)"
  | .font => "Font"
  | .wrap left right => "Wrap(" ++ Text.quoted left ++ ", " ++ Text.quoted right ++ ")"
  | .cancel => "Cancel"
  | .sqrt => "Sqrt"
  | .over => "Over"
  | .under => "Under"
  | .root => "Root"
  | .color => "Color"
  | .frac => "Frac"

structure Appearance where
  /-- empty for a symbol that only gives its operands a structure -/
  glyph : String
  role : Role
  /-- scripts go below and above instead of to the side -/
  hasLimits : Bool
deriving DecidableEq

namespace Appearance

def withLimits (appearance : Appearance) : Appearance := { appearance with hasLimits := true }

def isAccent (appearance : Appearance) : Bool :=
  match appearance.role with
  | .accent _ => true
  | _ => false

def operator (glyph : String) : Appearance := ⟨glyph, .operator, false⟩

def identifier (glyph : String) : Appearance := ⟨glyph, .identifier, false⟩

def accent (side : Side) (glyph : String) : Appearance := ⟨glyph, .accent side, false⟩

def font (variant : String) : Appearance := ⟨variant, .font, false⟩

def wrap (left right : String) : Appearance := ⟨"", .wrap left right, false⟩

def structural (role : Role) : Appearance := ⟨"", role, false⟩

end Appearance

open Appearance in
/-- How a symbol is drawn. The two forms of phi change places unless `straightPhi` is set: with
it `phi` is the straight form and `varphi` the curly one. -/
def Symbol.appearance (straightPhi : Bool) : Symbol → Appearance
  | .plus => operator "+"
  | .minus => operator "\u2212"
  | .cdot => operator "\u22c5"
  | .ast => operator "*"
  | .star => operator "\u22c6"
  | .slash => operator "/"
  | .backslash | .setminus => operator "\\"
  | .times => operator "\u00d7"
  | .ltimes => operator "\u22c9"
  | .rtimes => operator "\u22ca"
  | .bowtie => operator "\u22c8"
  | .div => operator "\u00f7"
  | .circ => operator "\u26ac"
  | .oplus => operator "\u2295"
  | .otimes => operator "\u2297"
  | .odot => operator "\u2299"
  | .sum => (operator "\u2211").withLimits
  | .prod => (operator "\u220f").withLimits
  | .wedge => operator "\u2227"
  | .bigWedge => (operator "\u22c0").withLimits
  | .vee => operator "\u2228"
  | .bigVee => (operator "\u22c1").withLimits
  | .cap => operator "\u2229"
  | .bigCap => (operator "\u22c2").withLimits
  | .cup => operator "\u222a"
  | .bigCup => (operator "\u22c3").withLimits
  | .equal => operator "="
  | .notEqual => operator "\u2260"
  | .assign => operator "\u2254"
  | .less => operator "<"
  | .muchLess => operator "\u226a"
  | .greater => operator ">"
  | .muchGreater => operator "\u226b"
  | .lessEqual => operator "\u2264"
  | .greaterEqual => operator "\u2265"
  | .prec => operator "\u227a"
  | .succ => operator "\u227b"
  | .preceq => operator "\u2aaf"
  | .succeq => operator "\u2ab0"
  | .member => operator "\u2208"
  | .notMember => operator "\u2209"
  | .subset => operator "\u2282"
  | .supset => operator "\u2283"
  | .subsetEqual => operator "\u2286"
  | .supsetEqual => operator "\u2287"
  | .equiv => operator "\u2261"
  | .sim => operator "\u223c"
  | .cong => operator "\u2245"
  | .approx => operator "\u2248"
  | .propto => operator "\u221d"
  | .and => ⟨"and", .text, false⟩
  | .or => ⟨"or", .text, false⟩
  | .not => operator "\u00ac"
  | .implies => operator "\u21d2"
  | .ifWord => operator "if"
  | .iff => operator "\u21d4"
  | .forAll => operator "\u2200"
  | .thereExists => operator "\u2203"
  | .bot => operator "\u22a5"
  | .top => operator "\u22a4"
  | .vdash => operator "\u22a2"
  | .models => operator "\u22a8"
  | .leftParen => ⟨"(", .opening, false⟩
  | .rightParen => ⟨")", .closing, false⟩
  | .leftBracket => ⟨"[", .opening, false⟩
  | .rightBracket => ⟨"]", .closing, false⟩
  | .leftBrace => ⟨"\x7b", .opening, false⟩
  | .rightBrace => ⟨"\x7d", .closing, false⟩
  | .verticalBar => ⟨"|", .bar, false⟩
  | .leftAngle => ⟨"\u2329", .opening, false⟩
  | .rightAngle => ⟨"\u232a", .closing, false⟩
  | .integral => operator "\u222b"
  | .dx => identifier "dx"
  | .dy => identifier "dy"
  | .dz => identifier "dz"
  | .dt => identifier "dt"
  | .contourIntegral => operator "\u222e"
  | .partialSign => operator "\u2202"
  | .nabla => operator "\u2207"
  | .plusMinus => operator "\u00b1"
  | .minusPlus => operator "\u2213"
  | .emptySet => operator "\u2205"
  | .infinity => operator "\u221e"
  | .aleph => operator "\u2135"
  | .ellipsis => operator "\u2026"
  | .therefore => operator "\u2234"
  | .because => operator "\u2235"
  | .angle => operator "\u2220"
  | .triangle => operator "\u25b3"
  | .prime => operator "\u2032"
  | .tilde => accent .over "~"
  | .space => operator "\u00a0"
  | .frown => operator "\u2322"
  | .quad => operator "\u00a0\u00a0"
  | .qquad => operator "\u00a0\u00a0\u00a0\u00a0"
  | .cdots => operator "\u22ef"
  | .vdots => operator "\u22ee"
  | .ddots => operator "\u22f1"
  | .diamond => operator "\u22c4"
  | .square => operator "\u25a1"
  | .leftFloor => operator "\u230a"
  | .rightFloor => operator "\u230b"
  | .leftCeiling => operator "\u2308"
  | .rightCeiling => operator "\u2309"
  | .doubleStruckC => operator "\u2102"
  | .doubleStruckN => operator "\u2115"
  | .doubleStruckQ => operator "\u211a"
  | .doubleStruckR => operator "\u211d"
  | .doubleStruckZ => operator "\u2124"
  | .letterF => identifier "f"
  | .letterG => identifier "g"
  | .lim => (operator "lim").withLimits
  | .capitalLim => (operator "Lim").withLimits
  | .min => (operator "min").withLimits
  | .max => (operator "max").withLimits
  | .sin => identifier "sin"
  | .capitalSin => identifier "Sin"
  | .cos => identifier "cos"
  | .capitalCos => identifier "Cos"
  | .tan => identifier "tan"
  | .capitalTan => identifier "Tan"
  | .sinh => identifier "sinh"
  | .capitalSinh => identifier "Sinh"
  | .cosh => identifier "cosh"
  | .capitalCosh => identifier "Cosh"
  | .tanh => identifier "tanh"
  | .capitalTanh => identifier "Tanh"
  | .cot => identifier "cot"
  | .capitalCot => identifier "Cot"
  | .sec => identifier "sec"
  | .capitalSec => identifier "Sec"
  | .csc => identifier "csc"
  | .capitalCsc => identifier "Csc"
  | .arcsin => identifier "arcsin"
  | .arccos => identifier "arccos"
  | .arctan => identifier "arctan"
  | .coth => identifier "coth"
  | .sech => identifier "sech"
  | .csch => identifier "csch"
  | .exp => identifier "exp"
  | .log => identifier "log"
  | .capitalLog => identifier "Log"
  | .ln => identifier "ln"
  | .capitalLn => identifier "Ln"
  | .det => identifier "det"
  | .dim => identifier "dim"
  | .ker => identifier "ker"
  | .mod => identifier "mod"
  | .gcd => identifier "gcd"
  | .lcm => identifier "lcm"
  | .lub => identifier "lub"
  | .glb => identifier "glb"
  | .abs => wrap "|" "|"
  | .norm => wrap "\u2225" "\u2225"
  | .floor => wrap "\u230a" "\u230b"
  | .ceil => wrap "\u2308" "\u2309"
  | .upArrow => operator "\u2191"
  | .downArrow => operator "\u2193"
  | .rightArrow | .to => operator "\u2192"
  | .rightArrowTail => operator "\u21a3"
  | .twoHeadRightArrow => operator "\u21a0"
  | .twoHeadRightArrowTail => operator "\u2916"
  | .mapsTo => operator "\u21a6"
  | .leftArrow => operator "\u2190"
  | .leftRightArrow => operator "\u2194"
  | .doubleRightArrow => operator "\u21d2"
  | .doubleLeftArrow => operator "\u21d0"
  | .doubleLeftRightArrow => operator "\u21d4"
  | .sqrt => structural .sqrt
  | .cancel => structural .cancel
  | .root => structural .root
  | .frac => structural .frac
  | .stackrel | .overset => structural .over
  | .underset => structural .under
  | .color => structural .color
  | .sub => operator "_"
  | .sup => operator "^"
  | .hat => accent .over "^"
  | .overline => accent .over "\u00af"
  | .vector => accent .over "\u2192"
  | .dot => accent .over "."
  | .ddot => accent .over ".."
  | .overarc => accent .over "\u23dc"
  | .underline => accent .under "_"
  | .underbrace => (accent .under "\u23df").withLimits
  | .overbrace => (accent .over "\u23de").withLimits
  | .bold => font "bold"
  | .doubleStruck => font "double-struck"
  | .italic => font "italic"
  | .boldItalic => font "bold-italic"
  | .script => font "script"
  | .boldScript => font "bold-script"
  | .monospace => font "monospace"
  | .fraktur => font "fraktur"
  | .boldFraktur => font "bold-fraktur"
  | .sansSerif => font "sans-serif"
  | .boldSansSerif => font "bold-sans-serif"
  | .sansSerifItalic => font "sans-serif-italic"
  | .sansSerifBoldItalic => font "sans-serif-bold-italic"
  | .roman => font "normal"
  | .alpha => identifier "\u03b1"
  | .capitalAlpha => identifier "\u0391"
  | .beta => identifier "\u03b2"
  | .capitalBeta => identifier "\u0392"
  | .gamma => identifier "\u03b3"
  | .capitalGamma => operator "\u0393"
  | .delta => identifier "\u03b4"
  | .capitalDelta => operator "\u0394"
  | .epsilon => identifier "\u03b5"
  | .capitalEpsilon => identifier "\u0395"
  | .varEpsilon => identifier "\u025b"
  | .zeta => identifier "\u03b6"
  | .capitalZeta => identifier "\u0396"
  | .eta => identifier "\u03b7"
  | .capitalEta => identifier "\u0397"
  | .theta => identifier "\u03b8"
  | .capitalTheta => operator "\u0398"
  | .varTheta => identifier "\u03d1"
  | .iota => identifier "\u03b9"
  | .capitalIota => identifier "\u0399"
  | .kappa => identifier "\u03ba"
  | .capitalKappa => identifier "\u039a"
  | .lambda => identifier "\u03bb"
  | .capitalLambda => operator "\u039b"
  | .mu => identifier "\u03bc"
  | .capitalMu => identifier "\u039c"
  | .nu => identifier "\u03bd"
  | .capitalNu => identifier "\u039d"
  | .xi => identifier "\u03be"
  | .capitalXi => operator "\u039e"
  | .omicron => identifier "\u03bf"
  | .capitalOmicron => identifier "\u039f"
  | .pi => identifier "\u03c0"
  | .capitalPi => operator "\u03a0"
  | .rho => identifier "\u03c1"
  | .capitalRho => identifier "\u03a1"
  | .sigma => identifier "\u03c3"
  | .capitalSigma => operator "\u03a3"
  | .tau => identifier "\u03c4"
  | .capitalTau => identifier "\u03a4"
  | .upsilon => identifier "\u03c5"
  | .capitalUpsilon => identifier "\u03a5"
  | .phi => identifier (if straightPhi then "\u03d5" else "\u03c6")
  | .varPhi => identifier (if straightPhi then "\u03c6" else "\u03d5")
  | .capitalPhi => identifier "\u03a6"
  | .chi => identifier "\u03c7"
  | .capitalChi => identifier "\u03a7"
  | .psi => identifier "\u03c8"
  | .capitalPsi => identifier "\u03a8"
  | .omega => identifier "\u03c9"
  | .capitalOmega => operator "\u03a9"

end FormulaMarkup
