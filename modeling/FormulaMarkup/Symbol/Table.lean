import FormulaMarkup.Symbol.Entry

/-!
# The standard symbols

Every spelling that is known without further declarations, with what it stands for. Where two
spellings overlap the longer one is meant, so their order plays no part in reading a formula.
-/

namespace FormulaMarkup.Symbol.Table

def operations : List (List String × Symbol) :=
  [(["+"], .plus), (["-"], .minus), (["*", "cdot"], .cdot), (["**", "ast"], .ast),
   (["***", "star"], .star), (["//"], .slash), (["\\\\", "backslash"], .backslash),
   (["setminus"], .setminus), (["xx", "times"], .times), (["|><", "ltimes"], .ltimes),
   (["><|", "rtimes"], .rtimes), (["|><|", "bowtie"], .bowtie), (["-:", "div", "divide"], .div),
   (["@", "circ"], .circ), (["o+", "oplus"], .oplus), (["ox", "otimes"], .otimes),
   (["o.", "odot"], .odot), (["sum"], .sum), (["prod"], .prod), (["^^", "wedge"], .wedge),
   (["^^^", "bigwedge"], .bigWedge), (["vv", "vee"], .vee), (["vvv", "bigvee"], .bigVee),
   (["nn", "cap"], .cap), (["nnn", "bigcap"], .bigCap), (["uu", "cup"], .cup),
   (["uuu", "bigcup"], .bigCup)]

def relations : List (List String × Symbol) :=
  [(["="], .equal), (["!=", "ne"], .notEqual), ([":="], .assign), (["<", "lt"], .less),
   (["mlt", "ll"], .muchLess), ([">", "gt"], .greater), (["mgt", "gg"], .muchGreater),
   (["<=", "le", "leq"], .lessEqual), ([">=", "ge", "geq"], .greaterEqual),
   (["-<", "-lt", "prec"], .prec), ([">-", "succ"], .succ), (["-<=", "preceq"], .preceq),
   ([">-=", "succeq"], .succeq), (["in"], .member), (["!in", "notin"], .notMember),
   (["sub", "subset"], .subset), (["sup", "supset"], .supset),
   (["sube", "subseteq"], .subsetEqual), (["supe", "supseteq"], .supsetEqual),
   (["-=", "equiv"], .equiv), (["~", "sim"], .sim), (["~=", "cong"], .cong),
   (["~~", "approx"], .approx), (["prop", "propto"], .propto)]

def logic : List (List String × Symbol) :=
  [(["and"], .and), (["or"], .or), (["not", "neg"], .not), (["=>", "implies"], .implies),
   (["if"], .ifWord), (["<=>", "iff"], .iff), (["AA", "forall"], .forAll),
   (["EE", "exists"], .thereExists), (["_|_", "bot"], .bot), (["TT", "top"], .top),
   (["|--", "vdash"], .vdash), (["|==", "models"], .models), ([":|:"], .verticalBar)]

def miscellany : List (List String × Symbol) :=
  [(["int"], .integral), (["dx"], .dx), (["dy"], .dy), (["dz"], .dz), (["dt"], .dt),
   (["oint"], .contourIntegral), (["del", "partial"], .partialSign), (["grad", "nabla"], .nabla),
   (["+-", "pm"], .plusMinus), (["-+", "mp"], .minusPlus), (["O/", "emptyset"], .emptySet),
   (["oo", "infty"], .infinity), (["aleph"], .aleph), (["...", "ldots"], .ellipsis),
   ([":.", "therefore"], .therefore), ([":'", "because"], .because), (["/_", "angle"], .angle),
   (["/_\\", "triangle"], .triangle), (["'", "prime"], .prime), (["\\ "], .space),
   (["frown"], .frown), (["quad"], .quad), (["qquad"], .qquad), (["cdots"], .cdots),
   (["vdots"], .vdots), (["ddots"], .ddots), (["diamond"], .diamond), (["square"], .square),
   (["|__", "lfloor"], .leftFloor), (["__|", "rfloor"], .rightFloor),
   (["|~", "lceiling"], .leftCeiling), (["~|", "rceiling"], .rightCeiling),
   (["CC"], .doubleStruckC), (["NN"], .doubleStruckN), (["QQ"], .doubleStruckQ),
   (["RR"], .doubleStruckR), (["ZZ"], .doubleStruckZ), (["f"], .letterF), (["g"], .letterG)]

def functions : List (List String × Symbol) :=
  [(["lim"], .lim), (["Lim"], .capitalLim), (["min"], .min), (["max"], .max), (["sin"], .sin),
   (["Sin"], .capitalSin), (["cos"], .cos), (["Cos"], .capitalCos), (["tan"], .tan),
   (["Tan"], .capitalTan), (["sinh"], .sinh), (["Sinh"], .capitalSinh), (["cosh"], .cosh),
   (["Cosh"], .capitalCosh), (["tanh"], .tanh), (["Tanh"], .capitalTanh), (["cot"], .cot),
   (["Cot"], .capitalCot), (["sec"], .sec), (["Sec"], .capitalSec), (["csc"], .csc),
   (["Csc"], .capitalCsc), (["arcsin"], .arcsin), (["arccos"], .arccos), (["arctan"], .arctan),
   (["coth"], .coth), (["sech"], .sech), (["csch"], .csch), (["exp"], .exp), (["log"], .log),
   (["Log"], .capitalLog), (["ln"], .ln), (["Ln"], .capitalLn), (["det"], .det), (["dim"], .dim),
   (["ker"], .ker), (["mod"], .mod), (["gcd"], .gcd), (["lcm"], .lcm), (["lub"], .lub),
   (["glb"], .glb)]

def arrows : List (List String × Symbol) :=
  [(["uarr", "uparrow"], .upArrow), (["darr", "downarrow"], .downArrow),
   (["rarr", "rightarrow"], .rightArrow), (["->", "to"], .to),
   ([">->", "rightarrowtail"], .rightArrowTail),
   (["->>", "twoheadrightarrow"], .twoHeadRightArrow),
   ([">->>", "twoheadrightarrowtail"], .twoHeadRightArrowTail), (["|->", "mapsto"], .mapsTo),
   (["larr", "leftarrow"], .leftArrow), (["harr", "leftrightarrow"], .leftRightArrow),
   (["rArr", "Rightarrow"], .doubleRightArrow), (["lArr", "Leftarrow"], .doubleLeftArrow),
   (["hArr", "Leftrightarrow"], .doubleLeftRightArrow)]

def greekLetters : List (List String × Symbol) :=
  [(["alpha"], .alpha), (["Alpha"], .capitalAlpha), (["beta"], .beta), (["Beta"], .capitalBeta),
   (["gamma"], .gamma), (["Gamma"], .capitalGamma), (["delta"], .delta),
   (["Delta"], .capitalDelta), (["epsi", "epsilon"], .epsilon), (["Epsilon"], .capitalEpsilon),
   (["varepsilon"], .varEpsilon), (["zeta"], .zeta), (["Zeta"], .capitalZeta), (["eta"], .eta),
   (["Eta"], .capitalEta), (["theta"], .theta), (["Theta"], .capitalTheta),
   (["vartheta"], .varTheta), (["iota"], .iota), (["Iota"], .capitalIota), (["kappa"], .kappa),
   (["Kappa"], .capitalKappa), (["lambda", "lamda"], .lambda),
   (["Lambda", "Lamda"], .capitalLambda), (["mu"], .mu), (["Mu"], .capitalMu), (["nu"], .nu),
   (["Nu"], .capitalNu), (["xi"], .xi), (["Xi"], .capitalXi), (["omicron"], .omicron),
   (["Omicron"], .capitalOmicron), (["pi"], .pi), (["Pi"], .capitalPi), (["rho"], .rho),
   (["Rho"], .capitalRho), (["sigma"], .sigma), (["Sigma"], .capitalSigma), (["tau"], .tau),
   (["Tau"], .capitalTau), (["upsilon"], .upsilon), (["Upsilon"], .capitalUpsilon),
   (["phi"], .phi), (["Phi"], .capitalPhi), (["varphi"], .varPhi), (["chi"], .chi),
   (["Chi"], .capitalChi), (["psi"], .psi), (["Psi"], .capitalPsi), (["omega"], .omega),
   (["Omega"], .capitalOmega)]

def openingBrackets : List (List String × Symbol) :=
  [(["(", "left("], .leftParen), (["[", "left["], .leftBracket), (["\x7b"], .leftBrace),
   (["|:"], .verticalBar), (["(:", "<<", "langle"], .leftAngle)]

def closingBrackets : List (List String × Symbol) :=
  [([")", "right)"], .rightParen), (["]", "right]"], .rightBracket), (["\x7d"], .rightBrace),
   ([":|"], .verticalBar), ([":)", ">>", "rangle"], .rightAngle)]

def bars : List (List String × Symbol) :=
  [(["|"], .verticalBar)]

def unaryOperators : List (List String × Symbol) :=
  [(["sqrt"], .sqrt), (["abs", "Abs"], .abs), (["norm"], .norm), (["floor"], .floor),
   (["ceil"], .ceil), (["tilde"], .tilde), (["cancel"], .cancel)]

def accents : List (List String × Symbol) :=
  [(["hat"], .hat), (["bar"], .overline), (["vec"], .vector), (["dot"], .dot), (["ddot"], .ddot),
   (["overarc", "overparen"], .overarc), (["ul", "underline"], .underline),
   (["ubrace", "underbrace"], .underbrace), (["obrace", "overbrace"], .overbrace)]

def fonts : List (List String × Symbol) :=
  [(["bb", "mathbf"], .bold), (["bbb", "mathbb"], .doubleStruck), (["ii"], .italic),
   (["bii"], .boldItalic), (["cc", "mathcal"], .script), (["bcc"], .boldScript),
   (["tt", "mathtt"], .monospace), (["fr", "mathfrak"], .fraktur), (["bfr"], .boldFraktur),
   (["sf", "mathsf"], .sansSerif), (["bsf"], .boldSansSerif), (["sfi"], .sansSerifItalic),
   (["sfbi"], .sansSerifBoldItalic), (["rm"], .roman)]

def binaryOperators : List (List String × Symbol) :=
  [(["root"], .root), (["frac"], .frac), (["stackrel"], .stackrel), (["overset"], .overset),
   (["underset"], .underset)]

def infixOperators : List (List String × Symbol) :=
  [(["/"], .frac), (["_"], .sub), (["^"], .sup)]

/-- The entries of one kind, symbol by symbol. -/
def entries (kind : TokenKind) (symbols : List (List String × Symbol)) : List (String × Entry) :=
  symbols.flatMap fun (spellings, symbol) ↦
    spellings.map fun spelling ↦ (spelling, { symbol := some symbol, kind })

end Table

open Table in
/-- The standard spellings. The two brackets without a symbol group a formula unseen, and `color`
reads its first operand as a color. -/
def table : List (String × Entry) :=
  entries .symbol
    (operations ++ relations ++ logic ++ miscellany ++ functions ++ arrows ++ greekLetters) ++
  entries .opening openingBrackets ++ [("\x7b:", { symbol := none, kind := .opening })] ++
  entries .closing closingBrackets ++ [(":\x7d", { symbol := none, kind := .closing })] ++
  entries .bar bars ++
  entries .unary (unaryOperators ++ accents ++ fonts) ++
  entries .binary binaryOperators ++
  [("color", { symbol := some .color, kind := .binary, conversions := some .firstToColor })] ++
  entries .infixOp infixOperators

/-- The number of bytes of the longest standard spelling, which has ASCII characters only. -/
def maxSpelling : Nat := 21

theorem maxSpelling_eq : maxSpelling = (table.map (·.1.utf8ByteSize)).foldl Nat.max 0 := by
  decide +kernel

end FormulaMarkup.Symbol
