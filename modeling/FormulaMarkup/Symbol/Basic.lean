/-!
# The symbols of a formula

A `Symbol` is what a piece of a formula stands for, however it is spelled: two spellings of one
symbol are always drawn alike. `Symbol.name` names it in messages, `Symbol.all` lists all symbols
once, in the order of their declaration.
-/

namespace FormulaMarkup

/-- What a spelling stands for. -/
inductive Symbol where
  -- operations
  | plus | minus | cdot | ast | star | slash | backslash | setminus | times | ltimes | rtimes
  | bowtie | div | circ | oplus | otimes | odot | sum | prod | wedge | bigWedge | vee | bigVee
  | cap | bigCap | cup | bigCup
  -- relations
  | equal | notEqual | assign | less | muchLess | greater | muchGreater | lessEqual | greaterEqual
  | prec | succ | preceq | succeq | member | notMember | subset | supset | subsetEqual
  | supsetEqual | equiv | sim | cong | approx | propto
  -- logic
  | and | or | not | implies | ifWord | iff | forAll | thereExists | bot | top | vdash | models
  -- brackets
  | leftParen | rightParen | leftBracket | rightBracket | leftBrace | rightBrace | verticalBar
  | leftAngle | rightAngle
  -- miscellany
  | integral | dx | dy | dz | dt | contourIntegral | partialSign | nabla | plusMinus | minusPlus
  | emptySet | infinity | aleph | ellipsis | therefore | because | angle | triangle | prime
  | tilde | space | frown | quad | qquad | cdots | vdots | ddots | diamond | square | leftFloor
  | rightFloor | leftCeiling | rightCeiling | doubleStruckC | doubleStruckN | doubleStruckQ
  | doubleStruckR | doubleStruckZ | letterF | letterG
  -- functions
  | lim | capitalLim | min | max | sin | capitalSin | cos | capitalCos | tan | capitalTan | sinh
  | capitalSinh | cosh | capitalCosh | tanh | capitalTanh | cot | capitalCot | sec | capitalSec
  | csc | capitalCsc | arcsin | arccos | arctan | coth | sech | csch | exp | abs | norm | floor
  | ceil | log | capitalLog | ln | capitalLn | det | dim | ker | mod | gcd | lcm | lub | glb
  -- arrows
  | upArrow | downArrow | rightArrow | to | rightArrowTail | twoHeadRightArrow
  | twoHeadRightArrowTail | mapsTo | leftArrow | leftRightArrow | doubleRightArrow
  | doubleLeftArrow | doubleLeftRightArrow
  -- structural operators
  | sqrt | root | frac | stackrel | overset | underset | color | sub | sup | cancel
  -- accents
  | hat | overline | vector | dot | ddot | overarc | underline | underbrace | overbrace
  -- fonts
  | bold | doubleStruck | italic | boldItalic | script | boldScript | monospace | fraktur
  | boldFraktur | sansSerif | boldSansSerif | sansSerifItalic | sansSerifBoldItalic | roman
  -- greek
  | alpha | capitalAlpha | beta | capitalBeta | gamma | capitalGamma | delta | capitalDelta
  | epsilon | capitalEpsilon | varEpsilon | zeta | capitalZeta | eta | capitalEta | theta
  | capitalTheta | varTheta | iota | capitalIota | kappa | capitalKappa | lambda | capitalLambda
  | mu | capitalMu | nu | capitalNu | xi | capitalXi | omicron | capitalOmicron | pi | capitalPi
  | rho | capitalRho | sigma | capitalSigma | tau | capitalTau | upsilon | capitalUpsilon | phi
  | capitalPhi | varPhi | chi | capitalChi | psi | capitalPsi | omega | capitalOmega
deriving DecidableEq

namespace Symbol

def name : Symbol → String
  | .plus => "Plus"
  | .minus => "Minus"
  | .cdot => "Cdot"
  | .ast => "Ast"
  | .star => "Star"
  | .slash => "Slash"
  | .backslash => "Backslash"
  | .setminus => "Setminus"
  | .times => "Times"
  | .ltimes => "Ltimes"
  | .rtimes => "Rtimes"
  | .bowtie => "Bowtie"
  | .div => "Div"
  | .circ => "Circ"
  | .oplus => "Oplus"
  | .otimes => "Otimes"
  | .odot => "Odot"
  | .sum => "Sum"
  | .prod => "Prod"
  | .wedge => "Wedge"
  | .bigWedge => "BigWedge"
  | .vee => "Vee"
  | .bigVee => "BigVee"
  | .cap => "Cap"
  | .bigCap => "BigCap"
  | .cup => "Cup"
  | .bigCup => "BigCup"
  | .equal => "Eq"
  | .notEqual => "Ne"
  | .assign => "Assign"
  | .less => "Lt"
  | .muchLess => "Mlt"
  | .greater => "Gt"
  | .muchGreater => "Mgt"
  | .lessEqual => "Le"
  | .greaterEqual => "Ge"
  | .prec => "Prec"
  | .succ => "Succ"
  | .preceq => "Preceq"
  | .succeq => "Succeq"
  | .member => "In"
  | .notMember => "NotIn"
  | .subset => "Subset"
  | .supset => "Supset"
  | .subsetEqual => "SubsetEq"
  | .supsetEqual => "SupsetEq"
  | .equiv => "Equiv"
  | .sim => "Sim"
  | .cong => "Cong"
  | .approx => "Approx"
  | .propto => "Propto"
  | .and => "And"
  | .or => "Or"
  | .not => "Not"
  | .implies => "Implies"
  | .ifWord => "If"
  | .iff => "Iff"
  | .forAll => "Forall"
  | .thereExists => "Exists"
  | .bot => "Bot"
  | .top => "Top"
  | .vdash => "Vdash"
  | .models => "Models"
  | .leftParen => "LParen"
  | .rightParen => "RParen"
  | .leftBracket => "LBracket"
  | .rightBracket => "RBracket"
  | .leftBrace => "LBrace"
  | .rightBrace => "RBrace"
  | .verticalBar => "VBar"
  | .leftAngle => "LAngle"
  | .rightAngle => "RAngle"
  | .integral => "Integral"
  | .dx => "Dx"
  | .dy => "Dy"
  | .dz => "Dz"
  | .dt => "Dt"
  | .contourIntegral => "ContourIntegral"
  | .partialSign => "Partial"
  | .nabla => "Nabla"
  | .plusMinus => "Pm"
  | .minusPlus => "Mp"
  | .emptySet => "EmptySet"
  | .infinity => "Infty"
  | .aleph => "Aleph"
  | .ellipsis => "Ellipsis"
  | .therefore => "Therefore"
  | .because => "Because"
  | .angle => "Angle"
  | .triangle => "Triangle"
  | .prime => "Prime"
  | .tilde => "Tilde"
  | .space => "Nbsp"
  | .frown => "Frown"
  | .quad => "Quad"
  | .qquad => "Qquad"
  | .cdots => "Cdots"
  | .vdots => "Vdots"
  | .ddots => "Ddots"
  | .diamond => "Diamond"
  | .square => "Square"
  | .leftFloor => "LFloor"
  | .rightFloor => "RFloor"
  | .leftCeiling => "LCeiling"
  | .rightCeiling => "RCeiling"
  | .doubleStruckC => "DoubleStruckC"
  | .doubleStruckN => "DoubleStruckN"
  | .doubleStruckQ => "DoubleStruckQ"
  | .doubleStruckR => "DoubleStruckR"
  | .doubleStruckZ => "DoubleStruckZ"
  | .letterF => "F"
  | .letterG => "G"
  | .lim => "Lim"
  | .capitalLim => "CapitalLim"
  | .min => "Min"
  | .max => "Max"
  | .sin => "Sin"
  | .capitalSin => "CapitalSin"
  | .cos => "Cos"
  | .capitalCos => "CapitalCos"
  | .tan => "Tan"
  | .capitalTan => "CapitalTan"
  | .sinh => "Sinh"
  | .capitalSinh => "CapitalSinh"
  | .cosh => "Cosh"
  | .capitalCosh => "CapitalCosh"
  | .tanh => "Tanh"
  | .capitalTanh => "CapitalTanh"
  | .cot => "Cot"
  | .capitalCot => "CapitalCot"
  | .sec => "Sec"
  | .capitalSec => "CapitalSec"
  | .csc => "Csc"
  | .capitalCsc => "CapitalCsc"
  | .arcsin => "Arcsin"
  | .arccos => "Arccos"
  | .arctan => "Arctan"
  | .coth => "Coth"
  | .sech => "Sech"
  | .csch => "Csch"
  | .exp => "Exp"
  | .abs => "Abs"
  | .norm => "Norm"
  | .floor => "Floor"
  | .ceil => "Ceil"
  | .log => "Log"
  | .capitalLog => "CapitalLog"
  | .ln => "Ln"
  | .capitalLn => "CapitalLn"
  | .det => "Det"
  | .dim => "Dim"
  | .ker => "Ker"
  | .mod => "Mod"
  | .gcd => "Gcd"
  | .lcm => "Lcm"
  | .lub => "Lub"
  | .glb => "Glb"
  | .upArrow => "UpArrow"
  | .downArrow => "DownArrow"
  | .rightArrow => "RightArrow"
  | .to => "To"
  | .rightArrowTail => "RightArrowTail"
  | .twoHeadRightArrow => "TwoHeadRightArrow"
  | .twoHeadRightArrowTail => "TwoHeadRightArrowTail"
  | .mapsTo => "MapsTo"
  | .leftArrow => "LeftArrow"
  | .leftRightArrow => "LeftRightArrow"
  | .doubleRightArrow => "DoubleRightArrow"
  | .doubleLeftArrow => "DoubleLeftArrow"
  | .doubleLeftRightArrow => "DoubleLeftRightArrow"
  | .sqrt => "Sqrt"
  | .root => "Root"
  | .frac => "Frac"
  | .stackrel => "Stackrel"
  | .overset => "Overset"
  | .underset => "Underset"
  | .color => "Color"
  | .sub => "Sub"
  | .sup => "Sup"
  | .cancel => "Cancel"
  | .hat => "Hat"
  | .overline => "Overline"
  | .vector => "Vec"
  | .dot => "Dot"
  | .ddot => "Ddot"
  | .overarc => "Overarc"
  | .underline => "Underline"
  | .underbrace => "Underbrace"
  | .overbrace => "Overbrace"
  | .bold => "Bold"
  | .doubleStruck => "DoubleStruck"
  | .italic => "Italic"
  | .boldItalic => "BoldItalic"
  | .script => "Script"
  | .boldScript => "BoldScript"
  | .monospace => "Monospace"
  | .fraktur => "Fraktur"
  | .boldFraktur => "BoldFraktur"
  | .sansSerif => "SansSerif"
  | .boldSansSerif => "BoldSansSerif"
  | .sansSerifItalic => "SansSerifItalic"
  | .sansSerifBoldItalic => "SansSerifBoldItalic"
  | .roman => "Roman"
  | .alpha => "Alpha"
  | .capitalAlpha => "CapitalAlpha"
  | .beta => "Beta"
  | .capitalBeta => "CapitalBeta"
  | .gamma => "Gamma"
  | .capitalGamma => "CapitalGamma"
  | .delta => "Delta"
  | .capitalDelta => "CapitalDelta"
  | .epsilon => "Epsilon"
  | .capitalEpsilon => "CapitalEpsilon"
  | .varEpsilon => "VarEpsilon"
  | .zeta => "Zeta"
  | .capitalZeta => "CapitalZeta"
  | .eta => "Eta"
  | .capitalEta => "CapitalEta"
  | .theta => "Theta"
  | .capitalTheta => "CapitalTheta"
  | .varTheta => "VarTheta"
  | .iota => "Iota"
  | .capitalIota => "CapitalIota"
  | .kappa => "Kappa"
  | .capitalKappa => "CapitalKappa"
  | .lambda => "Lambda"
  | .capitalLambda => "CapitalLambda"
  | .mu => "Mu"
  | .capitalMu => "CapitalMu"
  | .nu => "Nu"
  | .capitalNu => "CapitalNu"
  | .xi => "Xi"
  | .capitalXi => "CapitalXi"
  | .omicron => "Omicron"
  | .capitalOmicron => "CapitalOmicron"
  | .pi => "Pi"
  | .capitalPi => "CapitalPi"
  | .rho => "Rho"
  | .capitalRho => "CapitalRho"
  | .sigma => "Sigma"
  | .capitalSigma => "CapitalSigma"
  | .tau => "Tau"
  | .capitalTau => "CapitalTau"
  | .upsilon => "Upsilon"
  | .capitalUpsilon => "CapitalUpsilon"
  | .phi => "Phi"
  | .capitalPhi => "CapitalPhi"
  | .varPhi => "VarPhi"
  | .chi => "Chi"
  | .capitalChi => "CapitalChi"
  | .psi => "Psi"
  | .capitalPsi => "CapitalPsi"
  | .omega => "Omega"
  | .capitalOmega => "CapitalOmega"

/-- Every symbol once. -/
def all : List Symbol :=
  [.plus, .minus, .cdot, .ast, .star, .slash, .backslash, .setminus, .times, .ltimes, .rtimes,
   .bowtie, .div, .circ, .oplus, .otimes, .odot, .sum, .prod, .wedge, .bigWedge, .vee, .bigVee,
   .cap, .bigCap, .cup, .bigCup, .equal, .notEqual, .assign, .less, .muchLess, .greater,
   .muchGreater, .lessEqual, .greaterEqual, .prec, .succ, .preceq, .succeq, .member, .notMember,
   .subset, .supset, .subsetEqual, .supsetEqual, .equiv, .sim, .cong, .approx, .propto, .and, .or,
   .not, .implies, .ifWord, .iff, .forAll, .thereExists, .bot, .top, .vdash, .models, .leftParen,
   .rightParen, .leftBracket, .rightBracket, .leftBrace, .rightBrace, .verticalBar, .leftAngle,
   .rightAngle, .integral, .dx, .dy, .dz, .dt, .contourIntegral, .partialSign, .nabla, .plusMinus,
   .minusPlus, .emptySet, .infinity, .aleph, .ellipsis, .therefore, .because, .angle, .triangle,
   .prime, .tilde, .space, .frown, .quad, .qquad, .cdots, .vdots, .ddots, .diamond, .square,
   .leftFloor, .rightFloor, .leftCeiling, .rightCeiling, .doubleStruckC, .doubleStruckN,
   .doubleStruckQ, .doubleStruckR, .doubleStruckZ, .letterF, .letterG, .lim, .capitalLim, .min,
   .max, .sin, .capitalSin, .cos, .capitalCos, .tan, .capitalTan, .sinh, .capitalSinh, .cosh,
   .capitalCosh, .tanh, .capitalTanh, .cot, .capitalCot, .sec, .capitalSec, .csc, .capitalCsc,
   .arcsin, .arccos, .arctan, .coth, .sech, .csch, .exp, .abs, .norm, .floor, .ceil, .log,
   .capitalLog, .ln, .capitalLn, .det, .dim, .ker, .mod, .gcd, .lcm, .lub, .glb, .upArrow,
   .downArrow, .rightArrow, .to, .rightArrowTail, .twoHeadRightArrow, .twoHeadRightArrowTail,
   .mapsTo, .leftArrow, .leftRightArrow, .doubleRightArrow, .doubleLeftArrow,
   .doubleLeftRightArrow, .sqrt, .root, .frac, .stackrel, .overset, .underset, .color, .sub, .sup,
   .cancel, .hat, .overline, .vector, .dot, .ddot, .overarc, .underline, .underbrace, .overbrace,
   .bold, .doubleStruck, .italic, .boldItalic, .script, .boldScript, .monospace, .fraktur,
   .boldFraktur, .sansSerif, .boldSansSerif, .sansSerifItalic, .sansSerifBoldItalic, .roman,
   .alpha, .capitalAlpha, .beta, .capitalBeta, .gamma, .capitalGamma, .delta, .capitalDelta,
   .epsilon, .capitalEpsilon, .varEpsilon, .zeta, .capitalZeta, .eta, .capitalEta, .theta,
   .capitalTheta, .varTheta, .iota, .capitalIota, .kappa, .capitalKappa, .lambda, .capitalLambda,
   .mu, .capitalMu, .nu, .capitalNu, .xi, .capitalXi, .omicron, .capitalOmicron, .pi, .capitalPi,
   .rho, .capitalRho, .sigma, .capitalSigma, .tau, .capitalTau, .upsilon, .capitalUpsilon, .phi,
   .capitalPhi, .varPhi, .chi, .capitalChi, .psi, .capitalPsi, .omega, .capitalOmega]

def ofName? (name : String) : Option Symbol := all.find? fun symbol ↦ symbol.name = name

theorem mem_all (symbol : Symbol) : symbol ∈ all := by
  have h : all[symbol.ctorIdx]? = some symbol := by cases symbol <;> rfl
  exact List.mem_of_getElem? h

end Symbol

end FormulaMarkup
