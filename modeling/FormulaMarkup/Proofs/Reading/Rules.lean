import FormulaMarkup.Formula.Reader
import FormulaMarkup.Proofs.Reading.Stream

/-!
# Reading as rules

`Reads level closer tokens result rest` says that reading at a level, inside a bracket that `closer`
closes, makes `result` of the front of a stream and leaves `rest`. There is one rule for each way a
reader can go, and it names everything that the way depends on. The rules speak of a list of tokens
only: neither the lexer, nor its token given back, nor a number of steps occurs in them.

Every stream can be read at every level (`exists_reads`), and what is left is a suffix of it
(`Reads.suffix`), a proper one where a formula was read (`Reads.length_lt`). What is kept by each
way to make a formula holds of all that is read (`Reads.forall_of_closed`).
-/

namespace FormulaMarkup

def Token.operator (token : Token) : Operator := ⟨token.symbol, token.text⟩

/-- The formula of a token that stands for itself. -/
def Token.leaf? (token : Token) : Option Formula :=
  match token.kind with
  | .number => some (.number token.text)
  | .text => some (.text token.text)
  | .identifier => some (.identifier token.text)
  | .symbol | .infixOp => some (.symbol token.mark)
  | _ => none

/-- Does the token open a bracket? A bar does where it does not close one. -/
def Token.Opens (token : Token) : Prop := token.kind = .opening ∨ token.kind = .bar

theorem Token.isInfix_iff {token : Token} {symbol : Symbol} :
    token.isInfix symbol = true ↔ token.kind = .infixOp ∧ token.symbol = some symbol := by
  simp [Token.isInfix]

theorem Token.isInfix_eq_false {token : Token} (h : token.kind ≠ .infixOp) (symbol : Symbol) :
    token.isInfix symbol = false := by
  simp [Token.isInfix, h]

theorem Token.isInfix_eq_false_of_ne {token : Token} {symbol other : Symbol}
    (h : token.isInfix symbol = true) (hne : symbol ≠ other) : token.isInfix other = false := by
  simp [Token.isInfix, (Token.isInfix_iff.mp h).2, hne]

namespace Formula

/-- A base with the scripts that were read, if any. -/
def withScripts (base : Formula) : Option Formula → Option Formula → Formula
  | none, none => base
  | some lower, none => .sub base lower.asOperand
  | none, some upper => .sup base upper.asOperand
  | some lower, some upper => .subSup base lower.asOperand upper.asOperand

/-- A formula and what is read behind it, next to each other. -/
def followedBy (first : Formula) : Option Formula → Formula
  | none => first
  | some more => first.concat more

end Formula

namespace Reading

/-- An operand, which is an empty identifier where none was read. -/
def operandOf : Option Formula → Formula
  | some formula => formula.asOperand
  | none => .identifier ""

def unaryOf (operator : Token) (only : Option Formula) : Formula :=
  .unary operator.operator ((operandOf only).converted (operator.conversions.getD {}).operand)

def binaryOf (operator : Token) (first second : Option Formula) : Formula :=
  .binary operator.operator ((operandOf first).converted (operator.conversions.getD {}).first)
    ((operandOf second).converted (operator.conversions.getD {}).second)

def fractionOf (line : Token) (above below : Formula) : Formula :=
  .infixOp line.operator above.asOperand below.asOperand

inductive Level where
  | simple
  | scripted
  | expression

inductive Reads : Level → Option TokenKind → List Token → Option Formula → List Token → Prop
  -- a simple formula
  | ended {closer tokens} (hend : (ahead tokens).kind = .endOfInput) :
      Reads .simple closer tokens none tokens.tail
  | leaf {closer token rest formula} (hleaf : token.leaf? = some formula) :
      Reads .simple closer (token :: rest) (some formula) rest
  | stray {token rest} (hkind : token.kind = .closing) :
      Reads .simple none (token :: rest) (some (.symbol token.mark)) rest
  | closing {kind token rest} (hkind : token.kind = .closing) :
      Reads .simple (some kind) (token :: rest) none (token :: rest)
  | unary {closer operator tokens only rest} (hkind : operator.kind = .unary)
      (honly : Reads .simple closer tokens only rest) :
      Reads .simple closer (operator :: tokens) (some (unaryOf operator only)) rest
  | binary {closer operator tokens first middle second rest} (hkind : operator.kind = .binary)
      (hfirst : Reads .simple closer tokens first middle)
      (hsecond : Reads .simple closer middle second rest) :
      Reads .simple closer (operator :: tokens) (some (binaryOf operator first second)) rest
  | emptyBracket {closer left right rest} (hopens : left.Opens)
      (hcloses : right.kind = Reader.closerOf left) :
      Reads .simple closer (left :: right :: rest)
        (some (.bracketed (some left.mark) none (some right.mark))) rest
  | bracket {closer left tokens body right rest} (hopens : left.Opens)
      (hfull : (ahead tokens).kind ≠ Reader.closerOf left)
      (hbody : Reads .expression (some (Reader.closerOf left)) (glanced tokens) body
        (right :: rest))
      (hcloses : right.kind = Reader.closerOf left) :
      Reads .simple closer (left :: tokens) (some (Matrix.enclose left.mark body right.mark)) rest
  | unclosed {closer left tokens body rest} (hopens : left.Opens)
      (hfull : (ahead tokens).kind ≠ Reader.closerOf left)
      (hbody : Reads .expression (some (Reader.closerOf left)) (glanced tokens) body rest)
      (hopen : (ahead rest).kind ≠ Reader.closerOf left) :
      Reads .simple closer (left :: tokens) (some (Reader.unclosed left body)) (glanced rest)
  -- a simple formula with its scripts
  | absent {closer tokens rest} (hbase : Reads .simple closer tokens none rest) :
      Reads .scripted closer tokens none rest
  | bare {closer tokens base rest} (hbase : Reads .simple closer tokens (some base) rest)
      (hsub : (ahead rest).isInfix .sub = false) (hsup : (ahead rest).isInfix .sup = false) :
      Reads .scripted closer tokens (some base) (glanced rest)
  | danglingSub {closer tokens base sub middle rest}
      (hbase : Reads .simple closer tokens (some base) (sub :: middle))
      (hsub : sub.isInfix .sub = true) (hlower : Reads .simple closer middle none rest) :
      Reads .scripted closer tokens (some base) rest
  | sub {closer tokens base sub middle lower rest}
      (hbase : Reads .simple closer tokens (some base) (sub :: middle))
      (hsub : sub.isInfix .sub = true) (hlower : Reads .simple closer middle (some lower) rest)
      (hsup : (ahead rest).isInfix .sup = false) :
      Reads .scripted closer tokens (some (base.withScripts (some lower) none)) (glanced rest)
  | subSup {closer tokens base sub middle lower sup last upper rest}
      (hbase : Reads .simple closer tokens (some base) (sub :: middle))
      (hsub : sub.isInfix .sub = true)
      (hlower : Reads .simple closer middle (some lower) (sup :: last))
      (hsup : sup.isInfix .sup = true) (hupper : Reads .simple closer last upper rest) :
      Reads .scripted closer tokens (some (base.withScripts (some lower) upper)) rest
  | sup {closer tokens base sup middle upper rest}
      (hbase : Reads .simple closer tokens (some base) (sup :: middle))
      (hsup : sup.isInfix .sup = true) (hupper : Reads .simple closer middle upper rest) :
      Reads .scripted closer tokens (some (base.withScripts none upper)) rest
  -- a run of items
  | nothing {closer tokens rest} (hfirst : Reads .scripted closer tokens none rest) :
      Reads .expression closer tokens none rest
  | fraction {closer tokens above line middle below later more rest}
      (habove : Reads .scripted closer tokens (some above) (line :: middle))
      (hline : line.isInfix .frac = true)
      (hbelow : Reads .scripted closer middle (some below) later)
      (hmore : Reads .expression closer later more rest) :
      Reads .expression closer tokens (some ((fractionOf line above below).followedBy more)) rest
  | danglingFrac {closer tokens above line middle later more rest}
      (habove : Reads .scripted closer tokens (some above) (line :: middle))
      (hline : line.isInfix .frac = true) (hbelow : Reads .scripted closer middle none later)
      (hmore : Reads .expression closer later more rest) :
      Reads .expression closer tokens (some (above.followedBy more)) rest
  | last {closer tokens item rest} (hitem : Reads .scripted closer tokens (some item) rest)
      (hend : (ahead rest).kind = .endOfInput) :
      Reads .expression closer tokens (some item) rest.tail
  | closed {closer tokens item rest} (hitem : Reads .scripted closer tokens (some item) rest)
      (hline : (ahead rest).isInfix .frac = false) (hend : (ahead rest).kind ≠ .endOfInput)
      (hcloses : some (ahead rest).kind = closer) :
      Reads .expression closer tokens (some item) rest
  | item {closer tokens item middle more rest}
      (hitem : Reads .scripted closer tokens (some item) middle)
      (hline : (ahead middle).isInfix .frac = false) (hend : (ahead middle).kind ≠ .endOfInput)
      (hcloses : some (ahead middle).kind ≠ closer)
      (hmore : Reads .expression closer middle more rest) :
      Reads .expression closer tokens (some (item.followedBy more)) rest

/-! ## What is left of the stream -/

theorem Reads.suffix {level closer tokens result rest}
    (h : Reads level closer tokens result rest) : rest <:+ tokens := by
  induction h with
  | ended => exact List.tail_suffix _
  | leaf | stray => exact List.suffix_cons _ _
  | closing => exact List.suffix_rfl
  | unary _ _ ih => exact ih.trans (List.suffix_cons _ _)
  | binary _ _ _ ihfirst ihsecond =>
    exact (ihsecond.trans ihfirst).trans (List.suffix_cons _ _)
  | emptyBracket => exact (List.suffix_cons _ _).trans (List.suffix_cons _ _)
  | @bracket _ left tokens _ right rest _ _ _ _ ih =>
    have hbody : rest <:+ glanced tokens := (List.suffix_cons right rest).trans ih
    exact (hbody.trans (glanced_suffix tokens)).trans (List.suffix_cons left tokens)
  | @unclosed _ left tokens _ rest _ _ _ _ ih =>
    have hbody : glanced rest <:+ glanced tokens := (glanced_suffix rest).trans ih
    exact (hbody.trans (glanced_suffix tokens)).trans (List.suffix_cons left tokens)
  | absent _ ih => exact ih
  | bare _ _ _ ih => exact (glanced_suffix _).trans ih
  | danglingSub _ _ _ ihbase ihlower =>
    exact (ihlower.trans (List.suffix_cons _ _)).trans ihbase
  | sub _ _ _ _ ihbase ihlower =>
    exact (((glanced_suffix _).trans ihlower).trans (List.suffix_cons _ _)).trans ihbase
  | subSup _ _ _ _ _ ihbase ihlower ihupper =>
    have hlast := (ihupper.trans (List.suffix_cons _ _)).trans ihlower
    exact (hlast.trans (List.suffix_cons _ _)).trans ihbase
  | sup _ _ _ ihbase ihupper => exact (ihupper.trans (List.suffix_cons _ _)).trans ihbase
  | nothing _ ih => exact ih
  | fraction _ _ _ _ ihabove ihbelow ihmore | danglingFrac _ _ _ _ ihabove ihbelow ihmore =>
    exact ((ihmore.trans ihbelow).trans (List.suffix_cons _ _)).trans ihabove
  | last _ _ ih => exact (List.tail_suffix _).trans ih
  | closed _ _ _ _ ih => exact ih
  | item _ _ _ _ _ ihitem ihmore => exact ihmore.trans ihitem

/-- What holds of all tokens holds of those that are left. -/
theorem forall_of_suffix {fits : Token → Prop} {tokens rest : List Token}
    (h : ∀ token ∈ tokens, fits token) (hsuffix : rest <:+ tokens) :
    ∀ token ∈ rest, fits token :=
  fun token hmem ↦ h token (hsuffix.subset hmem)

theorem forall_behind {fits : Token → Prop} {tokens rest : List Token} {token : Token}
    (h : ∀ token ∈ tokens, fits token) (hsuffix : token :: rest <:+ tokens) :
    ∀ token ∈ rest, fits token :=
  forall_of_suffix h ((List.suffix_cons token rest).trans hsuffix)

theorem Reads.length_le {level closer tokens result rest}
    (h : Reads level closer tokens result rest) : rest.length ≤ tokens.length :=
  h.suffix.length_le

theorem length_glanced_le (tokens : List Token) : (glanced tokens).length ≤ tokens.length :=
  (glanced_suffix tokens).length_le

theorem length_lt_cons (token : Token) (rest : List Token) :
    rest.length < (token :: rest).length :=
  Nat.lt_succ_self _

/-- A formula takes up a token. -/
theorem Reads.length_lt {level closer tokens formula rest}
    (h : Reads level closer tokens (some formula) rest) : rest.length < tokens.length := by
  generalize hresult : some formula = result at h
  induction h generalizing formula with
  | ended | closing | absent | nothing => cases hresult
  | leaf | stray => exact length_lt_cons _ _
  | unary _ honly => exact Nat.lt_succ_of_le honly.length_le
  | binary _ hfirst hsecond =>
    exact Nat.lt_succ_of_le (hsecond.length_le.trans hfirst.length_le)
  | emptyBracket => exact (length_lt_cons _ _).trans (length_lt_cons _ _)
  | @bracket _ left tokens _ right rest _ _ hbody =>
    calc rest.length
      _ < (right :: rest).length := length_lt_cons right rest
      _ ≤ (glanced tokens).length := hbody.length_le
      _ ≤ tokens.length := length_glanced_le tokens
      _ < (left :: tokens).length := length_lt_cons left tokens
  | @unclosed _ left tokens _ rest _ _ hbody =>
    calc (glanced rest).length
      _ ≤ rest.length := length_glanced_le rest
      _ ≤ (glanced tokens).length := hbody.length_le
      _ ≤ tokens.length := length_glanced_le tokens
      _ < (left :: tokens).length := length_lt_cons left tokens
  | bare _ _ _ ih => exact (length_glanced_le _).trans_lt (ih rfl)
  | @danglingSub _ tokens _ sub middle rest _ _ hlower ihbase =>
    calc rest.length
      _ ≤ middle.length := hlower.length_le
      _ < (sub :: middle).length := length_lt_cons sub middle
      _ < tokens.length := ihbase rfl
  | @sub _ tokens _ sub middle _ rest _ _ hlower _ ihbase =>
    calc (glanced rest).length
      _ ≤ rest.length := length_glanced_le rest
      _ ≤ middle.length := hlower.length_le
      _ < (sub :: middle).length := length_lt_cons sub middle
      _ < tokens.length := ihbase rfl
  | @subSup _ tokens _ sub middle _ sup last _ rest _ _ hlower _ hupper ihbase =>
    calc rest.length
      _ ≤ last.length := hupper.length_le
      _ < (sup :: last).length := length_lt_cons sup last
      _ ≤ middle.length := hlower.length_le
      _ < (sub :: middle).length := length_lt_cons sub middle
      _ < tokens.length := ihbase rfl
  | @sup _ tokens _ sup middle _ rest _ _ hupper ihbase =>
    calc rest.length
      _ ≤ middle.length := hupper.length_le
      _ < (sup :: middle).length := length_lt_cons sup middle
      _ < tokens.length := ihbase rfl
  | @fraction _ tokens _ line middle _ later _ rest _ _ hbelow hmore ihabove =>
    calc rest.length
      _ ≤ later.length := hmore.length_le
      _ ≤ middle.length := hbelow.length_le
      _ < (line :: middle).length := length_lt_cons line middle
      _ < tokens.length := ihabove rfl
  | @danglingFrac _ tokens _ line middle later _ rest _ _ hbelow hmore ihabove =>
    calc rest.length
      _ ≤ later.length := hmore.length_le
      _ ≤ middle.length := hbelow.length_le
      _ < (line :: middle).length := length_lt_cons line middle
      _ < tokens.length := ihabove rfl
  | last _ _ ih => exact (List.tail_suffix _).length_le.trans_lt (ih rfl)
  | closed _ _ _ _ ih => exact ih rfl
  | item _ _ _ _ hmore ihitem => exact hmore.length_le.trans_lt (ihitem rfl)

/-- Where no token ends the input, only the input itself ends it. -/
theorem eq_nil_of_ended {tokens : List Token} (hends : ∀ token ∈ tokens, token.kind ≠ .endOfInput)
    (hend : (ahead tokens).kind = .endOfInput) : tokens = [] := by
  cases tokens with
  | nil => rfl
  | cons token tokens => exact absurd hend (hends token List.mem_cons_self)

/-- There, a look at the next token loses nothing. -/
theorem glanced_eq_of_unending {tokens : List Token}
    (h : ∀ token ∈ tokens, token.kind ≠ .endOfInput) : glanced tokens = tokens := by
  cases tokens with
  | nil => rfl
  | cons token tokens => exact glanced_of_kind_ahead (h token List.mem_cons_self)

/-- Where an expression ends, or no formula starts, the input ends or a bracket closes, of the kind
that was to be closed or of another one. -/
theorem Reads.stops {level closer tokens result rest} (h : Reads level closer tokens result rest)
    (hends : ∀ token ∈ tokens, token.kind ≠ .endOfInput)
    (hdone : level = .expression ∨ result = none) :
    rest = [] ∨ ∃ kind ∈ closer, (ahead rest).kind = kind ∨ (ahead rest).kind = .closing := by
  induction h with
  | ended hend =>
    left
    rw [eq_nil_of_ended hends hend]
    rfl
  | closing hkind => exact .inr ⟨_, rfl, .inr hkind⟩
  | absent _ ih => exact ih hends (.inr rfl)
  | nothing _ ih => exact ih hends (.inr rfl)
  | fraction habove _ hbelow _ _ _ ih | danglingFrac habove _ hbelow _ _ _ ih =>
    have hmiddle := forall_behind hends habove.suffix
    exact ih (forall_of_suffix hmiddle hbelow.suffix) (.inl rfl)
  | last hitem hend =>
    left
    rw [eq_nil_of_ended (forall_of_suffix hends hitem.suffix) hend]
    rfl
  | closed _ _ _ hcloses => exact .inr ⟨_, hcloses.symm, .inl rfl⟩
  | item hitem _ _ _ _ _ ih => exact ih (forall_of_suffix hends hitem.suffix) (.inl rfl)
  | _ => rcases hdone with hlevel | hresult <;> contradiction

/-- Outside brackets only the end of the input stops an expression or hides a formula. -/
theorem Reads.rest_eq_nil {level tokens result rest} (h : Reads level none tokens result rest)
    (hends : ∀ token ∈ tokens, token.kind ≠ .endOfInput)
    (hdone : level = .expression ∨ result = none) : rest = [] := by
  rcases h.stops hends hdone with hnil | ⟨_, hnone, -⟩
  · exact hnil
  · cases hnone

theorem forall_mem_some {α : Type} {property : α → Prop} {value : α} (h : property value) :
    ∀ read ∈ some value, property read := by
  intro read hmem
  exact Option.mem_some.mp hmem ▸ h

/-! ## What the rules make of fitting tokens -/

/-- Each way to make a formula out of tokens that fit keeps a property of single formulas, simple or
with scripts, or a weaker one of runs of items. -/
structure Closed (fits : Token → Prop) (single run : Formula → Prop) : Prop where
  leaf : ∀ {token : Token} {formula : Formula}, fits token → token.leaf? = some formula →
    single formula
  stray : ∀ {token : Token}, fits token → token.kind = .closing → single (.symbol token.mark)
  unary : ∀ {operator : Token} {only : Option Formula}, fits operator → operator.kind = .unary →
    (∀ formula ∈ only, single formula) → single (unaryOf operator only)
  binary : ∀ {operator : Token} {first second : Option Formula}, fits operator →
    operator.kind = .binary → (∀ formula ∈ first, single formula) →
    (∀ formula ∈ second, single formula) → single (binaryOf operator first second)
  enclose : ∀ {left right : Token} {body : Option Formula}, fits left → left.Opens →
    right.kind = Reader.closerOf left → (∀ formula ∈ body, run formula) →
    single (Matrix.enclose left.mark body right.mark)
  unclosed : ∀ {left : Token} {body : Option Formula}, fits left → left.Opens →
    (∀ formula ∈ body, run formula) → single (Reader.unclosed left body)
  withScripts : ∀ {base : Formula} {lower upper : Option Formula}, single base →
    (∀ formula ∈ lower, single formula) → (∀ formula ∈ upper, single formula) →
    single (base.withScripts lower upper)
  fraction : ∀ {line : Token} {above below : Formula}, fits line → line.isInfix .frac = true →
    single above → single below → single (fractionOf line above below)
  followedBy : ∀ {first : Formula} {more : Option Formula}, single first →
    (∀ formula ∈ more, run formula) → run (first.followedBy more)
  run_of_single : ∀ {formula : Formula}, single formula → run formula

/-- The property of what is read at a level. -/
def Level.choose (single run : Formula → Prop) : Level → Formula → Prop
  | simple | scripted => single
  | expression => run

/-- Properties that are kept hold of each formula that is read at their level. -/
theorem Reads.forall_of_closedAt {fits : Token → Prop} {single run : Formula → Prop}
    (hclosed : Closed fits single run) {level closer tokens result rest}
    (h : Reads level closer tokens result rest) (hfits : ∀ token ∈ tokens, fits token) :
    ∀ formula ∈ result, level.choose single run formula := by
  have hnone : ∀ {holds : Formula → Prop}, ∀ formula ∈ (none : Option Formula), holds formula := by
    intro _ formula hmem
    cases hmem
  induction h with
  | ended | closing | absent | nothing => exact hnone
  | leaf hleaf => exact forall_mem_some (hclosed.leaf (hfits _ List.mem_cons_self) hleaf)
  | stray hkind => exact forall_mem_some (hclosed.stray (hfits _ List.mem_cons_self) hkind)
  | unary hkind _ ih =>
    rw [List.forall_mem_cons] at hfits
    exact forall_mem_some (hclosed.unary hfits.1 hkind (ih hfits.2))
  | binary hkind hfirst _ ihfirst ihsecond =>
    rw [List.forall_mem_cons] at hfits
    have hmiddle := forall_of_suffix hfits.2 hfirst.suffix
    exact forall_mem_some
      (hclosed.binary hfits.1 hkind (ihfirst hfits.2) (ihsecond hmiddle))
  | emptyBracket hopens hcloses =>
    exact forall_mem_some (hclosed.enclose (hfits _ List.mem_cons_self) hopens hcloses hnone)
  | @bracket _ left tokens _ _ _ hopens _ _ hcloses ih =>
    rw [List.forall_mem_cons] at hfits
    have hbody := ih (forall_of_suffix hfits.2 (glanced_suffix tokens))
    exact forall_mem_some (hclosed.enclose hfits.1 hopens hcloses hbody)
  | @unclosed _ left tokens _ _ hopens _ _ _ ih =>
    rw [List.forall_mem_cons] at hfits
    have hbody := ih (forall_of_suffix hfits.2 (glanced_suffix tokens))
    exact forall_mem_some (hclosed.unclosed hfits.1 hopens hbody)
  | bare _ _ _ ih => exact ih hfits
  | danglingSub _ _ _ ih => exact ih hfits
  | sub hbase _ _ _ ihbase ihlower =>
    have hmiddle := forall_behind hfits hbase.suffix
    exact forall_mem_some (hclosed.withScripts (ihbase hfits _ rfl) (ihlower hmiddle) hnone)
  | subSup hbase _ hlower _ _ ihbase ihlower ihupper =>
    have hmiddle := forall_behind hfits hbase.suffix
    have hlast := forall_behind hmiddle hlower.suffix
    exact forall_mem_some
      (hclosed.withScripts (ihbase hfits _ rfl) (ihlower hmiddle) (ihupper hlast))
  | sup hbase _ _ ihbase ihupper =>
    have hmiddle := forall_behind hfits hbase.suffix
    exact forall_mem_some (hclosed.withScripts (ihbase hfits _ rfl) hnone (ihupper hmiddle))
  | fraction habove hline hbelow _ ihabove ihbelow ihmore =>
    have hfront := List.forall_mem_cons.mp (forall_of_suffix hfits habove.suffix)
    have hlater := forall_of_suffix hfront.2 hbelow.suffix
    have hfraction := hclosed.fraction hfront.1 hline (ihabove hfits _ rfl)
      (ihbelow hfront.2 _ rfl)
    exact forall_mem_some (hclosed.followedBy hfraction (ihmore hlater))
  | danglingFrac habove _ hbelow _ ihabove _ ihmore =>
    have hmiddle := forall_behind hfits habove.suffix
    have hlater := forall_of_suffix hmiddle hbelow.suffix
    exact forall_mem_some (hclosed.followedBy (ihabove hfits _ rfl) (ihmore hlater))
  | last _ _ ih | closed _ _ _ _ ih =>
    exact fun formula hmem ↦ hclosed.run_of_single (ih hfits formula hmem)
  | item hitem _ _ _ _ ihitem ihmore =>
    have hmiddle := forall_of_suffix hfits hitem.suffix
    exact forall_mem_some (hclosed.followedBy (ihitem hfits _ rfl) (ihmore hmiddle))

/-- A property that is kept at every level holds of each formula that is read. -/
theorem Reads.forall_of_closed {fits : Token → Prop} {holds : Formula → Prop}
    (hclosed : Closed fits holds holds) {level closer tokens result rest}
    (h : Reads level closer tokens result rest) (hfits : ∀ token ∈ tokens, fits token) :
    ∀ formula ∈ result, holds formula := by
  have hall := h.forall_of_closedAt hclosed hfits
  cases level <;> exact hall

theorem closed_true {fits : Token → Prop} : Closed fits (fun _ ↦ True) fun _ ↦ True where
  leaf _ _ := trivial
  stray _ _ := trivial
  unary _ _ _ := trivial
  binary _ _ _ _ := trivial
  enclose _ _ _ _ := trivial
  unclosed _ _ _ := trivial
  withScripts _ _ _ := trivial
  fraction _ _ _ _ := trivial
  followedBy _ _ := trivial
  run_of_single _ := trivial

/-! ## Sequences are flat and have more than one item -/

/-- The items of what is read behind a formula. -/
def itemsOf : Option Formula → List Formula
  | none => []
  | some formula => formula.items

@[simp]
theorem itemsOf_none : itemsOf none = [] := rfl

@[simp]
theorem itemsOf_some (formula : Formula) : itemsOf (some formula) = formula.items := rfl

theorem items_followedBy (first : Formula) (more : Option Formula) :
    (first.followedBy more).items = first.items ++ itemsOf more := by
  cases more with
  | none => simp [Formula.followedBy]
  | some more => simp [Formula.followedBy]

/-- A formula that its items make up again. -/
def Settled (formula : Formula) : Prop := Formula.ofItems? formula.items = some formula

theorem Settled.items_ne_nil {formula : Formula} (h : Settled formula) : formula.items ≠ [] := by
  intro hnil
  rw [Settled, hnil] at h
  cases h

theorem settled_concat {left right : Formula} (hleft : left.items ≠ [])
    (hright : right.items ≠ []) : Settled (left.concat right) := by
  obtain ⟨a, as, ha⟩ := List.exists_cons_of_ne_nil hleft
  obtain ⟨b, bs, hb⟩ := List.exists_cons_of_ne_nil hright
  rw [Settled, Formula.items_concat, Formula.concat_eq, ha, hb]
  cases as <;> rfl

theorem settled_followedBy {first : Formula} {more : Option Formula} (hfirst : Settled first)
    (hmore : ∀ formula ∈ more, Settled formula) : Settled (first.followedBy more) := by
  cases more with
  | none => exact hfirst
  | some more => exact settled_concat hfirst.items_ne_nil (hmore more rfl).items_ne_nil

theorem items_enclose (left right : Mark) (body : Option Formula) :
    (Matrix.enclose left body right).items = [Matrix.enclose left body right] := by
  unfold Matrix.enclose
  split <;> rfl

theorem settled_enclose (left right : Mark) (body : Option Formula) :
    Settled (Matrix.enclose left body right) := by
  rw [Settled, items_enclose]
  rfl

/-- A bar that is not closed is the symbol before its body. Another bracket stays open. -/
theorem unclosed_eq (left : Token) (body : Option Formula) :
    Reader.unclosed left body =
      if left.kind = .bar then (Formula.symbol left.mark).followedBy body
      else .bracketed (some left.mark) body none := by
  unfold Reader.unclosed
  cases body <;> rfl

theorem settled_unclosed (left : Token) {body : Option Formula}
    (hbody : ∀ formula ∈ body, Settled formula) : Settled (Reader.unclosed left body) := by
  rw [unclosed_eq]
  split
  · exact settled_followedBy rfl hbody
  · rfl

theorem settled_withScripts {base : Formula} (hbase : Settled base)
    (lower upper : Option Formula) : Settled (base.withScripts lower upper) := by
  cases lower <;> cases upper
  · exact hbase
  · rfl
  · rfl
  · rfl

theorem settled_leaf {token : Token} {formula : Formula} (h : token.leaf? = some formula) :
    Settled formula := by
  simp only [Token.leaf?] at h
  split at h <;> cases h <;> rfl

theorem closed_settled : Closed (fun _ ↦ True) Settled Settled where
  leaf _ := settled_leaf
  stray _ _ := rfl
  unary _ _ _ := rfl
  binary _ _ _ _ := rfl
  enclose _ _ _ _ := settled_enclose _ _ _
  unclosed _ _ := settled_unclosed _
  withScripts hbase _ _ := settled_withScripts hbase _ _
  fraction _ _ _ _ := rfl
  followedBy := settled_followedBy
  run_of_single := id

theorem Reads.settled {level closer tokens result rest}
    (h : Reads level closer tokens result rest) : ∀ formula ∈ result, Settled formula :=
  h.forall_of_closed closed_settled fun _ _ ↦ trivial

theorem Reads.ofItems?_itemsOf {level closer tokens result rest}
    (h : Reads level closer tokens result rest) : Formula.ofItems? (itemsOf result) = result := by
  cases result with
  | none => rfl
  | some formula => exact h.settled formula rfl

/-! ## Every stream can be read -/

def Readable (level : Level) (closer : Option TokenKind) (tokens : List Token) : Prop :=
  ∃ result rest, Reads level closer tokens result rest

theorem readable_bracket {closer : Option TokenKind} {left : Token} {tokens : List Token}
    (hopens : left.Opens)
    (hbody : Readable .expression (some (Reader.closerOf left)) (glanced tokens)) :
    Readable .simple closer (left :: tokens) := by
  by_cases hempty : (ahead tokens).kind = Reader.closerOf left
  · have hne : (ahead tokens).kind ≠ .endOfInput := by
      rw [hempty, Reader.closerOf]
      split <;> decide
    rw [eq_cons_of_kind_ahead hne]
    exact ⟨_, _, .emptyBracket hopens hempty⟩
  · obtain ⟨body, rest, hreads⟩ := hbody
    by_cases hcloses : (ahead rest).kind = Reader.closerOf left
    · have hne : (ahead rest).kind ≠ .endOfInput := by
        rw [hcloses, Reader.closerOf]
        split <;> decide
      rw [eq_cons_of_kind_ahead hne] at hreads
      exact ⟨_, _, .bracket hopens hempty hreads hcloses⟩
    · exact ⟨_, _, .unclosed hopens hempty hreads hcloses⟩

theorem readable_simple {closer : Option TokenKind} {tokens : List Token}
    (ih : ∀ level closer shorter, shorter.length < tokens.length → Readable level closer shorter) :
    Readable .simple closer tokens := by
  cases tokens with
  | nil => exact ⟨_, _, .ended rfl⟩
  | cons token tokens =>
    have hbracket (hopens : token.Opens) : Readable .simple closer (token :: tokens) :=
      readable_bracket hopens (ih _ _ _ (Nat.lt_succ_of_le (length_glanced_le tokens)))
    obtain ⟨only, rest, honly⟩ := ih .simple closer tokens (Nat.lt_succ_self _)
    cases hkind : token.kind with
    | endOfInput => exact ⟨_, _, .ended hkind⟩
    | number | text | identifier | symbol | infixOp =>
      exact ⟨_, _, .leaf (by rw [Token.leaf?, hkind])⟩
    | unary => exact ⟨_, _, .unary hkind honly⟩
    | binary =>
      obtain ⟨second, rest', hsecond⟩ := ih .simple closer rest (Nat.lt_succ_of_le honly.length_le)
      exact ⟨_, _, .binary hkind honly hsecond⟩
    | opening => exact hbracket (.inl hkind)
    | bar => exact hbracket (.inr hkind)
    | closing =>
      cases closer with
      | none => exact ⟨_, _, .stray hkind⟩
      | some kind => exact ⟨_, _, .closing hkind⟩

theorem eq_cons_of_isInfix {tokens : List Token} {symbol : Symbol}
    (h : (ahead tokens).isInfix symbol = true) : tokens = ahead tokens :: tokens.tail := by
  apply eq_cons_of_kind_ahead
  rw [(Token.isInfix_iff.mp h).1]
  decide

/-- Behind a simple formula its scripts can be read, if it has any. -/
theorem exists_withScripts {closer : Option TokenKind} {tokens rest : List Token} {base : Formula}
    (hbase : Reads .simple closer tokens (some base) rest)
    (ih : ∀ later : List Token, later.length ≤ rest.length → Readable .simple closer later) :
    ∃ lower upper final,
      Reads .scripted closer tokens (some (base.withScripts lower upper)) final := by
  by_cases hsub : (ahead rest).isInfix .sub = true
  · rw [eq_cons_of_isInfix hsub] at hbase
    obtain ⟨lower, rest', hlower⟩ := ih rest.tail (List.tail_suffix rest).length_le
    cases lower with
    | none => exact ⟨none, none, _, .danglingSub hbase hsub hlower⟩
    | some lower =>
      by_cases hsup : (ahead rest').isInfix .sup = true
      · have hle := (List.tail_suffix rest').length_le.trans hlower.length_le
        rw [eq_cons_of_isInfix hsup] at hlower
        obtain ⟨upper, last, hupper⟩ :=
          ih rest'.tail (hle.trans (List.tail_suffix rest).length_le)
        exact ⟨_, _, _, .subSup hbase hsub hlower hsup hupper⟩
      · exact ⟨_, none, _, .sub hbase hsub hlower (Bool.eq_false_iff.mpr hsup)⟩
  · by_cases hsup : (ahead rest).isInfix .sup = true
    · rw [eq_cons_of_isInfix hsup] at hbase
      obtain ⟨upper, last, hupper⟩ := ih rest.tail (List.tail_suffix rest).length_le
      exact ⟨none, _, _, .sup hbase hsup hupper⟩
    · exact ⟨none, none, _,
        .bare hbase (Bool.eq_false_iff.mpr hsub) (Bool.eq_false_iff.mpr hsup)⟩

theorem readable_scripted {closer : Option TokenKind} {tokens : List Token}
    (hsimple : Readable .simple closer tokens)
    (ih : ∀ level closer shorter, shorter.length < tokens.length → Readable level closer shorter) :
    Readable .scripted closer tokens := by
  obtain ⟨base, rest, hbase⟩ := hsimple
  cases base with
  | none => exact ⟨_, _, .absent hbase⟩
  | some base =>
    obtain ⟨lower, upper, final, hscripted⟩ := exists_withScripts hbase fun later hle ↦
      ih _ _ _ (hle.trans_lt hbase.length_lt)
    exact ⟨_, _, hscripted⟩

/-- Behind a first item, or a first part of a fraction, the rest of a run can be read. -/
theorem exists_followedBy {closer : Option TokenKind} {tokens middle : List Token}
    {first : Formula} (hfirst : Reads .scripted closer tokens (some first) middle)
    (ih : ∀ level (later : List Token), later.length ≤ middle.length →
      Readable level closer later) :
    ∃ item more final, (item = first ∨ ∃ line below, item = fractionOf line first below) ∧
      Reads .expression closer tokens (some (item.followedBy more)) final := by
  by_cases hline : (ahead middle).isInfix .frac = true
  · have htail := (List.tail_suffix middle).length_le
    rw [eq_cons_of_isInfix hline] at hfirst
    obtain ⟨below, later, hbelow⟩ := ih .scripted middle.tail htail
    obtain ⟨more, rest, hmore⟩ := ih .expression later (hbelow.length_le.trans htail)
    cases below with
    | none => exact ⟨first, more, _, .inl rfl, .danglingFrac hfirst hline hbelow hmore⟩
    | some below => exact ⟨_, more, _, .inr ⟨_, below, rfl⟩, .fraction hfirst hline hbelow hmore⟩
  · have hline := Bool.eq_false_iff.mpr hline
    by_cases hend : (ahead middle).kind = .endOfInput
    · exact ⟨first, none, _, .inl rfl, .last hfirst hend⟩
    · by_cases hcloses : some (ahead middle).kind = closer
      · exact ⟨first, none, _, .inl rfl, .closed hfirst hline hend hcloses⟩
      · obtain ⟨more, rest, hmore⟩ := ih .expression middle le_rfl
        exact ⟨first, more, _, .inl rfl, .item hfirst hline hend hcloses hmore⟩

theorem readable_expression {closer : Option TokenKind} {tokens : List Token}
    (hscripted : Readable .scripted closer tokens)
    (ih : ∀ level closer shorter, shorter.length < tokens.length → Readable level closer shorter) :
    Readable .expression closer tokens := by
  obtain ⟨first, middle, hfirst⟩ := hscripted
  cases first with
  | none => exact ⟨_, _, .nothing hfirst⟩
  | some first =>
    obtain ⟨item, more, final, -, hexpression⟩ := exists_followedBy hfirst fun level later hle ↦
      ih level closer later (hle.trans_lt hfirst.length_lt)
    exact ⟨_, _, hexpression⟩

theorem exists_reads (level : Level) (closer : Option TokenKind) (tokens : List Token) :
    ∃ result rest, Reads level closer tokens result rest := by
  -- the stream alone decreases: at one stream a simple formula comes before the other levels
  induction hlength : tokens.length using Nat.strong_induction_on generalizing level closer tokens
  next length ih =>
    have hshorter : ∀ level closer shorter, shorter.length < tokens.length →
        Readable level closer shorter :=
      fun level closer shorter hlt ↦ ih _ (hlength ▸ hlt) level closer shorter rfl
    have hsimple : Readable .simple closer tokens := readable_simple hshorter
    have hscripted := readable_scripted hsimple hshorter
    cases level with
    | simple => exact hsimple
    | scripted => exact hscripted
    | expression => exact readable_expression hscripted hshorter

end Reading

end FormulaMarkup
