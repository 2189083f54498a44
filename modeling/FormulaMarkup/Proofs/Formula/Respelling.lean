import FormulaMarkup.Proofs.Reading.Rules

/-!
# Formulas in other spellings

A `Naming` gives each mark a text, and `Formula.respelled` puts these texts into a formula. A naming
is `Discreet` if it keeps the texts that reading looks at: those of leaves that are no symbols, and
those of the plain brackets, which can make the row of a matrix. Respelling with such a naming goes
through everything that a reader does with formulas, so tokens in other spellings are read as the
formula in these spellings (`Reading.Reads.respelled`).
-/

namespace FormulaMarkup

/-- A text for each mark. -/
abbrev Naming := Mark → String

/-- The symbols of the brackets that can make a row. -/
def Symbol.isFence (symbol : Symbol) : Bool :=
  symbol = .leftParen || symbol = .rightParen || symbol = .leftBracket || symbol = .rightBracket

/-- Does a token of the kind come before its operands? It is never a symbol of its own. -/
def TokenKind.precedes : TokenKind → Bool
  | .unary | .binary => true
  | _ => false

/-- Is the text of a token of the kind all that it means? -/
def TokenKind.isPlain : TokenKind → Bool
  | .number | .text | .identifier => true
  | _ => false

/-- The naming keeps the texts that reading looks at. -/
structure Naming.Discreet (name : Naming) : Prop where
  plain : ∀ mark : Mark, mark.kind.isPlain = true → name mark = mark.text
  fence : ∀ mark : Mark, mark.symbol.any (·.isFence) = true → name mark = mark.text

def Mark.respelled (name : Naming) (mark : Mark) : Mark := { mark with text := name mark }

def Operator.respelled (name : Naming) (arity : Arity) (operator : Operator) : Operator :=
  { operator with text := name (operator.mark arity) }

def Token.respelled (name : Naming) (token : Token) : Token :=
  { token with text := name token.mark }

section Marks

variable (name : Naming)

@[simp]
theorem Mark.symbol_respelled (mark : Mark) : (mark.respelled name).symbol = mark.symbol := rfl

@[simp]
theorem Mark.kind_respelled (mark : Mark) : (mark.respelled name).kind = mark.kind := rfl

@[simp]
theorem Token.text_respelled (token : Token) : (token.respelled name).text = name token.mark := rfl

@[simp]
theorem Token.symbol_respelled (token : Token) : (token.respelled name).symbol = token.symbol := rfl

@[simp]
theorem Token.kind_respelled (token : Token) : (token.respelled name).kind = token.kind := rfl

@[simp]
theorem Token.conversions_respelled (token : Token) :
    (token.respelled name).conversions = token.conversions := rfl

@[simp]
theorem Token.mark_respelled (token : Token) :
    (token.respelled name).mark = token.mark.respelled name := rfl

@[simp]
theorem Token.isInfix_respelled (token : Token) (symbol : Symbol) :
    (token.respelled name).isInfix symbol = token.isInfix symbol := rfl

theorem Token.operator_respelled {token : Token} (arity : Arity) (h : token.kind = arity.kind) :
    (token.respelled name).operator = token.operator.respelled name arity := by
  simp only [Token.operator, Operator.respelled, Operator.mark, ← h]
  rfl

end Marks

namespace Formula

mutual

/-- The formula with the texts of a naming. -/
@[simp]
def respelled (name : Naming) : Formula → Formula
  | empty => empty
  | number written => number written
  | text written => text written
  | identifier written => identifier written
  | symbol mark => symbol (if mark.kind.precedes then mark else mark.respelled name)
  | sequence items => sequence (respelledList name items)
  | bracketed left body right =>
    bracketed (left.map (·.respelled name)) (respelledBody name body)
      (right.map (·.respelled name))
  | grouped left body right =>
    grouped (left.map (·.respelled name)) (respelledBody name body) (right.map (·.respelled name))
  | matrix left rows right =>
    matrix (left.respelled name) (respelledRows name rows) (right.respelled name)
  | unary operator operand => unary (operator.respelled name .unary) (respelled name operand)
  | binary operator first second =>
    binary (operator.respelled name .binary) (respelled name first) (respelled name second)
  | infixOp operator first second =>
    infixOp (operator.respelled name .infixOp) (respelled name first) (respelled name second)
  | sub base script => sub (respelled name base) (respelled name script)
  | sup base script => sup (respelled name base) (respelled name script)
  | subSup base lower upper =>
    subSup (respelled name base) (respelled name lower) (respelled name upper)
  | color value => color value

@[simp]
def respelledList (name : Naming) : List Formula → List Formula
  | [] => []
  | formula :: rest => respelled name formula :: respelledList name rest

@[simp]
def respelledBody (name : Naming) : Option Formula → Option Formula
  | none => none
  | some formula => some (respelled name formula)

@[simp]
def respelledRows (name : Naming) : List (List Formula) → List (List Formula)
  | [] => []
  | cells :: rest => respelledList name cells :: respelledRows name rest

end

variable (name : Naming)

@[simp]
theorem respelledList_eq_map (formulas : List Formula) :
    respelledList name formulas = formulas.map (respelled name) := by
  induction formulas with
  | nil => rw [respelledList, List.map_nil]
  | cons formula rest ih => rw [respelledList, List.map_cons, ih]

@[simp]
theorem respelledBody_eq_map (body : Option Formula) :
    respelledBody name body = body.map (respelled name) := by
  cases body with
  | none => rw [respelledBody, Option.map_none]
  | some formula => rw [respelledBody, Option.map_some]

@[simp]
theorem respelledRows_eq_map (rows : List (List Formula)) :
    respelledRows name rows = rows.map (·.map (respelled name)) := by
  induction rows with
  | nil => rw [respelledRows, List.map_nil]
  | cons cells rest ih => rw [respelledRows, List.map_cons, ih, respelledList_eq_map]

/-! ## Formulas next to each other, operands and scripts -/

theorem items_respelled (formula : Formula) :
    (formula.respelled name).items = formula.items.map (respelled name) := by
  cases formula <;> simp [items]

theorem respelled_concat (left right : Formula) :
    (left.concat right).respelled name = (left.respelled name).concat (right.respelled name) := by
  simp [concat_eq, items_respelled]

theorem respelled_followedBy (first : Formula) (more : Option Formula) :
    (first.followedBy more).respelled name =
      (first.respelled name).followedBy (more.map (respelled name)) := by
  cases more with
  | none => rfl
  | some more => exact respelled_concat name first more

theorem droppable_respelled (left right : Option Mark) :
    droppable (left.map (·.respelled name)) (right.map (·.respelled name)) =
      droppable left right := by
  cases left <;> cases right <;> rfl

theorem respelled_asOperand (formula : Formula) :
    formula.asOperand.respelled name = (formula.respelled name).asOperand := by
  cases formula with
  | bracketed left body right =>
    rw [respelled, asOperand, asOperand, droppable_respelled]
    split <;> rw [respelled]
  | _ => simp only [asOperand, respelled]

theorem respelled_withScripts (base : Formula) (lower upper : Option Formula) :
    (base.withScripts lower upper).respelled name =
      (base.respelled name).withScripts (lower.map (respelled name))
        (upper.map (respelled name)) := by
  cases lower <;> cases upper <;> simp [withScripts, respelled_asOperand]

end Formula

open Formula

/-! ## Matrices -/

namespace Matrix

variable (name : Naming)

theorem isSeparator_respelled (formula : Formula) :
    isSeparator (formula.respelled name) = isSeparator formula := by
  cases formula <;> rw [respelled] <;> rfl

theorem splitAtSeparators_respelled (formulas : List Formula) :
    splitAtSeparators (formulas.map (respelled name)) =
      (splitAtSeparators formulas).map (·.map (respelled name)) := by
  induction formulas with
  | nil => rfl
  | cons formula rest ih =>
    rw [List.map_cons, splitAtSeparators, splitAtSeparators, isSeparator_respelled, ih]
    split
    · rfl
    · cases splitAtSeparators rest <;> rfl

theorem respelled_cellOf (formulas : List Formula) :
    (cellOf formulas).respelled name = cellOf (formulas.map (respelled name)) := by
  match formulas with
  | [] => rw [cellOf, respelled, List.map_nil, cellOf]
  | [formula] => rfl
  | first :: second :: rest => simp [cellOf]

theorem cellsOf_respelled (body : Option Formula) :
    cellsOf (body.map (respelled name)) = (cellsOf body).map (respelled name) := by
  cases body with
  | none => simp [cellsOf]
  | some formula =>
    cases formula with
    | sequence items =>
      simp [cellsOf, splitAtSeparators_respelled, respelled_cellOf, Function.comp_def]
    | _ => simp [cellsOf]

variable {name}

theorem spells_respelled (hname : name.Discreet) (mark : Mark) {symbol : Symbol}
    (hfence : symbol.isFence = true) (written : String) :
    (mark.respelled name).spells symbol written = mark.spells symbol written := by
  by_cases hsymbol : mark.symbol = some symbol
  · have hkept : name mark = mark.text := hname.fence mark (by rw [hsymbol]; exact hfence)
    simp only [Mark.spells, Mark.respelled, hkept]
  · simp [Mark.spells, hsymbol]

theorem isRowFence_respelled (hname : name.Discreet) (left right : Mark) :
    isRowFence (left.respelled name) (right.respelled name) = isRowFence left right := by
  have hspells : ∀ (mark : Mark) {symbol : Symbol}, symbol.isFence = true → ∀ written,
      (mark.respelled name).spells symbol written = mark.spells symbol written :=
    fun mark _ hfence written ↦ spells_respelled hname mark hfence written
  rw [isRowFence, isRowFence, hspells left (by rfl), hspells left (by rfl), hspells right (by rfl),
    hspells right (by rfl)]
  rfl

theorem rowBody?_respelled (hname : name.Discreet) (formula : Formula) :
    rowBody? (formula.respelled name) = (rowBody? formula).map (·.map (respelled name)) := by
  cases formula with
  | bracketed left body right =>
    cases left <;> cases right <;> simp [rowBody?, isRowFence_respelled hname]
  | _ => simp [rowBody?]

theorem rowBodies?_respelled (hname : name.Discreet) (formulas : List Formula) :
    rowBodies? (formulas.map (respelled name)) =
      (rowBodies? formulas).map (·.map (·.map (respelled name))) := by
  fun_induction rowBodies? formulas with
  | case1 => rfl
  | case2 row => simp [rowBodies?, rowBody?_respelled hname, Function.comp_def]
  | case3 row separator rows hseparator ih =>
    simp only [List.map_cons, rowBodies?, isSeparator_respelled, hseparator, if_true,
      rowBody?_respelled hname, ih]
    cases rowBody? row <;> cases rowBodies? rows <;> rfl
  | case4 row separator rows hseparator =>
    simp [rowBodies?, isSeparator_respelled, hseparator]

theorem respelled_enclose (hname : name.Discreet) (left right : Mark) (body : Option Formula) :
    (enclose left body right).respelled name =
      enclose (left.respelled name) (body.map (respelled name)) (right.respelled name) := by
  have hbodies : (body.map (respelled name)).bind (fun formula ↦ rowBodies? formula.items) =
      (body.bind fun formula ↦ rowBodies? formula.items).map
        (·.map (·.map (respelled name))) := by
    cases body with
    | none => rfl
    | some formula =>
      simp only [Option.map_some, Option.bind_some, items_respelled, rowBodies?_respelled hname]
  rw [enclose, enclose, hbodies]
  cases body.bind fun formula ↦ rowBodies? formula.items with
  | none => simp
  | some bodies => simp [cellsOf_respelled, Function.comp_def]

end Matrix

/-! ## What a reader makes of tokens -/

namespace Reading

section Makers

variable {name : Naming} {token : Token}

theorem leaf?_respelled (hname : name.Discreet) (token : Token) :
    (token.respelled name).leaf? = token.leaf?.map (respelled name) := by
  simp only [Token.leaf?, Token.kind_respelled]
  cases hkind : token.kind with
  | number | text | identifier =>
    have hkept : name token.mark = token.text := hname.plain token.mark (congrArg _ hkind)
    simp [hkept]
  | symbol | infixOp => simp [Token.mark, hkind, TokenKind.precedes, Mark.respelled]
  | _ => rfl

theorem respelled_symbol (name : Naming) (hkind : token.kind.precedes = false) :
    (Formula.symbol token.mark).respelled name = .symbol (token.respelled name).mark := by
  have hmark : token.mark.kind.precedes = false := hkind
  rw [respelled, hmark]
  rfl

theorem respelled_operandOf (only : Option Formula) :
    (operandOf only).respelled name = operandOf (only.map (respelled name)) := by
  cases only with
  | none => simp [operandOf]
  | some formula => exact respelled_asOperand name formula

theorem respelled_unaryOf (hplain : token.conversions = none) (hkind : token.kind = .unary)
    (only : Option Formula) : (unaryOf token only).respelled name =
      unaryOf (token.respelled name) (only.map (respelled name)) := by
  have hoperator := Token.operator_respelled name .unary hkind
  simp only [unaryOf, respelled, Token.conversions_respelled, hplain, Option.getD_none, converted,
    hoperator, respelled_operandOf]

theorem respelled_binaryOf (hplain : token.conversions = none) (hkind : token.kind = .binary)
    (first second : Option Formula) : (binaryOf token first second).respelled name =
      binaryOf (token.respelled name) (first.map (respelled name))
        (second.map (respelled name)) := by
  have hoperator := Token.operator_respelled name .binary hkind
  simp only [binaryOf, respelled, Token.conversions_respelled, hplain, Option.getD_none, converted,
    hoperator, respelled_operandOf]

theorem respelled_fractionOf (hline : token.isInfix .frac = true) (above below : Formula) :
    (fractionOf token above below).respelled name =
      fractionOf (token.respelled name) (above.respelled name) (below.respelled name) := by
  have hoperator := Token.operator_respelled name .infixOp (Token.isInfix_iff.mp hline).1
  simp only [fractionOf, respelled, hoperator, respelled_asOperand]

theorem respelled_unclosed (hopens : token.Opens) (body : Option Formula) :
    (Reader.unclosed token body).respelled name =
      Reader.unclosed (token.respelled name) (body.map (respelled name)) := by
  have hmark : token.mark.kind.precedes = false := by
    rcases hopens with hkind | hkind <;> rw [Token.mark, hkind] <;> rfl
  by_cases hbar : token.kind = .bar
  · cases body with
    | none => simp [Reader.unclosed, hbar, hmark]
    | some body => simp [Reader.unclosed, hbar, hmark, respelled_concat]
  · simp [Reader.unclosed, hbar]

end Makers

section Rules

variable {name : Naming} {tokens : List Token}

theorem kind_ahead_respelled (tokens : List Token) :
    (ahead (tokens.map (·.respelled name))).kind = (ahead tokens).kind := by
  cases tokens <;> rfl

theorem isInfix_ahead_respelled (tokens : List Token) (symbol : Symbol) :
    (ahead (tokens.map (·.respelled name))).isInfix symbol = (ahead tokens).isInfix symbol := by
  cases tokens <;> rfl

theorem glanced_respelled (tokens : List Token) :
    glanced (tokens.map (·.respelled name)) = (glanced tokens).map (·.respelled name) := by
  simp only [glanced, kind_ahead_respelled]
  split
  · rw [List.map_tail]
  · rfl

/-- Tokens in other spellings are read as the formula in these spellings. -/
theorem Reads.respelled (hname : name.Discreet) {level : Level} {closer : Option TokenKind}
    {rest : List Token} {result : Option Formula} (h : Reads level closer tokens result rest)
    (hplain : ∀ token ∈ tokens, token.conversions = none) :
    Reads level closer (tokens.map (·.respelled name)) (result.map (Formula.respelled name))
      (rest.map (·.respelled name)) := by
  induction h with
  | ended hend =>
    rw [List.map_tail]
    exact .ended (by rwa [kind_ahead_respelled])
  | leaf hleaf => exact .leaf (by rw [leaf?_respelled hname, hleaf, Option.map_some])
  | stray hkind =>
    rw [Option.map_some, respelled_symbol name (by rw [hkind]; rfl)]
    exact .stray hkind
  | closing hkind => exact .closing hkind
  | unary hkind _ ih =>
    rw [List.forall_mem_cons] at hplain
    rw [Option.map_some, respelled_unaryOf hplain.1 hkind]
    exact .unary hkind (ih hplain.2)
  | binary hkind hfirst _ ihfirst ihsecond =>
    rw [List.forall_mem_cons] at hplain
    rw [Option.map_some, respelled_binaryOf hplain.1 hkind]
    exact .binary hkind (ihfirst hplain.2) (ihsecond (forall_of_suffix hplain.2 hfirst.suffix))
  | emptyBracket hopens hcloses =>
    rw [Option.map_some, Formula.respelled]
    exact .emptyBracket hopens hcloses
  | bracket hopens hfull _ hcloses ih =>
    rw [List.forall_mem_cons] at hplain
    have hbody := ih (forall_of_suffix hplain.2 (glanced_suffix _))
    rw [← glanced_respelled] at hbody
    rw [Option.map_some, Matrix.respelled_enclose hname, ← Token.mark_respelled,
      ← Token.mark_respelled]
    exact .bracket hopens (by rwa [kind_ahead_respelled]) hbody hcloses
  | unclosed hopens hfull _ hopen ih =>
    rw [List.forall_mem_cons] at hplain
    have hbody := ih (forall_of_suffix hplain.2 (glanced_suffix _))
    rw [← glanced_respelled] at hbody
    rw [Option.map_some, respelled_unclosed hopens, ← glanced_respelled]
    exact .unclosed hopens (by rwa [kind_ahead_respelled]) hbody (by rwa [kind_ahead_respelled])
  | absent _ ih => exact .absent (ih hplain)
  | bare hbase hsub hsup ih =>
    rw [← glanced_respelled]
    exact .bare (ih hplain) (by rwa [isInfix_ahead_respelled]) (by rwa [isInfix_ahead_respelled])
  | danglingSub hbase hsub _ ihbase ihlower =>
    have hmiddle := forall_behind hplain hbase.suffix
    exact .danglingSub (ihbase hplain) hsub (ihlower hmiddle)
  | sub hbase hsub hlower hsup ihbase ihlower =>
    have hmiddle := forall_behind hplain hbase.suffix
    rw [Option.map_some, respelled_withScripts, ← glanced_respelled]
    exact .sub (ihbase hplain) hsub (ihlower hmiddle) (by rwa [isInfix_ahead_respelled])
  | subSup hbase hsub hlower hsup _ ihbase ihlower ihupper =>
    have hmiddle := forall_behind hplain hbase.suffix
    have hlast := forall_behind hmiddle hlower.suffix
    rw [Option.map_some, respelled_withScripts]
    exact .subSup (ihbase hplain) hsub (ihlower hmiddle) hsup (ihupper hlast)
  | sup hbase hsup _ ihbase ihupper =>
    rw [Option.map_some, respelled_withScripts]
    exact .sup (ihbase hplain) hsup (ihupper (forall_behind hplain hbase.suffix))
  | nothing _ ih => exact .nothing (ih hplain)
  | fraction habove hline hbelow _ ihabove ihbelow ihmore =>
    have hmiddle := forall_behind hplain habove.suffix
    have hlater := forall_of_suffix hmiddle hbelow.suffix
    rw [Option.map_some, respelled_followedBy, respelled_fractionOf hline]
    exact .fraction (ihabove hplain) hline (ihbelow hmiddle) (ihmore hlater)
  | danglingFrac habove hline hbelow _ ihabove ihbelow ihmore =>
    have hmiddle := forall_behind hplain habove.suffix
    have hlater := forall_of_suffix hmiddle hbelow.suffix
    rw [Option.map_some, respelled_followedBy]
    exact .danglingFrac (ihabove hplain) hline (ihbelow hmiddle) (ihmore hlater)
  | last hitem hend ih =>
    rw [List.map_tail]
    exact .last (ih hplain) (by rwa [kind_ahead_respelled])
  | closed _ hline hend hcloses ih =>
    exact .closed (ih hplain) (by rwa [isInfix_ahead_respelled]) (by rwa [kind_ahead_respelled])
      (by rwa [kind_ahead_respelled])
  | item hitem hline hend hcloses _ ihitem ihmore =>
    rw [Option.map_some, respelled_followedBy]
    exact .item (ihitem hplain) (by rwa [isInfix_ahead_respelled]) (by rwa [kind_ahead_respelled])
      (by rwa [kind_ahead_respelled]) (ihmore (forall_of_suffix hplain hitem.suffix))

end Rules

end Reading

end FormulaMarkup
