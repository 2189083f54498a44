import FormulaMarkup.Proofs.Reading.Rules

/-!
# The readers follow the rules

Given enough steps, each reader makes what the rules say, leaves what the rules leave, and ends
without a fault (`Reads.run`). Since every stream can be read, so does the reading of a whole
formula (`Lexer.exists_read`), and what it makes depends on the stream alone.

A simple or scripted formula needs one step more than two for each token ahead, and an expression
needs one more than that, since an expression and a simple formula alternate at the same token only
once.
-/

namespace FormulaMarkup

namespace Reader

open Reading

variable {μ : Type} {α β : Type}

/-- Reading at a lexer ends without a fault, with a value and a stream that is left. -/
def Ends [Lexicon μ Entry] (reader : Reader μ α) (lexer : Lexer μ) (value : α)
    (rest : List Token) : Prop :=
  ∃ final : Lexer μ, reader lexer = .ok (value, final) ∧ final.stream = rest

variable [Lexicon μ Entry] {lexer : Lexer μ}

theorem Ends.pure (value : α) : Ends (Pure.pure value : Reader μ α) lexer value lexer.stream :=
  ⟨lexer, rfl, rfl⟩

theorem Ends.bind {reader : Reader μ α} {f : α → Reader μ β} {a : α} {b : β}
    {middle rest : List Token} (hreader : Ends reader lexer a middle)
    (hf : ∀ later : Lexer μ, later.stream = middle → Ends (f a) later b rest) :
    Ends (reader >>= f) lexer b rest := by
  obtain ⟨later, hok, hlater⟩ := hreader
  obtain ⟨final, hfinal, hrest⟩ := hf later hlater
  refine ⟨final, ?_, hrest⟩
  change Except.bind (reader lexer) (fun pair ↦ f pair.1 pair.2) = _
  rw [hok]
  exact hfinal

theorem Ends.next_bind {f : Token → Reader μ β} {b : β} {rest : List Token}
    (hf : ∀ later : Lexer μ, later.pending = none → later.stream = lexer.stream.tail →
      Ends (f (ahead lexer.stream)) later b rest) : Ends (next >>= f) lexer b rest := by
  obtain ⟨later, hnext, hpending, hlater⟩ := lexer.next_eq_ahead
  obtain ⟨final, hfinal, hrest⟩ := hf later hpending hlater
  refine ⟨final, ?_, hrest⟩
  change Except.bind (.ok lexer.next) (fun pair ↦ f pair.1 pair.2) = _
  rw [hnext]
  exact hfinal

/-- A token that was only looked at goes back. -/
theorem Ends.pushBack_bind {later : Lexer μ} (hpending : later.pending = none)
    (hlater : later.stream = lexer.stream.tail) {f : Unit → Reader μ β} {b : β} {rest : List Token}
    (hf : ∀ back : Lexer μ, back.stream = glanced lexer.stream → Ends (f ()) back b rest) :
    Ends (pushBack (ahead lexer.stream) >>= f) later b rest := by
  obtain ⟨back, hback, hglanced⟩ := Lexer.pushBack_ahead hpending hlater
  refine Ends.bind ⟨back, ?_, hglanced⟩ hf
  rw [pushBack, hback]

/-! ## Scripts -/

section Scripts

variable {simple : Reader μ (Option Formula)} {base : Formula} {tokens middle rest : List Token}

theorem scripts_bare (hsub : (ahead lexer.stream).isInfix .sub = false)
    (hsup : (ahead lexer.stream).isInfix .sup = false) :
    Ends (scripts simple) lexer (none, none) (glanced lexer.stream) := by
  apply Ends.next_bind
  intro later hpending hlater
  rw [hsub, hsup]
  apply Ends.pushBack_bind hpending hlater
  intro back hback
  rw [← hback]
  exact Ends.pure _

theorem scripts_danglingSub {sub : Token} (hstream : lexer.stream = sub :: middle)
    (hsub : sub.isInfix .sub = true)
    (hlower : ∀ later : Lexer μ, later.stream = middle → Ends simple later none rest) :
    Ends (scripts simple) lexer (none, none) rest := by
  apply Ends.next_bind
  intro later _ hlater
  rw [hstream] at hlater ⊢
  rw [ahead_cons, hsub]
  apply Ends.bind (hlower later hlater)
  intro final hfinal
  rw [← hfinal]
  exact Ends.pure _

theorem scripts_sub {sub : Token} {lower : Formula} (hstream : lexer.stream = sub :: middle)
    (hsub : sub.isInfix .sub = true)
    (hlower : ∀ later : Lexer μ, later.stream = middle → Ends simple later (some lower) rest)
    (hsup : (ahead rest).isInfix .sup = false) :
    Ends (scripts simple) lexer (some lower, none) (glanced rest) := by
  apply Ends.next_bind
  intro later _ hlater
  rw [hstream] at hlater ⊢
  rw [ahead_cons, hsub]
  apply Ends.bind (hlower later hlater)
  intro after hafter
  subst hafter
  apply Ends.next_bind
  intro final hpending hfinal
  rw [hsup]
  apply Ends.pushBack_bind hpending hfinal
  intro back hback
  rw [← hback]
  exact Ends.pure _

theorem scripts_subSup {sub sup : Token} {lower : Formula} {upper : Option Formula}
    {last : List Token} (hstream : lexer.stream = sub :: middle) (hsub : sub.isInfix .sub = true)
    (hlower : ∀ later : Lexer μ, later.stream = middle →
      Ends simple later (some lower) (sup :: last))
    (hsup : sup.isInfix .sup = true)
    (hupper : ∀ later : Lexer μ, later.stream = last → Ends simple later upper rest) :
    Ends (scripts simple) lexer (some lower, upper) rest := by
  apply Ends.next_bind
  intro later _ hlater
  rw [hstream] at hlater ⊢
  rw [ahead_cons, hsub]
  apply Ends.bind (hlower later hlater)
  intro after hafter
  apply Ends.next_bind
  intro final _ hfinal
  rw [hafter] at hfinal ⊢
  rw [ahead_cons, hsup]
  apply Ends.bind (hupper final hfinal)
  intro end' hend
  rw [← hend]
  exact Ends.pure _

theorem scripts_sup {sup : Token} {upper : Option Formula} (hstream : lexer.stream = sup :: middle)
    (hsup : sup.isInfix .sup = true)
    (hupper : ∀ later : Lexer μ, later.stream = middle → Ends simple later upper rest) :
    Ends (scripts simple) lexer (none, upper) rest := by
  apply Ends.next_bind
  intro later _ hlater
  rw [hstream] at hlater ⊢
  rw [ahead_cons, Token.isInfix_eq_false_of_ne hsup (by decide), hsup]
  apply Ends.bind (hupper later hlater)
  intro final hfinal
  rw [← hfinal]
  exact Ends.pure _

/-- A scripted formula is its base with what was read as scripts. -/
theorem scripted_of_scripts {lower upper : Option Formula}
    (hbase : Ends simple lexer (some base) middle)
    (hscripts : ∀ later : Lexer μ, later.stream = middle →
      Ends (scripts simple) later (lower, upper) rest) :
    Ends (scripted simple) lexer (some (base.withScripts lower upper)) rest := by
  apply Ends.bind hbase
  intro later hlater
  apply Ends.bind (hscripts later hlater)
  intro final hfinal
  rw [← hfinal]
  cases lower <;> cases upper <;> exact Ends.pure _

theorem scripted_bare (hbase : Ends simple lexer (some base) middle)
    (hscripts : ∀ later : Lexer μ, later.stream = middle →
      Ends (scripts simple) later (none, none) rest) :
    Ends (scripted simple) lexer (some base) rest :=
  scripted_of_scripts hbase hscripts

theorem scripted_absent (hbase : Ends simple lexer none rest) :
    Ends (scripted simple) lexer none rest := by
  apply Ends.bind hbase
  intro final hfinal
  rw [← hfinal]
  exact Ends.pure _

end Scripts

/-! ## Operators and brackets -/

theorem operand_ends {simple : Reader μ (Option Formula)} {only : Option Formula}
    {rest : List Token} (h : Ends simple lexer only rest) :
    Ends (operand simple) lexer (operandOf only) rest := by
  apply Ends.bind h
  intro final hfinal
  rw [← hfinal]
  cases only <;> exact Ends.pure _

theorem unary_ends {simple : Reader μ (Option Formula)} {operator : Token}
    (hkind : operator.kind = .unary) {only : Option Formula} {rest : List Token}
    (h : Ends simple lexer only rest) :
    Ends (unary operator simple) lexer (unaryOf operator only) rest := by
  refine Ends.bind (operand_ends h) fun final hfinal ↦ ⟨final, ?_, hfinal⟩
  simp only [Formula.ofUnary, Mark.operator?, Token.mark, hkind, Arity.kind, if_true]
  rfl

theorem binary_ends {simple : Reader μ (Option Formula)} {operator : Token}
    (hkind : operator.kind = .binary) {first second : Option Formula} {middle rest : List Token}
    (hfirst : Ends simple lexer first middle)
    (hsecond : ∀ later : Lexer μ, later.stream = middle → Ends simple later second rest) :
    Ends (binary operator simple) lexer (binaryOf operator first second) rest := by
  apply Ends.bind (operand_ends hfirst)
  intro later hlater
  refine Ends.bind (operand_ends (hsecond later hlater)) fun final hfinal ↦ ⟨final, ?_, hfinal⟩
  simp only [Formula.ofBinary, Mark.operator?, Token.mark, hkind, Arity.kind, if_true]
  rfl

section Brackets

variable {left : Token} {expression : Reader μ (Option Formula)} {body : Option Formula}
  {rest : List Token}

theorem bracket_empty {right : Token} (hstream : lexer.stream = right :: rest)
    (hcloses : right.kind = closerOf left) :
    Ends (bracket left expression) lexer
      (.bracketed (some left.mark) none (some right.mark)) rest := by
  apply Ends.next_bind
  intro later _ hlater
  rw [hstream] at hlater ⊢
  rw [ahead_cons, if_pos hcloses]
  rw [List.tail_cons] at hlater
  rw [← hlater]
  exact Ends.pure _

theorem bracket_closed {right : Token} (hfull : (ahead lexer.stream).kind ≠ closerOf left)
    (hbody : ∀ later : Lexer μ, later.stream = glanced lexer.stream →
      Ends expression later body (right :: rest))
    (hcloses : right.kind = closerOf left) :
    Ends (bracket left expression) lexer (Matrix.enclose left.mark body right.mark) rest := by
  apply Ends.next_bind
  intro later hpending hlater
  rw [if_neg hfull]
  apply Ends.pushBack_bind hpending hlater
  intro back hback
  apply Ends.bind (hbody back hback)
  intro after hafter
  apply Ends.next_bind
  intro final _ hfinal
  rw [hafter] at hfinal ⊢
  rw [ahead_cons, if_pos hcloses]
  rw [List.tail_cons] at hfinal
  rw [← hfinal]
  exact Ends.pure _

theorem bracket_unclosed (hfull : (ahead lexer.stream).kind ≠ closerOf left)
    (hbody : ∀ later : Lexer μ, later.stream = glanced lexer.stream →
      Ends expression later body rest)
    (hopen : (ahead rest).kind ≠ closerOf left) :
    Ends (bracket left expression) lexer (unclosed left body) (glanced rest) := by
  apply Ends.next_bind
  intro later hpending hlater
  rw [if_neg hfull]
  apply Ends.pushBack_bind hpending hlater
  intro back hback
  apply Ends.bind (hbody back hback)
  intro after hafter
  subst hafter
  apply Ends.next_bind
  intro final hfinal hrest
  rw [if_neg hopen]
  apply Ends.pushBack_bind hfinal hrest
  intro last hlast
  rw [← hlast]
  exact Ends.pure _

end Brackets

/-! ## All readers -/

/-- With enough steps the reader of a level makes this result of a stream and leaves this rest. -/
def Follows (μ : Type) [Lexicon μ Entry] (level : Level) (closer : Option TokenKind)
    (tokens : List Token) (result : Option Formula) (rest : List Token) : Prop :=
  ∀ (lexer : Lexer μ) (steps : Nat), lexer.stream = tokens →
    match level with
    | .simple => 2 * tokens.length + 1 ≤ steps → Ends (simple closer steps) lexer result rest
    | .scripted =>
      2 * tokens.length + 1 ≤ steps → Ends (scripted (simple closer steps)) lexer result rest
    | .expression =>
      2 * tokens.length + 2 ≤ steps → ∀ before : List Formula,
        Ends (expression closer before steps) lexer
          (Formula.ofItems? (before.reverse ++ itemsOf result)) rest

theorem Ends.bind_some {reader : Reader μ Formula} {formula : Formula} {rest : List Token}
    (h : Ends reader lexer formula rest) :
    Ends (reader >>= fun read ↦ Pure.pure (some read)) lexer (some formula) rest := by
  apply Ends.bind h
  intro final hfinal
  rw [← hfinal]
  exact Ends.pure _

section Simple

variable {closer : Option TokenKind} {tokens middle rest : List Token}

theorem follows_simple {result : Option Formula}
    (h : ∀ (lexer : Lexer μ) (steps : Nat), lexer.stream = tokens →
      2 * tokens.length ≤ steps → Ends (simple closer (steps + 1)) lexer result rest) :
    Follows μ .simple closer tokens result rest := by
  intro lexer steps hstream hsteps
  cases steps with
  | zero => cases hsteps
  | succ steps => exact h lexer steps hstream (Nat.le_of_succ_le_succ hsteps)

theorem follows_ended (hend : (ahead tokens).kind = .endOfInput) :
    Follows μ .simple closer tokens none tokens.tail := by
  apply follows_simple
  intro lexer steps hstream hsteps
  apply Ends.next_bind
  intro later _ hlater
  rw [hstream] at hlater ⊢
  rw [hend, ← hlater]
  exact Ends.pure _

theorem follows_leaf {token : Token} {formula : Formula} (hleaf : token.leaf? = some formula) :
    Follows μ .simple closer (token :: rest) (some formula) rest := by
  apply follows_simple
  intro lexer steps hstream hsteps
  apply Ends.next_bind
  intro later _ hlater
  rw [hstream] at hlater ⊢
  rw [List.tail_cons] at hlater
  rw [ahead_cons, ← hlater]
  simp only [Token.leaf?] at hleaf
  split at hleaf <;> cases hleaf
  all_goals
    rename_i hkind
    rw [hkind]
    exact Ends.pure _

theorem follows_stray {token : Token} (hkind : token.kind = .closing) :
    Follows μ .simple none (token :: rest) (some (.symbol token.mark)) rest := by
  apply follows_simple
  intro lexer steps hstream hsteps
  apply Ends.next_bind
  intro later _ hlater
  rw [hstream] at hlater ⊢
  rw [List.tail_cons] at hlater
  rw [ahead_cons, hkind, ← hlater]
  exact Ends.pure _

theorem follows_closing {kind : TokenKind} {token : Token} (hkind : token.kind = .closing) :
    Follows μ .simple (some kind) (token :: rest) none (token :: rest) := by
  apply follows_simple
  intro lexer steps hstream hsteps
  have hahead : (ahead lexer.stream).kind = .closing := by rw [hstream, ahead_cons, hkind]
  have hglanced : glanced lexer.stream = token :: rest := by
    rw [glanced_of_kind_ahead (by rw [hahead]; decide), hstream]
  apply Ends.next_bind
  intro later hpending hlater
  rw [hahead]
  apply Ends.pushBack_bind hpending hlater
  intro back hback
  rw [← hglanced, ← hback]
  exact Ends.pure _

theorem follows_unary {operator : Token} {only : Option Formula}
    (hkind : operator.kind = .unary) (honly : Follows μ .simple closer tokens only rest) :
    Follows μ .simple closer (operator :: tokens) (some (unaryOf operator only)) rest := by
  apply follows_simple
  intro lexer steps hstream hsteps
  rw [List.length_cons] at hsteps
  apply Ends.next_bind
  intro later _ hlater
  rw [hstream] at hlater ⊢
  rw [ahead_cons, hkind]
  exact Ends.bind_some (unary_ends hkind (honly later steps hlater (by omega)))

theorem follows_binary {operator : Token} {first second : Option Formula}
    (hkind : operator.kind = .binary) (hle : middle.length ≤ tokens.length)
    (hfirst : Follows μ .simple closer tokens first middle)
    (hsecond : Follows μ .simple closer middle second rest) :
    Follows μ .simple closer (operator :: tokens) (some (binaryOf operator first second)) rest := by
  apply follows_simple
  intro lexer steps hstream hsteps
  rw [List.length_cons] at hsteps
  apply Ends.next_bind
  intro later _ hlater
  rw [hstream] at hlater ⊢
  rw [ahead_cons, hkind]
  exact Ends.bind_some (binary_ends hkind (hfirst later steps hlater (by omega))
    fun after hafter ↦ hsecond after steps hafter (by omega))

/-- A bracket is read as a simple formula from the reading of what stands behind its opener. -/
theorem follows_bracketed {left : Token} {formula : Formula} (hopens : left.Opens)
    (hbracket : ∀ (lexer : Lexer μ) (steps : Nat), lexer.stream = tokens →
      2 * tokens.length + 2 ≤ steps →
      Ends (bracket left (expression (some (closerOf left)) [] steps)) lexer formula rest) :
    Follows μ .simple closer (left :: tokens) (some formula) rest := by
  apply follows_simple
  intro lexer steps hstream hsteps
  rw [List.length_cons] at hsteps
  apply Ends.next_bind
  intro later _ hlater
  rw [hstream] at hlater ⊢
  rw [ahead_cons]
  have hends := Ends.bind_some (hbracket later steps hlater (by omega))
  rcases hopens with hkind | hkind
  · rw [hkind]
    exact hends
  · rw [hkind]
    exact hends

/-- The body of a bracket is read from the start. -/
theorem Follows.body {body : Option Formula}
    (h : Follows μ .expression closer (glanced tokens) body rest)
    (hsettled : Formula.ofItems? (itemsOf body) = body) {steps : Nat}
    (hsteps : 2 * tokens.length + 2 ≤ steps) (later : Lexer μ)
    (hlater : later.stream = glanced tokens) :
    Ends (expression closer [] steps) later body rest := by
  have hle := length_glanced_le tokens
  have hends := h later steps hlater (by omega) []
  rw [List.reverse_nil, List.nil_append, hsettled] at hends
  exact hends

end Simple

/-! ## Expressions -/

section Expression

variable {closer : Option TokenKind} {tokens middle later rest : List Token}

theorem follows_expression {result : Option Formula}
    (h : ∀ (lexer : Lexer μ) (steps : Nat), lexer.stream = tokens →
      2 * tokens.length + 1 ≤ steps → ∀ before : List Formula,
        Ends (expression closer before (steps + 1)) lexer
          (Formula.ofItems? (before.reverse ++ itemsOf result)) rest) :
    Follows μ .expression closer tokens result rest := by
  intro lexer steps hstream hsteps
  cases steps with
  | zero => cases hsteps
  | succ steps => exact h lexer steps hstream (Nat.le_of_succ_le_succ hsteps)

theorem reverse_reverseAux (items before : List Formula) :
    (items.reverseAux before).reverse = before.reverse ++ items := by
  simp [List.reverseAux_eq]

theorem follows_nothing (hfirst : Follows μ .scripted closer tokens none rest) :
    Follows μ .expression closer tokens none rest := by
  apply follows_expression
  intro lexer steps hstream hsteps before
  apply Ends.bind (hfirst lexer steps hstream (by omega))
  intro final hfinal
  rw [← hfinal, itemsOf_none, List.append_nil]
  exact Ends.pure _

theorem follows_fraction {above below : Formula} {line : Token} {more : Option Formula}
    (hlength : middle.length + 1 < tokens.length) (hle : later.length ≤ middle.length)
    (habove : Follows μ .scripted closer tokens (some above) (line :: middle))
    (hline : line.isInfix .frac = true)
    (hbelow : Follows μ .scripted closer middle (some below) later)
    (hmore : Follows μ .expression closer later more rest) :
    Follows μ .expression closer tokens (some ((fractionOf line above below).followedBy more))
      rest := by
  apply follows_expression
  intro lexer steps hstream hsteps before
  apply Ends.bind (habove lexer steps hstream (by omega))
  intro after hafter
  apply Ends.next_bind
  intro behind _ hbehind
  rw [hafter] at hbehind ⊢
  rw [ahead_cons, hline]
  apply Ends.bind (hbelow behind steps hbehind (by omega))
  intro back hback
  have hkind := (Token.isInfix_iff.mp hline).1
  have hfraction : (liftM (Formula.ofInfix line.mark above.asOperand below.asOperand) :
      Reader μ Formula) back = .ok (fractionOf line above below, back) := by
    simp only [Formula.ofInfix, Mark.operator?, Token.mark, hkind, Arity.kind, if_true]
    rfl
  apply Ends.bind ⟨back, hfraction, hback⟩
  intro final hfinal
  have hends := hmore final steps hfinal (by omega) (fractionOf line above below :: before)
  rw [List.reverse_cons, List.append_assoc] at hends
  rw [itemsOf_some, items_followedBy]
  exact hends

theorem follows_danglingFrac {above : Formula} {line : Token} {more : Option Formula}
    (hlength : middle.length + 1 < tokens.length) (hle : later.length ≤ middle.length)
    (habove : Follows μ .scripted closer tokens (some above) (line :: middle))
    (hline : line.isInfix .frac = true)
    (hbelow : Follows μ .scripted closer middle none later)
    (hmore : Follows μ .expression closer later more rest) :
    Follows μ .expression closer tokens (some (above.followedBy more)) rest := by
  apply follows_expression
  intro lexer steps hstream hsteps before
  apply Ends.bind (habove lexer steps hstream (by omega))
  intro after hafter
  apply Ends.next_bind
  intro behind _ hbehind
  rw [hafter] at hbehind ⊢
  rw [ahead_cons, hline]
  apply Ends.bind (hbelow behind steps hbehind (by omega))
  intro back hback
  have hends := hmore back steps hback (by omega) (above.items.reverseAux before)
  rw [reverse_reverseAux, List.append_assoc] at hends
  rw [itemsOf_some, items_followedBy]
  exact hends

theorem follows_last {item : Formula}
    (hitem : Follows μ .scripted closer tokens (some item) rest)
    (hend : (ahead rest).kind = .endOfInput) :
    Follows μ .expression closer tokens (some item) rest.tail := by
  apply follows_expression
  intro lexer steps hstream hsteps before
  have hline : (ahead rest).isInfix .frac = false :=
    Token.isInfix_eq_false (by rw [hend]; decide) _
  apply Ends.bind (hitem lexer steps hstream (by omega))
  intro after hafter
  subst hafter
  apply Ends.next_bind
  intro behind _ hbehind
  rw [hline, itemsOf_some, ← reverse_reverseAux, ← hbehind]
  change Ends (if (ahead after.stream).kind = .endOfInput then _ else _) _ _ _
  rw [if_pos hend]
  exact Ends.pure _

theorem follows_closed {item : Formula}
    (hitem : Follows μ .scripted closer tokens (some item) rest)
    (hline : (ahead rest).isInfix .frac = false) (hend : (ahead rest).kind ≠ .endOfInput)
    (hcloses : some (ahead rest).kind = closer) :
    Follows μ .expression closer tokens (some item) rest := by
  apply follows_expression
  intro lexer steps hstream hsteps before
  apply Ends.bind (hitem lexer steps hstream (by omega))
  intro after hafter
  subst hafter
  apply Ends.next_bind
  intro behind hpending hbehind
  rw [hline, itemsOf_some, ← reverse_reverseAux]
  change Ends (if (ahead after.stream).kind = .endOfInput then _ else _) _ _ _
  rw [if_neg hend]
  apply Ends.pushBack_bind hpending hbehind
  intro back hback
  rw [if_pos hcloses, ← glanced_of_kind_ahead hend, ← hback]
  exact Ends.pure _

theorem follows_item {item : Formula} {more : Option Formula}
    (hlength : middle.length < tokens.length)
    (hitem : Follows μ .scripted closer tokens (some item) middle)
    (hline : (ahead middle).isInfix .frac = false) (hend : (ahead middle).kind ≠ .endOfInput)
    (hcloses : some (ahead middle).kind ≠ closer)
    (hmore : Follows μ .expression closer middle more rest) :
    Follows μ .expression closer tokens (some (item.followedBy more)) rest := by
  apply follows_expression
  intro lexer steps hstream hsteps before
  apply Ends.bind (hitem lexer steps hstream (by omega))
  intro after hafter
  subst hafter
  apply Ends.next_bind
  intro behind hpending hbehind
  rw [hline]
  change Ends (if (ahead after.stream).kind = .endOfInput then _ else _) _ _ _
  rw [if_neg hend]
  apply Ends.pushBack_bind hpending hbehind
  intro back hback
  rw [glanced_of_kind_ahead hend] at hback
  rw [if_neg hcloses]
  have hends := hmore back steps hback (by omega) (item.items.reverseAux before)
  rw [reverse_reverseAux, List.append_assoc] at hends
  rw [itemsOf_some, items_followedBy]
  exact hends

end Expression

theorem run {level : Level} {closer : Option TokenKind} {tokens rest : List Token}
    {result : Option Formula} (h : Reads level closer tokens result rest) :
    Follows μ level closer tokens result rest := by
  induction h with
  | ended hend => exact follows_ended hend
  | leaf hleaf => exact follows_leaf hleaf
  | stray hkind => exact follows_stray hkind
  | closing hkind => exact follows_closing hkind
  | unary hkind _ ih => exact follows_unary hkind ih
  | binary hkind hfirst _ ihfirst ihsecond =>
    exact follows_binary hkind hfirst.length_le ihfirst ihsecond
  | emptyBracket hopens hcloses =>
    apply follows_bracketed hopens
    intro lexer steps hstream _
    exact bracket_empty hstream hcloses
  | bracket hopens hfull hbody hcloses ih =>
    apply follows_bracketed hopens
    intro lexer steps hstream hsteps
    subst hstream
    exact bracket_closed hfull (ih.body hbody.ofItems?_itemsOf hsteps) hcloses
  | unclosed hopens hfull hbody hopen ih =>
    apply follows_bracketed hopens
    intro lexer steps hstream hsteps
    subst hstream
    exact bracket_unclosed hfull (ih.body hbody.ofItems?_itemsOf hsteps) hopen
  | absent _ ih =>
    intro lexer steps hstream hsteps
    exact scripted_absent (ih lexer steps hstream hsteps)
  | bare _ hsub hsup ih =>
    intro lexer steps hstream hsteps
    apply scripted_bare (ih lexer steps hstream hsteps)
    intro later hlater
    subst hlater
    exact scripts_bare hsub hsup
  | danglingSub hbase hsub _ ihbase ihlower =>
    intro lexer steps hstream hsteps
    have hlt := hbase.length_lt
    rw [List.length_cons] at hlt
    apply scripted_bare (ihbase lexer steps hstream hsteps)
    intro later hlater
    apply scripts_danglingSub hlater hsub
    intro final hfinal
    exact ihlower final steps hfinal (by omega)
  | sub hbase hsub _ hsup ihbase ihlower =>
    intro lexer steps hstream hsteps
    have hlt := hbase.length_lt
    rw [List.length_cons] at hlt
    apply scripted_of_scripts (ihbase lexer steps hstream hsteps)
    intro later hlater
    exact scripts_sub hlater hsub (fun final hfinal ↦ ihlower final steps hfinal (by omega)) hsup
  | subSup hbase hsub hlower hsup _ ihbase ihlower ihupper =>
    intro lexer steps hstream hsteps
    have hlt := hbase.length_lt
    have hlast := hlower.length_le
    rw [List.length_cons] at hlt hlast
    apply scripted_of_scripts (ihbase lexer steps hstream hsteps)
    intro later hlater
    exact scripts_subSup hlater hsub (fun final hfinal ↦ ihlower final steps hfinal (by omega))
      hsup fun final hfinal ↦ ihupper final steps hfinal (by omega)
  | sup hbase hsup _ ihbase ihupper =>
    intro lexer steps hstream hsteps
    have hlt := hbase.length_lt
    rw [List.length_cons] at hlt
    apply scripted_of_scripts (ihbase lexer steps hstream hsteps)
    intro later hlater
    apply scripts_sup hlater hsup
    intro final hfinal
    exact ihupper final steps hfinal (by omega)
  | nothing _ ih => exact follows_nothing ih
  | fraction habove hline hbelow _ ihabove ihbelow ihmore =>
    exact follows_fraction habove.length_lt hbelow.length_le ihabove hline ihbelow ihmore
  | danglingFrac habove hline hbelow _ ihabove ihbelow ihmore =>
    exact follows_danglingFrac habove.length_lt hbelow.length_le ihabove hline ihbelow ihmore
  | last _ hend ih => exact follows_last ih hend
  | closed _ hline hend hcloses ih => exact follows_closed ih hline hend hcloses
  | item hitem hline hend hcloses _ ihitem ihmore =>
    exact follows_item hitem.length_lt ihitem hline hend hcloses ihmore

end Reader

namespace Lexer

open Reading

variable {μ : Type} [Lexicon μ Entry]

/-- What the rules make of the stream is what the lexer reads. -/
theorem read_of_reads {lexer : Lexer μ} {result : Option Formula} {rest : List Token}
    (h : Reads .expression none lexer.stream result rest) :
    ∃ final : Lexer μ, lexer.read = .ok (result, final) ∧ final.stream = rest := by
  have hle := lexer.length_stream_le_size
  have hends := Reader.run (μ := μ) h lexer (2 * lexer.size + 2) rfl (by omega) []
  rw [List.reverse_nil, List.nil_append, h.ofItems?_itemsOf] at hends
  exact hends

theorem formula_of_reads {lexer : Lexer μ} {result : Option Formula} {rest : List Token}
    (h : Reads .expression none lexer.stream result rest) : lexer.formula = .ok result := by
  obtain ⟨final, hread, -⟩ := read_of_reads h
  unfold formula
  rw [hread]
  rfl

/-- Reading ends without a fault at every lexer, and follows the rules. -/
theorem exists_read (lexer : Lexer μ) : ∃ result rest,
    lexer.formula = .ok result ∧ Reads .expression none lexer.stream result rest := by
  obtain ⟨result, rest, hreads⟩ := exists_reads .expression none lexer.stream
  exact ⟨result, rest, formula_of_reads hreads, hreads⟩

end Lexer

end FormulaMarkup
