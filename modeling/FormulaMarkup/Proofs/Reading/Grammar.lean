import FormulaMarkup.Proofs.Reading.Run

/-!
# The grammar of formulas

`Derives` gives the derivations of the grammar together with the formula that each one means. The
grammar is stricter than reading, which accepts every input: brackets are closed, operators have
all their operands, and no script or fraction lacks a part.

A stream with a derivation is read as exactly its formula (`formula_of_derives`). The lexicon may be
any, also one with spellings that end the input, since a token of such a spelling would be part of
the stream and no derivation yields it.
-/

namespace FormulaMarkup

namespace Grammar

open Reading

inductive Category where
  | simple
  | scripted
  | item
  | expression
deriving DecidableEq

/-- The tokens that a derivation yields and the formula that it means. -/
inductive Derives : Category → List Token → Formula → Prop
  | number {token} (hkind : token.kind = .number) : Derives .simple [token] (.number token.text)
  | text {token} (hkind : token.kind = .text) : Derives .simple [token] (.text token.text)
  | identifier {token} (hkind : token.kind = .identifier) :
      Derives .simple [token] (.identifier token.text)
  | symbol {token} (hkind : token.kind = .symbol) : Derives .simple [token] (.symbol token.mark)
  | emptyBrackets {left right} (hleft : left.kind = .opening) (hright : right.kind = .closing) :
      Derives .simple [left, right] (.bracketed (some left.mark) none (some right.mark))
  | brackets {left tokens body right} (hleft : left.kind = .opening)
      (hbody : Derives .expression tokens body) (hright : right.kind = .closing) :
      Derives .simple (left :: tokens ++ [right])
        (Matrix.enclose left.mark (some body) right.mark)
  | unary {operator tokens operand} (hkind : operator.kind = .unary)
      (hoperand : Derives .simple tokens operand) :
      Derives .simple (operator :: tokens)
        (.unary operator.operator
          (operand.asOperand.converted (operator.conversions.getD {}).operand))
  | binary {operator left first right second} (hkind : operator.kind = .binary)
      (hfirst : Derives .simple left first) (hsecond : Derives .simple right second) :
      Derives .simple (operator :: left ++ right)
        (.binary operator.operator
          (first.asOperand.converted (operator.conversions.getD {}).first)
          (second.asOperand.converted (operator.conversions.getD {}).second))
  | bare {tokens base} (hbase : Derives .simple tokens base) : Derives .scripted tokens base
  | sub {left base mark right lower} (hbase : Derives .simple left base)
      (hmark : mark.isInfix .sub = true) (hlower : Derives .simple right lower) :
      Derives .scripted (left ++ mark :: right) (.sub base lower.asOperand)
  | sup {left base mark right upper} (hbase : Derives .simple left base)
      (hmark : mark.isInfix .sup = true) (hupper : Derives .simple right upper) :
      Derives .scripted (left ++ mark :: right) (.sup base upper.asOperand)
  | subSup {left base mark middle lower mark' right upper} (hbase : Derives .simple left base)
      (hmark : mark.isInfix .sub = true) (hlower : Derives .simple middle lower)
      (hmark' : mark'.isInfix .sup = true) (hupper : Derives .simple right upper) :
      Derives .scripted (left ++ mark :: middle ++ mark' :: right)
        (.subSup base lower.asOperand upper.asOperand)
  | plain {tokens item} (hitem : Derives .scripted tokens item) : Derives .item tokens item
  | fraction {left above line right below} (habove : Derives .scripted left above)
      (hline : line.isInfix .frac = true) (hbelow : Derives .scripted right below) :
      Derives .item (left ++ line :: right)
        (.infixOp line.operator above.asOperand below.asOperand)
  | one {tokens item} (hitem : Derives .item tokens item) : Derives .expression tokens item
  | many {parts : List (List Token × Formula)} (hlength : 2 ≤ parts.length)
      (hparts : ∀ part ∈ parts, Derives .item part.1 part.2) :
      Derives .expression (parts.flatMap Prod.fst) (.sequence (parts.map Prod.snd))

/-- Can a formula begin with the token? -/
def Starts (token : Token) : Prop :=
  token.kind ≠ .infixOp ∧ token.kind ≠ .closing ∧ token.kind ≠ .endOfInput

theorem Derives.starts {category tokens formula} (h : Derives category tokens formula) :
    ∃ token rest, tokens = token :: rest ∧ Starts token := by
  induction h with
  | number hkind | text hkind | identifier hkind | symbol hkind =>
    exact ⟨_, [], rfl, by simp [Starts, hkind]⟩
  | emptyBrackets hleft | brackets hleft => exact ⟨_, _, rfl, by simp [Starts, hleft]⟩
  | unary hkind | binary hkind => exact ⟨_, _, rfl, by simp [Starts, hkind]⟩
  | bare _ ih | plain _ ih | one _ ih => exact ih
  | sub _ _ _ ih | sup _ _ _ ih | subSup _ _ _ _ _ ih | fraction _ _ _ ih =>
    obtain ⟨token, rest, rfl, hstarts⟩ := ih
    exact ⟨token, _, rfl, hstarts⟩
  | @many parts hlength _ ih =>
    obtain ⟨part, parts, rfl⟩ := List.exists_cons_of_length_pos (Nat.zero_lt_of_lt hlength)
    obtain ⟨token, rest, hpart, hstarts⟩ := ih part List.mem_cons_self
    refine ⟨token, rest ++ parts.flatMap Prod.fst, ?_, hstarts⟩
    rw [List.flatMap_cons, hpart]
    rfl

theorem Derives.ahead_starts {category tokens formula} (h : Derives category tokens formula)
    (rest : List Token) : Starts (ahead (tokens ++ rest)) := by
  obtain ⟨token, tail, rfl, hstarts⟩ := h.starts
  exact hstarts

/-- Only an expression can mean a sequence. -/
theorem Derives.items_eq {category tokens formula} (h : Derives category tokens formula)
    (hne : category ≠ .expression) : formula.items = [formula] := by
  induction h with
  | number | text | identifier | symbol | emptyBrackets | unary | binary | sub | sup | subSup
  | fraction => rfl
  | brackets => exact items_enclose _ _ _
  | bare _ ih | plain _ ih => exact ih (by decide)
  | one | many => exact absurd rfl hne

/-! ## Derivations are read -/

/-- The place behind the last item of an expression. -/
def AtEnd (closer : Option TokenKind) (rest : List Token) : Prop :=
  rest = [] ∨ (ahead rest).kind = .closing ∧ closer = some .closing

/-- What stands behind a scripted formula is neither a script nor lost by a look at it. -/
def Quiet (rest : List Token) : Prop :=
  (ahead rest).isInfix .sub = false ∧ (ahead rest).isInfix .sup = false ∧ glanced rest = rest

theorem quiet_of_kind_ne {rest : List Token} (hother : (ahead rest).kind ≠ .infixOp)
    (hend : (ahead rest).kind ≠ .endOfInput) : Quiet rest :=
  ⟨Token.isInfix_eq_false hother _, Token.isInfix_eq_false hother _, glanced_of_kind_ahead hend⟩

theorem quiet_line {line : Token} (hline : line.isInfix .frac = true) (rest : List Token) :
    Quiet (line :: rest) := by
  have hglanced : glanced (line :: rest) = line :: rest := by
    apply glanced_of_kind_ahead
    rw [ahead_cons, (Token.isInfix_iff.mp hline).1]
    decide
  exact ⟨Token.isInfix_eq_false_of_ne hline (by decide),
    Token.isInfix_eq_false_of_ne hline (by decide), hglanced⟩

theorem AtEnd.quiet {closer : Option TokenKind} {rest : List Token} (h : AtEnd closer rest) :
    Quiet rest := by
  rcases h with rfl | ⟨hkind, -⟩
  · exact ⟨rfl, rfl, rfl⟩
  · exact quiet_of_kind_ne (by rw [hkind]; decide) (by rw [hkind]; decide)

theorem AtEnd.reads {closer : Option TokenKind} {rest : List Token} (h : AtEnd closer rest) :
    Reads .expression closer rest none rest := by
  rcases h with rfl | ⟨hkind, rfl⟩
  · exact .nothing (.absent (.ended rfl))
  · have hne : (ahead rest).kind ≠ .endOfInput := by
      rw [hkind]
      decide
    rw [eq_cons_of_kind_ahead hne]
    exact .nothing (.absent (.closing hkind))

/-- The ways in which the stream can go on behind an item: the expression ends there, or another
item follows. -/
def GoesOn (closer : Option TokenKind) (rest : List Token) (more : Option Formula)
    (final : List Token) : Prop :=
  AtEnd closer rest ∧ more = none ∧ final = rest ∨
    Starts (ahead rest) ∧ Reads .expression closer rest more final

theorem GoesOn.quiet {closer : Option TokenKind} {rest final : List Token} {more : Option Formula}
    (h : GoesOn closer rest more final) : Quiet rest := by
  rcases h with ⟨hend, -, -⟩ | ⟨hstarts, -⟩
  · exact hend.quiet
  · exact quiet_of_kind_ne hstarts.1 hstarts.2.2

theorem GoesOn.reads {closer : Option TokenKind} {rest final : List Token} {more : Option Formula}
    (h : GoesOn closer rest more final) : Reads .expression closer rest more final := by
  rcases h with ⟨hend, rfl, rfl⟩ | ⟨-, hreads⟩
  · exact hend.reads
  · exact hreads

/-- Reading makes the formula of what a derivation yields, whatever stands behind it. -/
def IsRead (category : Category) (tokens : List Token) (formula : Formula) : Prop :=
  match category with
  | .simple => ∀ closer rest, Reads .simple closer (tokens ++ rest) (some formula) rest
  | .scripted => ∀ closer rest, Quiet rest →
      Reads .scripted closer (tokens ++ rest) (some formula) rest
  | .item => ∀ closer rest more final, (∀ kind ∈ closer, kind = .closing) →
      GoesOn closer rest more final →
      Reads .expression closer (tokens ++ rest) (some (formula.followedBy more)) final
  | .expression => ∀ closer rest, (∀ kind ∈ closer, kind = .closing) → AtEnd closer rest →
      Reads .expression closer (tokens ++ rest) (some formula) rest

theorem isRead_leaf {token : Token} {formula : Formula} (h : token.leaf? = some formula) :
    IsRead .simple [token] formula :=
  fun _ _ ↦ .leaf h

theorem isRead_bare {tokens : List Token} {base : Formula} (h : IsRead .simple tokens base) :
    IsRead .scripted tokens base := by
  intro closer rest hquiet
  have hreads := Reads.bare (h closer rest) hquiet.1 hquiet.2.1
  rwa [hquiet.2.2] at hreads

theorem isRead_brackets {left right : Token} {tokens : List Token} {body : Formula}
    (hleft : left.kind = .opening) (hright : right.kind = .closing)
    (hstarts : ∀ rest, Starts (ahead (tokens ++ rest))) (hbody : IsRead .expression tokens body) :
    IsRead .simple (left :: tokens ++ [right])
      (Matrix.enclose left.mark (some body) right.mark) := by
  intro closer rest
  have hcloser : Reader.closerOf left = .closing := if_pos hleft
  have hnext := hstarts (right :: rest)
  have hreads := hbody (some .closing) (right :: rest) (by simp) (.inr ⟨hright, rfl⟩)
  rw [← hcloser, ← glanced_of_kind_ahead hnext.2.2] at hreads
  have happend : left :: tokens ++ [right] ++ rest = left :: (tokens ++ right :: rest) := by simp
  rw [happend]
  exact .bracket (.inl hleft) (by rw [hcloser]; exact hnext.2.1) hreads (hright.trans hcloser.symm)

theorem isRead_plain {tokens : List Token} {item : Formula} (h : IsRead .scripted tokens item) :
    IsRead .item tokens item := by
  intro closer rest more final hcloser hgoes
  have hitem := h closer rest hgoes.quiet
  rcases hgoes with ⟨rfl | ⟨hkind, rfl⟩, rfl, rfl⟩ | ⟨hstarts, hmore⟩
  · exact .last hitem rfl
  · refine .closed hitem (Token.isInfix_eq_false ?_ _) ?_ (congrArg some hkind)
    · rw [hkind]
      decide
    · rw [hkind]
      decide
  · refine .item hitem (Token.isInfix_eq_false hstarts.1 _) hstarts.2.2 ?_ hmore
    intro hcloses
    exact hstarts.2.1 (hcloser _ (Option.mem_def.mpr hcloses.symm))

theorem isRead_fraction {left right : List Token} {above below : Formula} {line : Token}
    (habove : IsRead .scripted left above) (hline : line.isInfix .frac = true)
    (hbelow : IsRead .scripted right below) :
    IsRead .item (left ++ line :: right)
      (.infixOp line.operator above.asOperand below.asOperand) := by
  intro closer rest more final _ hgoes
  rw [List.append_assoc]
  exact .fraction (habove closer _ (quiet_line hline _)) hline (hbelow closer rest hgoes.quiet)
    hgoes.reads

theorem followedBy_ofItems? {first : Formula} (hfirst : first.items = [first])
    {formulas : List Formula} (h : ∀ formula ∈ formulas, formula.items = [formula]) :
    some (first.followedBy (Formula.ofItems? formulas)) = Formula.ofItems? (first :: formulas) := by
  match formulas with
  | [] => rfl
  | [second] =>
    have hsecond := h second List.mem_cons_self
    simp only [Formula.ofItems?, Formula.followedBy, Formula.concat_eq, hfirst, hsecond]
    rfl
  | second :: third :: others =>
    simp only [Formula.ofItems?, Formula.followedBy, Formula.concat_eq, hfirst]
    rfl

theorem ofItems?_eq_sequence {formulas : List Formula} (h : 2 ≤ formulas.length) :
    Formula.ofItems? formulas = some (.sequence formulas) := by
  cases formulas with
  | nil => simp at h
  | cons first rest =>
    cases rest with
    | nil => simp at h
    | cons second rest => rfl

/-- A run of items is read as their flat sequence. -/
theorem reads_items {closer : Option TokenKind} {rest : List Token}
    (hcloser : ∀ kind ∈ closer, kind = .closing) (hend : AtEnd closer rest)
    {parts : List (List Token × Formula)} (hne : parts ≠ [])
    (hparts : ∀ part ∈ parts, Derives .item part.1 part.2)
    (hreads : ∀ part ∈ parts, IsRead .item part.1 part.2) :
    Reads .expression closer (parts.flatMap Prod.fst ++ rest)
      (Formula.ofItems? (parts.map Prod.snd)) rest := by
  induction parts with
  | nil => exact absurd rfl hne
  | cons part parts ih =>
    obtain ⟨hpart, hparts⟩ := List.forall_mem_cons.mp hparts
    obtain ⟨hread, hreads⟩ := List.forall_mem_cons.mp hreads
    have hitems : ∀ formula ∈ parts.map Prod.snd, formula.items = [formula] := by
      intro formula hmem
      obtain ⟨later, hlater, rfl⟩ := List.mem_map.mp hmem
      exact (hparts later hlater).items_eq (by decide)
    rw [List.flatMap_cons, List.map_cons, List.append_assoc,
      ← followedBy_ofItems? (hpart.items_eq (by decide)) hitems]
    apply hread closer _ _ _ hcloser
    cases parts with
    | nil => exact .inl ⟨hend, rfl, rfl⟩
    | cons second parts =>
      refine .inr ⟨?_, ih (List.cons_ne_nil _ _) hparts hreads⟩
      rw [List.flatMap_cons, List.append_assoc]
      exact (hparts second List.mem_cons_self).ahead_starts _

theorem Derives.isRead {category tokens formula} (h : Derives category tokens formula) :
    IsRead category tokens formula := by
  induction h with
  | number hkind | text hkind | identifier hkind | symbol hkind =>
    exact isRead_leaf (by simp [Token.leaf?, hkind])
  | emptyBrackets hleft hright =>
    intro closer rest
    exact .emptyBracket (.inl hleft) (hright.trans (if_pos hleft).symm)
  | brackets hleft hbody hright ih => exact isRead_brackets hleft hright hbody.ahead_starts ih
  | unary hkind _ ih =>
    intro closer rest
    exact .unary hkind (ih closer rest)
  | binary hkind _ _ ihfirst ihsecond =>
    intro closer rest
    rw [List.append_assoc]
    exact .binary hkind (ihfirst closer _) (ihsecond closer rest)
  | bare _ ih => exact isRead_bare ih
  | sub _ hmark _ ihbase ihlower =>
    intro closer rest hquiet
    have hreads := Reads.sub (ihbase closer _) hmark (ihlower closer rest) hquiet.2.1
    rw [hquiet.2.2] at hreads
    rwa [List.append_assoc]
  | sup _ hmark _ ihbase ihupper =>
    intro closer rest _
    rw [List.append_assoc]
    exact .sup (ihbase closer _) hmark (ihupper closer rest)
  | subSup _ hmark _ hmark' _ ihbase ihlower ihupper =>
    intro closer rest _
    rw [List.append_assoc, List.append_assoc]
    exact .subSup (ihbase closer _) hmark (ihlower closer _) hmark' (ihupper closer rest)
  | plain _ ih => exact isRead_plain ih
  | fraction _ hline _ ihabove ihbelow => exact isRead_fraction ihabove hline ihbelow
  | @one tokens item hitem ih =>
    intro closer rest hcloser hend
    exact ih closer rest none rest hcloser (.inl ⟨hend, rfl, rfl⟩)
  | @many parts hlength hparts ih =>
    intro closer rest hcloser hend
    have hne : parts ≠ [] := List.ne_nil_of_length_pos (Nat.zero_lt_of_lt hlength)
    have hreads := reads_items hcloser hend hne hparts ih
    rwa [ofItems?_eq_sequence (by simpa using hlength)] at hreads

/-- What the grammar derives is read as the formula that the derivation means. -/
theorem formula_of_derives {μ : Type} [Lexicon μ Entry] {lexer : Lexer μ} {tokens : List Token}
    {formula : Formula} (hstream : lexer.stream = tokens)
    (hderives : Derives .expression tokens formula) : lexer.formula = .ok (some formula) := by
  have hreads := hderives.isRead none [] (by simp) (.inl rfl)
  rw [List.append_nil, ← hstream] at hreads
  exact Lexer.formula_of_reads hreads

/-- The spellings of a root, a fraction, a lower script and round brackets. -/
def few : Entries Entry :=
  [("sqrt", { symbol := some .sqrt, kind := .unary }),
   ("/", { symbol := some .frac, kind := .infixOp }),
   ("_", { symbol := some .sub, kind := .infixOp }),
   ("(", { symbol := some .leftParen, kind := .opening }),
   (")", { symbol := some .rightParen, kind := .closing })]

/-- A fraction of a scripted identifier and a root, before another identifier. -/
def fewRow : Formula :=
  .sequence
    [.infixOp ⟨some .frac, "/"⟩ (.sub (.identifier "a") (.number "1"))
      (.unary ⟨some .sqrt, "sqrt"⟩ (.grouped (some ⟨some .leftParen, "(", .opening⟩)
        (some (.identifier "b")) (some ⟨some .rightParen, ")", .closing⟩))),
     .identifier "c"]

theorem formula_of_derives_few :
    Derives .expression (Lexer.ofString few "a_1/sqrt(b) c").stream fewRow ∧
      (Lexer.ofString few "a_1/sqrt(b) c").formula = .ok (some fewRow) := by
  let a : Token := .plain .identifier "a"
  let sub : Token := .ofEntry "_" { symbol := some .sub, kind := .infixOp }
  let number : Token := .plain .number "1"
  let line : Token := .ofEntry "/" { symbol := some .frac, kind := .infixOp }
  let root : Token := .ofEntry "sqrt" { symbol := some .sqrt, kind := .unary }
  let left : Token := .ofEntry "(" { symbol := some .leftParen, kind := .opening }
  let b : Token := .plain .identifier "b"
  let right : Token := .ofEntry ")" { symbol := some .rightParen, kind := .closing }
  let c : Token := .plain .identifier "c"
  have hends : Lexicon.NeverEnds few := Entries.gives (by decide)
  have htokens : (Lexer.ofString few "a_1/sqrt(b) c").tokens =
      [a, sub, number, line, root, left, b, right, c] := rfl
  have hstream := (Lexer.tokens_eq_stream hends "a_1/sqrt(b) c").symm.trans htokens
  have habove : Derives .scripted [a, sub, number] (.sub (.identifier "a") (.number "1")) :=
    .sub (.identifier rfl) rfl (.number rfl)
  have hbrackets : Derives .simple [left, b, right]
      (.bracketed (some left.mark) (some (.identifier "b")) (some right.mark)) :=
    .brackets rfl (.one (.plain (.bare (.identifier rfl)))) rfl
  have hbelow := Derives.bare (.unary (rfl : root.kind = .unary) hbrackets)
  have hfraction := Derives.fraction habove (rfl : line.isInfix .frac = true) hbelow
  have hlast : Derives .item [c] (.identifier "c") := .plain (.bare (.identifier rfl))
  have hrow := @Derives.many [(_, _), (_, _)] (le_refl 2)
    (List.forall_mem_cons.mpr ⟨hfraction, List.forall_mem_singleton.mpr hlast⟩)
  exact ⟨hstream ▸ hrow, formula_of_derives hstream hrow⟩

end Grammar

end FormulaMarkup
