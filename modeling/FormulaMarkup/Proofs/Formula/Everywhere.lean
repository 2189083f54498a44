import FormulaMarkup.Formula.Induction
import FormulaMarkup.Proofs.Reading.Rules

/-!
# Properties of all parts of a formula

`Everywhere property formula` says that a property holds of a formula, of its parts, of their parts
and so on. A property that asks something of operations only spreads from the parts that a reader
puts together to what it makes of them, so it holds everywhere in each formula that is read as soon
as it holds of each operation that can be read (`Reads.everywhere`).
-/

namespace FormulaMarkup

namespace Formula

/-- The formulas that a formula is directly made of. -/
def parts : Formula → List Formula
  | sequence items => items
  | bracketed _ body _ => body.toList
  | grouped _ body _ => body.toList
  | matrix _ rows _ => rows.flatten
  | unary _ operand => [operand]
  | binary _ first second => [first, second]
  | infixOp _ first second => [first, second]
  | sub base script => [base, script]
  | sup base script => [base, script]
  | subSup base lower upper => [base, lower, upper]
  | empty | number _ | text _ | identifier _ | symbol _ | color _ => []

/-- The property holds at every depth. -/
inductive Everywhere (property : Formula → Prop) : Formula → Prop
  | intro {formula} (here : property formula)
      (within : ∀ part ∈ formula.parts, Everywhere property part) : Everywhere property formula

theorem Everywhere.here {property : Formula → Prop} {formula : Formula}
    (h : Everywhere property formula) : property formula := by
  cases h with
  | intro here within => exact here

theorem Everywhere.of_mem_parts {property : Formula → Prop} {formula part : Formula}
    (h : Everywhere property formula) (hpart : part ∈ formula.parts) :
    Everywhere property part := by
  cases h with
  | intro here within => exact within part hpart

theorem everywhere_iff {property : Formula → Prop} {formula : Formula} :
    Everywhere property formula ↔
      property formula ∧ ∀ part ∈ formula.parts, Everywhere property part :=
  ⟨fun h ↦ ⟨h.here, fun _ ↦ h.of_mem_parts⟩, fun h ↦ .intro h.1 h.2⟩

theorem Everywhere.mono {property weaker : Formula → Prop} {formula : Formula}
    (hweaker : ∀ formula, property formula → weaker formula) (h : Everywhere property formula) :
    Everywhere weaker formula := by
  induction h with
  | intro here within ih => exact .intro (hweaker _ here) ih

theorem everywhere_congr {property other : Formula → Prop}
    (hsame : ∀ formula, property formula ↔ other formula) (formula : Formula) :
    Everywhere property formula ↔ Everywhere other formula :=
  ⟨.mono fun formula ↦ (hsame formula).mp, .mono fun formula ↦ (hsame formula).mpr⟩

/-- Does the formula apply an operator? -/
def isOperation : Formula → Bool
  | unary _ _ | binary _ _ _ | infixOp _ _ _ => true
  | _ => false

/-- Does the formula have a symbol or delimiters of its own? -/
def isMarked : Formula → Bool
  | symbol _ | bracketed _ _ _ | grouped _ _ _ | matrix _ _ _ => true
  | _ => false

/-- Does the formula have scripts? -/
def isScripted : Formula → Bool
  | sub _ _ | sup _ _ | subSup _ _ _ => true
  | _ => false

/-- The property asks nothing of a formula that applies no operator. -/
def Lenient (property : Formula → Prop) : Prop :=
  ∀ formula : Formula, formula.isOperation = false → property formula

/-- The property asks nothing of a formula that applies no operator and has no marks, and does not
tell brackets that are not drawn from others. -/
structure Mild (property : Formula → Prop) : Prop where
  plain : ∀ formula : Formula, formula.isOperation = false → formula.isMarked = false →
    property formula
  grouped : ∀ {left body right}, property (bracketed left body right) →
    property (grouped left body right)

/-- The property asks nothing of a formula that has no marks and neither operands nor scripts, and
does not tell brackets that are not drawn from others. -/
structure Neutral (property : Formula → Prop) : Prop where
  plain : ∀ formula : Formula, formula.isOperation = false → formula.isMarked = false →
    formula.isScripted = false → property formula
  grouped : ∀ {left body right}, property (bracketed left body right) →
    property (grouped left body right)

variable {property : Formula → Prop}

theorem Mild.neutral (h : Mild property) : Neutral property where
  plain formula hoperation hmarked _ := h.plain formula hoperation hmarked
  grouped := h.grouped

theorem Lenient.mild (h : Lenient property) : Mild property where
  plain formula hleaf _ := h formula hleaf
  grouped _ := h _ rfl

theorem everywhere_of_parts_eq_nil {formula : Formula} (here : property formula)
    (hparts : formula.parts = []) : Everywhere property formula := by
  apply Everywhere.intro here
  rw [hparts]
  intro part hmem
  cases hmem

/-- What holds of every formula holds at every depth. -/
theorem everywhere_of_forall (h : ∀ formula, property formula) (formula : Formula) :
    Everywhere property formula := by
  induction formula with
  | empty | number | text | identifier | symbol | color =>
    exact everywhere_of_parts_eq_nil (h _) rfl
  | sequence items ih => exact .intro (h _) ih
  | bracketed left body right ih | grouped left body right ih =>
    exact .intro (h _) fun part hpart ↦ ih part (Option.mem_toList.mp hpart)
  | matrix left rows right ih =>
    refine .intro (h _) fun part hpart ↦ ?_
    obtain ⟨cells, hcells, hcell⟩ := List.mem_flatten.mp hpart
    exact ih cells hcells part hcell
  | unary operator operand ih => exact .intro (h _) (List.forall_mem_singleton.mpr ih)
  | binary _ first second ihfirst ihsecond | infixOp _ first second ihfirst ihsecond
  | sub first second ihfirst ihsecond | sup first second ihfirst ihsecond =>
    exact .intro (h _) (by simp [parts, ihfirst, ihsecond])
  | subSup base lower upper ihbase ihlower ihupper =>
    exact .intro (h _) (by simp [parts, ihbase, ihlower, ihupper])

theorem everywhere_sequence (hneutral : Neutral property) {items : List Formula}
    (h : ∀ item ∈ items, Everywhere property item) : Everywhere property (sequence items) :=
  .intro (hneutral.plain _ rfl rfl rfl) h

theorem everywhere_bracketed {left right : Option Mark} {body : Option Formula}
    (here : property (bracketed left body right))
    (h : ∀ formula ∈ body, Everywhere property formula) :
    Everywhere property (bracketed left body right) := by
  apply Everywhere.intro here
  intro part hmem
  exact h part (Option.mem_toList.mp hmem)

theorem Everywhere.items {formula : Formula} (h : Everywhere property formula) :
    ∀ item ∈ formula.items, Everywhere property item := by
  cases formula with
  | sequence items => exact fun item hmem ↦ h.of_mem_parts hmem
  | _ =>
    intro item hmem
    exact List.mem_singleton.mp hmem ▸ h

theorem everywhere_concat (hneutral : Neutral property) {left right : Formula}
    (hleft : Everywhere property left) (hright : Everywhere property right) :
    Everywhere property (left.concat right) := by
  rw [concat_eq]
  apply everywhere_sequence hneutral
  intro item hmem
  rcases List.mem_append.mp hmem with hmem | hmem
  · exact hleft.items item hmem
  · exact hright.items item hmem

theorem everywhere_followedBy (hneutral : Neutral property) {first : Formula}
    {more : Option Formula} (hfirst : Everywhere property first)
    (hmore : ∀ formula ∈ more, Everywhere property formula) :
    Everywhere property (first.followedBy more) := by
  cases more with
  | none => exact hfirst
  | some more => exact everywhere_concat hneutral hfirst (hmore more rfl)

theorem everywhere_asOperand (hneutral : Neutral property) {formula : Formula}
    (h : Everywhere property formula) : Everywhere property formula.asOperand := by
  cases formula with
  | bracketed left body right =>
    rw [asOperand]
    split
    · exact .intro (hneutral.grouped h.here) fun part hmem ↦ h.of_mem_parts hmem
    · exact h
  | _ => exact h

theorem everywhere_converted (hneutral : Neutral property) {formula : Formula}
    (h : Everywhere property formula) (conversion : Option Conversion) :
    Everywhere property (formula.converted conversion) := by
  cases conversion with
  | none => exact h
  | some conversion =>
    cases conversion
    exact everywhere_of_parts_eq_nil (hneutral.plain _ rfl rfl rfl) rfl

theorem everywhere_withScripts (hmild : Mild property) {base : Formula}
    {lower upper : Option Formula} (hbase : Everywhere property base)
    (hlower : ∀ formula ∈ lower, Everywhere property formula)
    (hupper : ∀ formula ∈ upper, Everywhere property formula) :
    Everywhere property (base.withScripts lower upper) := by
  have hscript : ∀ {script : Option Formula}, (∀ formula ∈ script, Everywhere property formula) →
      ∀ formula ∈ script, Everywhere property formula.asOperand :=
    fun h formula hmem ↦ everywhere_asOperand hmild.neutral (h formula hmem)
  cases lower with
  | none =>
    cases upper with
    | none => exact hbase
    | some upper =>
      apply Everywhere.intro (hmild.plain (sup base upper.asOperand) rfl rfl)
      simp only [parts, List.forall_mem_cons]
      exact ⟨hbase, hscript hupper upper rfl, by simp⟩
  | some lower =>
    cases upper with
    | none =>
      apply Everywhere.intro (hmild.plain (sub base lower.asOperand) rfl rfl)
      simp only [parts, List.forall_mem_cons]
      exact ⟨hbase, hscript hlower lower rfl, by simp⟩
    | some upper =>
      apply Everywhere.intro (hmild.plain (subSup base lower.asOperand upper.asOperand) rfl rfl)
      simp only [parts, List.forall_mem_cons]
      exact ⟨hbase, hscript hlower lower rfl, hscript hupper upper rfl, by simp⟩

end Formula

open Formula

namespace Matrix

variable {property : Formula → Prop}

theorem exists_eq_bracketed_of_rowBody? {formula : Formula} {body : Option Formula}
    (h : rowBody? formula = some body) :
    ∃ left right, formula = bracketed (some left) body (some right) := by
  unfold rowBody? at h
  split at h
  · next left inner right =>
    split at h
    · cases h
      exact ⟨left, right, rfl⟩
    · cases h
  · cases h

/-- Each row is in brackets among the formulas. -/
theorem exists_bracketed_mem_of_rowBodies? {formulas : List Formula}
    {bodies : List (Option Formula)} (h : rowBodies? formulas = some bodies) :
    ∀ body ∈ bodies, ∃ left right, bracketed (some left) body (some right) ∈ formulas := by
  fun_induction rowBodies? formulas generalizing bodies with
  | case1 => cases h
  | case2 row =>
    obtain ⟨body, hbody, rfl⟩ := Option.map_eq_some_iff.mp h
    obtain ⟨left, right, rfl⟩ := exists_eq_bracketed_of_rowBody? hbody
    rw [List.forall_mem_singleton]
    exact ⟨left, right, List.mem_cons_self⟩
  | case3 row separator rows hseparator ih =>
    obtain ⟨body, hbody, h⟩ := Option.bind_eq_some_iff.mp h
    obtain ⟨later, hlater, h⟩ := Option.bind_eq_some_iff.mp h
    cases h
    obtain ⟨left, right, rfl⟩ := exists_eq_bracketed_of_rowBody? hbody
    rw [List.forall_mem_cons]
    refine ⟨⟨left, right, List.mem_cons_self⟩, fun body hmem ↦ ?_⟩
    obtain ⟨left, right, hrow⟩ := ih hlater body hmem
    exact ⟨left, right, List.mem_cons_of_mem _ (List.mem_cons_of_mem _ hrow)⟩
  | case4 => cases h

theorem everywhere_rowBodies {formulas : List Formula} {bodies : List (Option Formula)}
    (h : rowBodies? formulas = some bodies)
    (hformulas : ∀ formula ∈ formulas, Everywhere property formula) :
    ∀ body ∈ bodies, ∀ inner ∈ body, Everywhere property inner := by
  intro body hmem inner hinner
  obtain ⟨left, right, hrow⟩ := exists_bracketed_mem_of_rowBodies? h body hmem
  exact (hformulas _ hrow).of_mem_parts (Option.mem_toList.mpr hinner)

theorem mem_of_mem_splitAtSeparators {formulas run : List Formula} {formula : Formula}
    (hrun : run ∈ splitAtSeparators formulas) (hmem : formula ∈ run) : formula ∈ formulas := by
  induction formulas generalizing run with
  | nil =>
    rw [List.mem_singleton.mp hrun] at hmem
    exact hmem
  | cons first rest ih =>
    unfold splitAtSeparators at hrun
    split at hrun
    · rcases List.mem_cons.mp hrun with rfl | hrun
      · cases hmem
      · exact List.mem_cons_of_mem first (ih hrun hmem)
    · split at hrun
      · next hnil => exact absurd hnil (splitAtSeparators_ne_nil rest)
      · next front runs hsplit =>
        rw [hsplit] at ih
        rcases List.mem_cons.mp hrun with rfl | hrun
        · rcases List.mem_cons.mp hmem with rfl | hmem
          · exact List.mem_cons_self
          · exact List.mem_cons_of_mem first (ih List.mem_cons_self hmem)
        · exact List.mem_cons_of_mem first (ih (List.mem_cons_of_mem front hrun) hmem)

theorem everywhere_cellOf (hneutral : Neutral property) {formulas : List Formula}
    (h : ∀ formula ∈ formulas, Everywhere property formula) :
    Everywhere property (cellOf formulas) := by
  unfold cellOf
  split
  · exact everywhere_of_parts_eq_nil (hneutral.plain _ rfl rfl rfl) rfl
  · exact h _ List.mem_cons_self
  · exact everywhere_sequence hneutral h

theorem everywhere_cellsOf (hneutral : Neutral property) {body : Option Formula}
    (h : ∀ formula ∈ body, Everywhere property formula) :
    ∀ cell ∈ cellsOf body, Everywhere property cell := by
  unfold cellsOf
  split
  · rw [List.forall_mem_singleton]
    exact everywhere_of_parts_eq_nil (hneutral.plain _ rfl rfl rfl) rfl
  · next items =>
    intro cell hmem
    obtain ⟨run, hrun, rfl⟩ := List.mem_map.mp hmem
    apply everywhere_cellOf hneutral
    intro formula hformula
    exact (h _ rfl).of_mem_parts (mem_of_mem_splitAtSeparators hrun hformula)
  · exact List.forall_mem_singleton.mpr (h _ rfl)

theorem everywhere_enclose (hneutral : Neutral property) {left right : Mark} {body : Option Formula}
    (hbracketed : ∀ body, property (bracketed (some left) body (some right)))
    (hmatrix : ∀ rows, property (matrix left rows right))
    (h : ∀ formula ∈ body, Everywhere property formula) :
    Everywhere property (enclose left body right) := by
  unfold enclose
  split
  · next bodies hbodies =>
    obtain ⟨formula, rfl, hrows⟩ := Option.bind_eq_some_iff.mp hbodies
    have hinner := everywhere_rowBodies hrows (h formula rfl).items
    apply Everywhere.intro (hmatrix _)
    intro cell hmem
    obtain ⟨cells, hcells, hcell⟩ := List.mem_flatten.mp hmem
    obtain ⟨inner, hmem, rfl⟩ := List.mem_map.mp hcells
    exact everywhere_cellsOf hneutral (hinner inner hmem) cell hcell
  · exact everywhere_bracketed (hbracketed body) h

end Matrix

namespace Reading

/-- The property holds of each operation that can be read from fitting tokens. -/
structure Spreads (fits : Token → Prop) (property : Formula → Prop) : Prop where
  lenient : Lenient property
  unary : ∀ operator only, fits operator → operator.kind = .unary →
    property (unaryOf operator only)
  binary : ∀ operator first second, fits operator → operator.kind = .binary →
    property (binaryOf operator first second)
  fraction : ∀ line above below, fits line → line.isInfix .frac = true →
    property (fractionOf line above below)

/-- The property holds of each formula with marks that can be read from fitting tokens. -/
structure SpreadsMarked (fits : Token → Prop) (property : Formula → Prop) : Prop
    extends Mild property where
  symbol : ∀ token, fits token → token.kind = .symbol ∨ token.kind = .infixOp ∨
    token.kind = .closing ∨ token.kind = .bar → property (.symbol token.mark)
  bracketed : ∀ (left right : Token) (body : Option Formula), fits left → left.Opens →
    right.kind = Reader.closerOf left →
    property (.bracketed (some left.mark) body (some right.mark))
  unclosed : ∀ left body, fits left → left.kind = .opening →
    property (.bracketed (some left.mark) body none)
  matrix : ∀ (left right : Token) (rows : List (List Formula)), fits left → left.Opens →
    right.kind = Reader.closerOf left → property (.matrix left.mark rows right.mark)
  unary : ∀ operator only, fits operator → operator.kind = .unary →
    property (unaryOf operator only)
  binary : ∀ operator first second, fits operator → operator.kind = .binary →
    property (binaryOf operator first second)
  fraction : ∀ line above below, fits line → line.isInfix .frac = true →
    property (fractionOf line above below)

variable {fits : Token → Prop} {property : Formula → Prop}

theorem Spreads.marked (h : Spreads fits property) : SpreadsMarked fits property where
  toMild := h.lenient.mild
  symbol _ _ _ := h.lenient _ rfl
  bracketed _ _ _ _ _ _ := h.lenient _ rfl
  unclosed _ _ _ _ := h.lenient _ rfl
  matrix _ _ _ _ _ _ := h.lenient _ rfl
  unary := h.unary
  binary := h.binary
  fraction := h.fraction

theorem everywhere_operandOf (hneutral : Neutral property) {only : Option Formula}
    (h : ∀ formula ∈ only, Everywhere property formula) :
    Everywhere property (operandOf only) := by
  cases only with
  | none => exact everywhere_of_parts_eq_nil (hneutral.plain _ rfl rfl rfl) rfl
  | some formula => exact everywhere_asOperand hneutral (h formula rfl)

theorem everywhere_leaf (hspreads : SpreadsMarked fits property) {token : Token}
    {formula : Formula} (hfits : fits token) (h : token.leaf? = some formula) :
    Everywhere property formula := by
  unfold Token.leaf? at h
  split at h
  · cases h
    exact everywhere_of_parts_eq_nil (hspreads.plain _ rfl rfl) rfl
  · cases h
    exact everywhere_of_parts_eq_nil (hspreads.plain _ rfl rfl) rfl
  · cases h
    exact everywhere_of_parts_eq_nil (hspreads.plain _ rfl rfl) rfl
  · next hkind =>
    cases h
    exact everywhere_of_parts_eq_nil (hspreads.symbol token hfits (.inl hkind)) rfl
  · next hkind =>
    cases h
    exact everywhere_of_parts_eq_nil (hspreads.symbol token hfits (.inr (.inl hkind))) rfl
  · cases h

theorem everywhere_unclosed (hspreads : SpreadsMarked fits property) {left : Token}
    {body : Option Formula} (hfits : fits left) (hopens : left.Opens)
    (h : ∀ formula ∈ body, Everywhere property formula) :
    Everywhere property (Reader.unclosed left body) := by
  rw [unclosed_eq]
  split
  · next hbar =>
    have hmark : Everywhere property (.symbol left.mark) :=
      everywhere_of_parts_eq_nil (hspreads.symbol left hfits (.inr (.inr (.inr hbar)))) rfl
    exact everywhere_followedBy hspreads.toMild.neutral hmark h
  · next hbar =>
    exact everywhere_bracketed (hspreads.unclosed left body hfits (hopens.resolve_right hbar)) h

theorem everywhere_unaryOf (hspreads : SpreadsMarked fits property) {operator : Token}
    {only : Option Formula} (hfits : fits operator) (hkind : operator.kind = .unary)
    (honly : ∀ formula ∈ only, Everywhere property formula) :
    Everywhere property (unaryOf operator only) := by
  apply Everywhere.intro (hspreads.unary operator only hfits hkind)
  intro part hmem
  rw [List.mem_singleton.mp hmem]
  have hneutral := hspreads.toMild.neutral
  exact everywhere_converted hneutral (everywhere_operandOf hneutral honly) _

theorem everywhere_binaryOf (hspreads : SpreadsMarked fits property) {operator : Token}
    {first second : Option Formula} (hfits : fits operator) (hkind : operator.kind = .binary)
    (hfirst : ∀ formula ∈ first, Everywhere property formula)
    (hsecond : ∀ formula ∈ second, Everywhere property formula) :
    Everywhere property (binaryOf operator first second) := by
  have hneutral := hspreads.toMild.neutral
  apply Everywhere.intro (hspreads.binary operator first second hfits hkind)
  simp only [binaryOf, parts, List.forall_mem_cons]
  exact ⟨everywhere_converted hneutral (everywhere_operandOf hneutral hfirst) _,
    everywhere_converted hneutral (everywhere_operandOf hneutral hsecond) _, by simp⟩

theorem everywhere_fractionOf (hspreads : SpreadsMarked fits property) {line : Token}
    {above below : Formula} (hfits : fits line) (hline : line.isInfix .frac = true)
    (habove : Everywhere property above) (hbelow : Everywhere property below) :
    Everywhere property (fractionOf line above below) := by
  apply Everywhere.intro (hspreads.fraction line above below hfits hline)
  simp only [fractionOf, parts, List.forall_mem_cons]
  exact ⟨everywhere_asOperand hspreads.toMild.neutral habove,
    everywhere_asOperand hspreads.toMild.neutral hbelow, by simp⟩

theorem closed_everywhere (hspreads : SpreadsMarked fits property) :
    Closed fits (Everywhere property) (Everywhere property) where
  leaf := everywhere_leaf hspreads
  stray hfits hkind := everywhere_of_parts_eq_nil
    (hspreads.symbol _ hfits (.inr (.inr (.inl hkind)))) rfl
  unary := everywhere_unaryOf hspreads
  binary := everywhere_binaryOf hspreads
  enclose hfits hopens hcloses := Matrix.everywhere_enclose hspreads.toMild.neutral
    (fun body ↦ hspreads.bracketed _ _ body hfits hopens hcloses)
    (fun rows ↦ hspreads.matrix _ _ rows hfits hopens hcloses)
  unclosed := everywhere_unclosed hspreads
  withScripts := everywhere_withScripts hspreads.toMild
  fraction := everywhere_fractionOf hspreads
  followedBy := everywhere_followedBy hspreads.toMild.neutral
  run_of_single := id

theorem Reads.everywhere_marked (hspreads : SpreadsMarked fits property)
    {level closer tokens result rest} (h : Reads level closer tokens result rest)
    (hfits : ∀ token ∈ tokens, fits token) : ∀ formula ∈ result, Everywhere property formula :=
  h.forall_of_closed (closed_everywhere hspreads) hfits

theorem Reads.everywhere (hspreads : Spreads fits property) {level closer tokens result rest}
    (h : Reads level closer tokens result rest) (hfits : ∀ token ∈ tokens, fits token) :
    ∀ formula ∈ result, Everywhere property formula :=
  h.everywhere_marked hspreads.marked hfits

end Reading

end FormulaMarkup
