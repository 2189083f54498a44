import FormulaMarkup.Formula.Drawing

/-!
# What the surroundings ask of a formula

A place asks of what is put into it whether it is a run, an accent, or has its scripts as limits. A
formula answers by its constructor and its symbol, and a drawing by what is known of it. The answers
are the same (`Formula.suits_of_draw`).
-/

namespace FormulaMarkup

theorem exists_of_bind_eq_ok {α β : Type} {result : Except Fault α} {next : α → Except Fault β}
    {value : β} (h : (result >>= next) = .ok value) :
    ∃ found, result = .ok found ∧ next found = .ok value := by
  cases result with
  | error => cases h
  | ok found => exact ⟨found, rfl, h⟩

theorem exists_of_map_eq_ok {α β : Type} {result : Except Fault α} {next : α → β} {value : β}
    (h : result.map next = .ok value) : ∃ found, result = .ok found ∧ next found = value := by
  cases result with
  | error => cases h
  | ok found => exact ⟨found, rfl, Except.ok.inj h⟩

/-- What the surroundings of the drawing know of it is what they know of the formula. -/
structure Drawing.Suits (options : Options) (formula : Formula) (drawing : Drawing) : Prop where
  isRun : drawing.isRun = formula.isRun
  isAccent : drawing.isAccent = (formula.appearance? options).any (·.isAccent)
  hasLimits : drawing.hasLimits = (formula.appearance? options).any (·.hasLimits)

namespace Drawing

/-- The surroundings know nothing of the drawing. -/
structure IsInert (drawing : Drawing) : Prop where
  isRun : drawing.isRun = false
  isAccent : drawing.isAccent = false
  hasLimits : drawing.hasLimits = false

variable {options : Options} {formula : Formula} {drawing : Drawing}

theorem IsInert.suits (h : drawing.IsInert) (hrun : formula.isRun = false)
    (hnone : formula.appearance? options = none) : drawing.Suits options formula where
  isRun := h.isRun.trans hrun.symm
  isAccent := by rw [h.isAccent, hnone, Option.any_none]
  hasLimits := by rw [h.hasLimits, hnone, Option.any_none]

theorem isInert_markup (markup : List Markup) : IsInert { markup } := ⟨rfl, rfl, rfl⟩

theorem isInert_ofText (text : String) : (ofText text).IsInert := by
  unfold ofText
  split
  · split <;> exact isInert_markup _
  · exact isInert_markup _

theorem isInert_fence (left right : String) (body : List Markup) :
    (fence left right body).IsInert := by
  unfold fence
  split <;> exact isInert_markup _

theorem isInert_underOver (mode : RowMode) (base : Drawing) (lower upper : Option Drawing) :
    (underOver mode base lower upper).IsInert := by
  cases lower <;> cases upper <;> exact isInert_markup _

theorem isInert_scripted (mode : RowMode) (tag : Tag) (base : Drawing)
    (lower upper : Option Drawing) : (scripted mode tag base lower upper).IsInert := by
  unfold scripted
  split
  · exact isInert_underOver mode base lower upper
  · exact isInert_markup _

theorem suits_ofSymbol (options : Options) (mark : Mark) :
    (ofSymbol options mark.symbol mark.text).Suits options (.symbol mark) := by
  unfold ofSymbol
  cases hsymbol : mark.symbol with
  | none =>
    exact (isInert_ofText mark.text).suits rfl (by rw [Formula.appearance?, hsymbol]; rfl)
  | some symbol =>
    constructor
    · simp only [Options.appearance?, Option.map_some]
      split
      · exact (isInert_ofText mark.text).isRun
      · rfl
    · rw [Formula.appearance?, hsymbol]
      rfl
    · rw [Formula.appearance?, hsymbol]
      rfl

theorem isRun_ofUnary {operator : Operator} {operand : Except Fault Drawing}
    (h : ofUnary options operator operand = .ok drawing) : drawing.isRun = false := by
  unfold ofUnary at h
  cases hsymbol : operator.symbol with
  | none =>
    rw [hsymbol] at h
    cases h
    rfl
  | some symbol =>
    rw [hsymbol] at h
    obtain ⟨inner, hinner, rfl⟩ := exists_of_map_eq_ok h
    change inner.isRun = false
    cases hrole : (symbol.appearance options.straightPhi).role with
    | identifier | operator | font | cancel | sqrt =>
      rw [hrole] at hinner
      obtain ⟨_, -, heq⟩ := exists_of_bind_eq_ok hinner
      cases heq
      rfl
    | wrap left right =>
      rw [hrole] at hinner
      obtain ⟨_, -, heq⟩ := exists_of_bind_eq_ok hinner
      cases heq
      exact (isInert_fence left right _).isRun
    | accent side =>
      rw [hrole] at hinner
      cases side with
      | «over» | under =>
        obtain ⟨_, -, heq⟩ := exists_of_bind_eq_ok hinner
        cases heq
        exact (isInert_underOver _ _ _ _).isRun
    | _ =>
      rw [hrole] at hinner
      cases hinner

theorem suits_ofUnary {operator : Operator} {operand : Except Fault Drawing} (formula : Formula)
    (h : ofUnary options operator operand = .ok drawing) :
    drawing.Suits options (.unary operator formula) := by
  have hrun := isRun_ofUnary h
  unfold ofUnary at h
  cases hsymbol : operator.symbol with
  | none =>
    rw [hsymbol] at h
    cases h
    exact (isInert_markup []).suits rfl (by rw [Formula.appearance?, hsymbol]; rfl)
  | some symbol =>
    rw [hsymbol] at h
    obtain ⟨inner, -, rfl⟩ := exists_of_map_eq_ok h
    constructor
    · exact hrun
    · rw [Formula.appearance?, hsymbol]
      rfl
    · rw [Formula.appearance?, hsymbol]
      rfl

theorem isInert_ofBinary {operator : Operator} {color : Option Color}
    {first second : Except Fault Drawing}
    (h : ofBinary options operator color first second = .ok drawing) : drawing.IsInert := by
  unfold ofBinary at h
  cases hsymbol : operator.symbol with
  | none =>
    rw [hsymbol] at h
    cases h
    exact isInert_markup []
  | some symbol =>
    simp only [hsymbol] at h
    cases hrole : (symbol.appearance options.straightPhi).role with
    | «over» | under =>
      rw [hrole] at h
      obtain ⟨_, -, hmark⟩ := exists_of_bind_eq_ok h
      obtain ⟨_, -, heq⟩ := exists_of_bind_eq_ok hmark
      cases heq
      exact isInert_underOver _ _ _ _
    | root | frac =>
      rw [hrole] at h
      obtain ⟨_, -, hsecond⟩ := exists_of_bind_eq_ok h
      obtain ⟨_, -, heq⟩ := exists_of_bind_eq_ok hsecond
      cases heq
      exact isInert_markup _
    | color =>
      rw [hrole] at h
      cases color with
      | none => cases h
      | some color =>
        obtain ⟨_, -, heq⟩ := exists_of_bind_eq_ok h
        cases heq
        exact isInert_markup _
    | _ =>
      rw [hrole] at h
      cases h

theorem isInert_ofInfix {operator : Operator} {first second : Except Fault Drawing}
    (h : ofInfix options operator first second = .ok drawing) : drawing.IsInert := by
  unfold ofInfix at h
  cases hsymbol : operator.symbol with
  | none =>
    rw [hsymbol] at h
    cases h
    exact isInert_markup []
  | some symbol =>
    simp only [hsymbol] at h
    cases hrole : (symbol.appearance options.straightPhi).role with
    | frac =>
      rw [hrole] at h
      obtain ⟨_, -, hbelow⟩ := exists_of_bind_eq_ok h
      obtain ⟨_, -, heq⟩ := exists_of_bind_eq_ok hbelow
      cases heq
      exact isInert_markup _
    | _ =>
      rw [hrole] at h
      cases h

end Drawing

namespace Formula

variable {options : Options} {formula : Formula} {drawing : Drawing}

theorem suits_of_draw (h : formula.draw options = .ok drawing) :
    drawing.Suits options formula := by
  cases formula with
  | empty | number | text | color =>
    rw [draw] at h
    cases h
    exact (Drawing.isInert_markup _).suits rfl rfl
  | identifier written =>
    rw [draw] at h
    cases h
    exact (Drawing.isInert_ofText written).suits rfl rfl
  | symbol mark =>
    rw [draw] at h
    cases h
    exact Drawing.suits_ofSymbol options mark
  | sequence items =>
    rw [draw] at h
    obtain ⟨markup, -, h⟩ := exists_of_bind_eq_ok h
    cases h
    exact ⟨rfl, rfl, rfl⟩
  | grouped =>
    rw [draw] at h
    obtain ⟨markup, -, h⟩ := exists_of_bind_eq_ok h
    cases h
    exact (Drawing.isInert_markup _).suits rfl rfl
  | bracketed | matrix =>
    rw [draw] at h
    obtain ⟨markup, -, h⟩ := exists_of_bind_eq_ok h
    cases h
    exact (Drawing.isInert_fence _ _ _).suits rfl rfl
  | unary operator operand =>
    rw [draw] at h
    exact Drawing.suits_ofUnary operand h
  | binary operator first second =>
    rw [draw] at h
    exact (Drawing.isInert_ofBinary h).suits rfl rfl
  | infixOp operator first second =>
    rw [draw] at h
    exact (Drawing.isInert_ofInfix h).suits rfl rfl
  | sub base script | sup base script =>
    rw [draw] at h
    obtain ⟨below, -, h⟩ := exists_of_bind_eq_ok h
    obtain ⟨above, -, h⟩ := exists_of_bind_eq_ok h
    cases h
    exact (Drawing.isInert_scripted _ _ _ _ _).suits rfl rfl
  | subSup base lower upper =>
    rw [draw] at h
    obtain ⟨middle, -, h⟩ := exists_of_bind_eq_ok h
    obtain ⟨below, -, h⟩ := exists_of_bind_eq_ok h
    obtain ⟨above, -, h⟩ := exists_of_bind_eq_ok h
    cases h
    exact (Drawing.isInert_scripted _ _ _ _ _).suits rfl rfl

end Formula

end FormulaMarkup
