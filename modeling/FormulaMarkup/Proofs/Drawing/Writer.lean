import FormulaMarkup.Formula.Induction
import FormulaMarkup.Proofs.Drawing.Surroundings
import FormulaMarkup.Proofs.Markup.Elements

/-!
# What is written is the drawing

Each function of the writer puts its tags and texts one by one. Here it is shown, one function
after another and then by induction on the formula, that what comes of these pieces is the written
form of whole elements: those of the drawing, in the place in which the formula is written
(`Formula.isDrawn`). In particular each opening tag is followed by the closing tag of its name, on
every way through the writer. A fault of the drawing is the fault in which writing ends.
-/

namespace FormulaMarkup

/-! ## Parts in their places -/

/-- What the part consists of is written as the drawing, if that does not fail, and the drawing
suits the formula of the part. -/
structure Part.IsDrawn {σ : Type} [Sink σ] (options : Options) (part : Part σ)
    (outcome : Except Fault Drawing) : Prop where
  content : part.content.Writes options (outcome.map (·.markup))
  suits : ∀ drawing, outcome = .ok drawing → drawing.Suits options part.formula

/-- The same of a part that may be missing. -/
inductive Part.AreDrawn {σ : Type} [Sink σ] (options : Options) :
    Option (Part σ) → Except Fault (Option Drawing) → Prop
  | none : AreDrawn options none (.ok none)
  | some {part : Part σ} {outcome : Except Fault Drawing} (h : part.IsDrawn options outcome) :
      AreDrawn options (some part) (outcome.map some)

namespace Part.IsDrawn

variable {σ : Type} [Sink σ] {options : Options} {part : Part σ} {outcome : Except Fault Drawing}

/-- In a place with a row mode a part is written as its drawing is placed there. -/
theorem node (h : part.IsDrawn options outcome) (mode : RowMode) :
    (Writing.node mode part).Writes options (outcome.map (·.place mode)) := by
  unfold Writing.node
  split
  · exact h.content
  · split
    · next hrun =>
      refine (Writing.writes_row h.content).congr ?_
      cases outcome with
      | error => rfl
      | ok drawing =>
        have hplace : drawing.place .avoid = [.mrow drawing.markup] := by
          rw [Drawing.place, if_pos ((h.suits drawing rfl).isRun.trans hrun)]
        exact congrArg Except.ok hplace.symm
    · next hrun =>
      refine h.content.map_congr fun drawing hdrawing ↦ ?_
      rw [Drawing.place, if_neg ((h.suits drawing hdrawing).isRun ▸ hrun)]
  · refine (Writing.writes_row h.content).congr ?_
    cases outcome <;> rfl

theorem mark (h : part.IsDrawn options outcome) :
    (Writing.mark options (some part)).Writes options
      (outcome.map (·.placeMark options.rowMode)) := by
  rw [Writing.mark]
  refine (h.node _).map_congr fun drawing hdrawing ↦ ?_
  have haccent : drawing.isAccent = part.isAccent options := (h.suits drawing hdrawing).isAccent
  rw [Drawing.placeMark, haccent]

end Part.IsDrawn

namespace Part.AreDrawn

variable {σ : Type} [Sink σ] {options : Options} {part? : Option (Part σ)}
  {outcome : Except Fault (Option Drawing)}

theorem mark (h : AreDrawn options part? outcome) :
    (Writing.mark options part?).Writes options
      (outcome.map fun drawing? ↦ drawing?.toList.flatMap (Drawing.placeMark options.rowMode)) := by
  cases h with
  | none => exact Writing.writes_nil
  | @some part outcome h =>
    refine h.mark.congr ?_
    cases outcome with
    | error => rfl
    | ok drawing => exact congrArg Except.ok (List.flatMap_singleton _ _).symm

theorem nodes (h : AreDrawn options part? outcome) (mode : RowMode) :
    (Writing.nodes mode part?.toList).Writes options
      (outcome.map fun drawing? ↦ drawing?.toList.flatMap (Drawing.place mode)) := by
  cases h with
  | none => exact Writing.writes_nil
  | @some part outcome h =>
    refine ((h.node mode).append Writing.writes_nil).congr ?_
    cases outcome with
    | error => rfl
    | ok drawing => rfl

theorem any_isAccent (h : AreDrawn options part? outcome) {drawing? : Option Drawing}
    (hdrawing : outcome = .ok drawing?) :
    part?.any (·.isAccent options) = drawing?.any (·.isAccent) := by
  cases h with
  | none =>
    cases hdrawing
    rfl
  | some h =>
    obtain ⟨drawing, hfound, rfl⟩ := exists_of_map_eq_ok hdrawing
    exact (h.suits drawing hfound).isAccent.symm

theorem isSome_eq (h : AreDrawn options part? outcome) {drawing? : Option Drawing}
    (hdrawing : outcome = .ok drawing?) : part?.isSome = drawing?.isSome := by
  cases h with
  | none =>
    cases hdrawing
    rfl
  | some h =>
    obtain ⟨drawing, hdrawing, rfl⟩ := exists_of_map_eq_ok hdrawing
    rfl

end Part.AreDrawn

/-! ## The functions of the writer -/

namespace Writing

variable {σ : Type} [Sink σ] {options : Options}

theorem writes_bareText (options : Options) (text : String) :
    (bareText options text : Writing σ Unit).Writes options (.ok (Drawing.ofText text).markup) := by
  unfold bareText Drawing.ofText
  cases text.toList with
  | nil => exact writes_leaf options .mi text
  | cons first rest =>
    cases hfirst : Unicode.isAlphanumeric first
    · simp only [hfirst]
      exact writes_leaf options .mo text
    · simp only [hfirst]
      exact writes_leaf options .mi text

theorem writes_symbol (options : Options) (symbol? : Option Symbol) (text : String) :
    (symbol options symbol? text : Writing σ Unit).Writes options
      (.ok (Drawing.ofSymbol options symbol? text).markup) := by
  unfold symbol Drawing.ofSymbol
  cases options.appearance? symbol? with
  | none => exact writes_bareText options text
  | some appearance =>
    cases hglyph : appearance.glyph.isEmpty
    · simp only [hglyph, Drawing.ofGlyph]
      cases appearance.role <;> exact writes_leaf options _ appearance.glyph
    · simp only [hglyph]
      exact writes_bareText options text

theorem isDrawn_symbol (options : Options) (mark : Mark) :
    (⟨.symbol mark, symbol options mark.symbol mark.text⟩ : Part σ).IsDrawn options
      (.ok (.ofSymbol options mark.symbol mark.text)) where
  content := writes_symbol options mark.symbol mark.text
  suits := by
    rintro _ ⟨⟩
    exact Drawing.suits_ofSymbol options mark

theorem writes_delimiter (options : Options) (glyph : String) :
    (delimiter options glyph : Writing σ Unit).Writes options
      (.ok (if glyph.isEmpty then [] else [.leaf .mo glyph])) := by
  unfold delimiter
  cases glyph.isEmpty
  · exact writes_leaf options .mo glyph
  · exact writes_nil

theorem writes_fenced {body : Writing σ Unit} {outcome : Except Fault (List Markup)}
    (h : body.Writes options outcome) (left right : String) :
    (fenced options left right body).Writes options
      (outcome.map fun markup ↦ (Drawing.fence left right markup).markup) := by
  unfold fenced Drawing.fence
  cases left.isEmpty && right.isEmpty
  · have hrow := writes_row ((writes_delimiter options left).append
      (h.append (writes_delimiter options right)))
    simp only [bind_assoc] at hrow
    refine hrow.congr ?_
    cases outcome with
    | error => rfl
    | ok markup =>
      exact congrArg (fun children ↦ Except.ok [Markup.mrow children])
        (List.append_assoc _ _ _).symm
  · refine h.congr ?_
    cases outcome <;> rfl

theorem writes_fraction {above below : Part σ} {outcome outcome' : Except Fault Drawing}
    (habove : above.IsDrawn options outcome) (hbelow : below.IsDrawn options outcome') :
    (fraction options above below).Writes options
      (do return (Drawing.fraction options.rowMode (← outcome) (← outcome')).markup) := by
  have hchildren := (habove.node options.rowMode).append (hbelow.node options.rowMode)
  have hfraction := hchildren.tags .mfrac "<mfrac>" "</mfrac>" rfl rfl
  simp only [bind_assoc] at hfraction
  refine hfraction.congr ?_
  cases outcome <;> cases outcome' <;> rfl

theorem marksTag?_congr {α β : Type} {lower upper : Option α} {lower' upper' : Option β}
    (hlower : lower.isSome = lower'.isSome) (hupper : upper.isSome = upper'.isSome) :
    marksTag? lower upper = marksTag? lower' upper' := by
  cases lower <;> cases lower' <;> cases upper <;> cases upper' <;> simp_all [marksTag?]

theorem markup_underOver (mode : RowMode) (base : Drawing) {lower upper : Option Drawing}
    {tag : Tag} (htag : marksTag? lower upper = some tag) :
    (Drawing.underOver mode base lower upper).markup =
      [.element tag (accents (upper.any (·.isAccent)) (lower.any (·.isAccent)))
        (base.place mode ++ (lower.toList.flatMap (Drawing.placeMark mode) ++
          upper.toList.flatMap (Drawing.placeMark mode)))] := by
  rw [← List.append_assoc]
  cases lower <;> cases upper <;> cases htag <;> rfl

theorem writes_underOver {base : Part σ} {lower upper : Option (Part σ)}
    {outcome : Except Fault Drawing} {outcome' outcome'' : Except Fault (Option Drawing)}
    (hbase : base.IsDrawn options outcome) (hlower : Part.AreDrawn options lower outcome')
    (hupper : Part.AreDrawn options upper outcome'') :
    (underOver options base lower upper).Writes options
      (do return (Drawing.underOver options.rowMode (← outcome) (← outcome')
        (← outcome'')).markup) := by
  unfold underOver
  cases htag : marksTag? lower upper with
  | none =>
    cases hlower with
    | some => cases hupper <;> cases htag
    | none =>
      cases hupper with
      | some => cases htag
      | none =>
        refine (hbase.node options.rowMode).congr ?_
        cases outcome <;> rfl
  | some tag =>
    have hchildren := (hbase.node options.rowMode).append (hlower.mark.append hupper.mark)
    have helement := hchildren.element tag
      (accents (upper.any (·.isAccent options)) (lower.any (·.isAccent options)))
      (startTag_accents options.escapeNonAscii tag _ _) (putAll_closeTag tag)
    simp only [bind_assoc] at helement
    refine helement.congr ?_
    cases outcome with
    | error => rfl
    | ok base =>
      cases houtcome : outcome' with
      | error => rfl
      | ok below =>
        cases houtcome' : outcome'' with
        | error => rfl
        | ok above =>
          rw [marksTag?_congr (hlower.isSome_eq houtcome) (hupper.isSome_eq houtcome')] at htag
          rw [hlower.any_isAccent houtcome, hupper.any_isAccent houtcome']
          exact congrArg Except.ok (markup_underOver options.rowMode base htag).symm

theorem nodes_append (mode : RowMode) (parts more : List (Part σ)) :
    nodes mode (parts ++ more) = (do nodes mode parts; nodes mode more) := by
  induction parts with
  | nil => rfl
  | cons part parts ih => rw [List.cons_append, nodes, nodes, ih, bind_assoc]

theorem writes_scripts {base : Part σ} {lower upper : Option (Part σ)}
    {outcome : Except Fault Drawing} {outcome' outcome'' : Except Fault (Option Drawing)}
    (hbase : base.IsDrawn options outcome) (hlower : Part.AreDrawn options lower outcome')
    (hupper : Part.AreDrawn options upper outcome'') :
    (scripts options base lower upper).Writes options
      (do return (Drawing.scripted options.rowMode (scriptsTag lower upper) (← outcome) (← outcome')
        (← outcome'')).markup) := by
  unfold scripts Drawing.scripted
  split
  · next hlimits =>
    refine (writes_underOver hbase hlower hupper).congr ?_
    cases outcome with
    | error => rfl
    | ok base =>
      have hbaseLimits : base.hasLimits = true := (hbase.suits base rfl).hasLimits.trans hlimits
      cases outcome' with
      | error => rfl
      | ok below =>
        cases outcome'' with
        | error => rfl
        | ok above =>
          refine congrArg Except.ok ?_
          rw [if_pos hbaseLimits]
  · next hlimits =>
    have hchildren := (hbase.node options.rowMode).append
      ((hlower.nodes options.rowMode).append (hupper.nodes options.rowMode))
    have helement := hchildren.element (scriptsTag lower upper) []
      (putAll_startTag options.escapeNonAscii _) (putAll_closeTag _)
    rw [← nodes_append] at helement
    simp only [bind_assoc] at helement
    refine helement.congr ?_
    cases outcome with
    | error => rfl
    | ok base =>
      have hbaseLimits : ¬ base.hasLimits = true := (hbase.suits base rfl).hasLimits ▸ hlimits
      cases outcome' with
      | error => rfl
      | ok below =>
        cases outcome'' with
        | error => rfl
        | ok above =>
          refine congrArg Except.ok ?_
          rw [if_neg hbaseLimits, List.append_assoc]
          rfl

theorem writes_unary {operand : Part σ} {outcome : Except Fault Drawing}
    (h : operand.IsDrawn options outcome) (operator : Operator) :
    (unary options operator operand).Writes options
      ((Drawing.ofUnary options operator outcome).map (·.markup)) := by
  unfold unary Drawing.ofUnary
  cases hsymbol : operator.symbol with
  | none => exact writes_nil
  | some symbol =>
    have hglyph : (⟨.symbol (operator.mark .unary), Writing.symbol options symbol operator.text⟩ :
        Part σ).IsDrawn options (.ok (.ofSymbol options symbol operator.text)) := by
      rw [← hsymbol]
      exact isDrawn_symbol options (operator.mark .unary)
    have hfont := symbol.isPlain_font options.straightPhi
    have hoperator : ∀ tag glyph, _ := fun tag glyph ↦
      writes_row ((writes_leaf options tag glyph).append (h.node options.rowMode))
    simp only [bind_assoc] at hoperator
    simp only [Drawing.ofGlyph]
    generalize symbol.appearance options.straightPhi = appearance at hfont ⊢
    cases hrole : appearance.role with
    | identifier =>
      refine (hoperator .mi appearance.glyph).congr ?_
      cases outcome <;> rfl
    | operator =>
      refine (hoperator .mo appearance.glyph).congr ?_
      cases outcome <;> rfl
    | wrap left right =>
      refine (writes_fenced (h.node .avoid) left right).congr ?_
      cases outcome <;> rfl
    | accent side =>
      cases side with
      | «over» =>
        refine (writes_underOver h .none (.some hglyph)).congr ?_
        cases outcome <;> rfl
      | under =>
        refine (writes_underOver h (.some hglyph) .none).congr ?_
        cases outcome <;> rfl
    | font =>
      refine ((h.node .avoid).element .mstyle [⟨.mathvariant, appearance.glyph⟩]
        (startTag_mathvariant _ (hfont hrole)) rfl).congr ?_
      cases outcome <;> rfl
    | cancel =>
      refine ((h.node .omit).element .menclose [⟨.strike, "updiagonalstrike"⟩]
        (startTag_menclose _) rfl).congr ?_
      cases outcome <;> rfl
    | sqrt =>
      refine ((h.node options.rowMode).tags .msqrt "<msqrt>" "</msqrt>" rfl rfl).congr ?_
      cases outcome <;> rfl
    | _ => exact writes_throw _

theorem writes_binary {first second : Part σ} {outcome outcome' : Except Fault Drawing}
    (hfirst : first.IsDrawn options outcome) (hsecond : second.IsDrawn options outcome')
    (operator : Operator) :
    (binary options operator first second).Writes options
      ((Drawing.ofBinary options operator first.formula.color? outcome outcome').map
        (·.markup)) := by
  unfold binary Drawing.ofBinary
  cases operator.symbol with
  | none => exact writes_nil
  | some symbol =>
    simp only
    cases (symbol.appearance options.straightPhi).role with
    | «over» =>
      refine (writes_underOver hsecond .none (.some hfirst)).congr ?_
      cases outcome <;> cases outcome' <;> rfl
    | under =>
      refine (writes_underOver hsecond (.some hfirst) .none).congr ?_
      cases outcome <;> cases outcome' <;> rfl
    | root =>
      have hroot := ((hsecond.node options.rowMode).append (hfirst.node options.rowMode)).tags
        .mroot "<mroot>" "</mroot>" rfl rfl
      simp only [bind_assoc] at hroot
      refine hroot.congr ?_
      cases outcome <;> cases outcome' <;> rfl
    | color =>
      cases first.formula.color? with
      | none => exact writes_throw _
      | some color =>
        refine ((hsecond.node .avoid).element .mstyle [⟨.mathcolor, color.rgb.hex⟩]
          (startTag_mathcolor _ color.rgb) rfl).congr ?_
        cases outcome' <;> rfl
    | frac =>
      refine (writes_fraction hfirst hsecond).congr ?_
      cases outcome <;> cases outcome' <;> rfl
    | _ => exact writes_throw _

theorem writes_infixOp {first second : Part σ} {outcome outcome' : Except Fault Drawing}
    (hfirst : first.IsDrawn options outcome) (hsecond : second.IsDrawn options outcome')
    (operator : Operator) :
    (infixOp options operator first second).Writes options
      ((Drawing.ofInfix options operator outcome outcome').map (·.markup)) := by
  unfold infixOp Drawing.ofInfix
  cases operator.symbol with
  | none => exact writes_nil
  | some symbol =>
    simp only
    cases (symbol.appearance options.straightPhi).role with
    | frac =>
      refine (writes_fraction hfirst hsecond).congr ?_
      cases outcome <;> cases outcome' <;> rfl
    | _ => exact writes_throw _

end Writing

/-! ## Formulas -/

namespace Formula

variable {σ : Type} [Sink σ] {options : Options}

/-- The formula is written as it is drawn. -/
def IsDrawn (σ : Type) [Sink σ] (options : Options) (formula : Formula) : Prop :=
  (⟨formula, formula.content options⟩ : Part σ).IsDrawn options (formula.draw options)

theorem writes_contentOfItems {items : List Formula}
    (h : ∀ item ∈ items, item.IsDrawn σ options) :
    (contentOfItems options items : Writing σ Unit).Writes options (drawItems options items) := by
  induction items with
  | nil =>
    rw [contentOfItems, drawItems]
    exact Writing.writes_nil
  | cons item rest ih =>
    rw [List.forall_mem_cons] at h
    rw [contentOfItems, drawItems]
    refine ((h.1.node .avoid).append (ih h.2)).congr ?_
    cases item.draw options <;> rfl

theorem writes_contentOfBody {body : Option Formula}
    (h : ∀ formula ∈ body, formula.IsDrawn σ options) :
    (contentOfBody options body : Writing σ Unit).Writes options (drawBody options body) := by
  cases body with
  | none =>
    rw [contentOfBody, drawBody]
    exact Writing.writes_nil
  | some formula =>
    rw [contentOfBody, drawBody]
    refine ((h formula rfl).node .avoid).congr ?_
    cases formula.draw options <;> rfl

theorem writes_contentOfCells {cells : List Formula}
    (h : ∀ cell ∈ cells, cell.IsDrawn σ options) :
    (contentOfCells options cells : Writing σ Unit).Writes options (drawCells options cells) := by
  induction cells with
  | nil =>
    rw [contentOfCells, drawCells]
    exact Writing.writes_nil
  | cons cell rest ih =>
    rw [List.forall_mem_cons] at h
    rw [contentOfCells, drawCells]
    have hcell := (h.1.node .avoid).tags .mtd "<mtd>" "</mtd>" rfl rfl
    have hcells := hcell.append (ih h.2)
    simp only [bind_assoc] at hcells
    refine hcells.congr ?_
    cases cell.draw options <;> rfl

theorem writes_contentOfRows {rows : List (List Formula)}
    (h : ∀ cells ∈ rows, ∀ cell ∈ cells, cell.IsDrawn σ options) :
    (contentOfRows options rows : Writing σ Unit).Writes options (drawRows options rows) := by
  induction rows with
  | nil =>
    rw [contentOfRows, drawRows]
    exact Writing.writes_nil
  | cons cells rest ih =>
    rw [List.forall_mem_cons] at h
    rw [contentOfRows, drawRows]
    have hrow := (writes_contentOfCells h.1).tags .mtr "<mtr>" "</mtr>" rfl rfl
    have hrows := hrow.append (ih h.2)
    simp only [bind_assoc] at hrows
    refine hrows.congr ?_
    cases drawCells options cells <;> rfl

/-- Every formula is written as it is drawn, whatever its operators and however its parts are
nested. -/
theorem isDrawn (options : Options) (formula : Formula) : formula.IsDrawn σ options := by
  induction formula
  all_goals
    refine ⟨?_, fun drawing ↦ suits_of_draw⟩
    simp only [content, draw]
  case empty | color => exact Writing.writes_nil
  case number written => exact Writing.writes_leaf options .mn written
  case text written => exact Writing.writes_leaf options .mtext written
  case identifier written => exact Writing.writes_bareText options written
  case symbol mark => exact Writing.writes_symbol options mark.symbol mark.text
  case sequence items ih =>
    refine (writes_contentOfItems ih).congr ?_
    cases drawItems options items <;> rfl
  case bracketed left body right ih =>
    refine (Writing.writes_fenced (writes_contentOfBody ih) _ _).congr ?_
    cases drawBody options body <;> rfl
  case grouped left body right ih =>
    refine (writes_contentOfBody ih).congr ?_
    cases drawBody options body <;> rfl
  case matrix left rows right ih =>
    have htable := (writes_contentOfRows ih).tags .mtable "<mtable>" "</mtable>" rfl rfl
    refine (Writing.writes_fenced htable _ _).congr ?_
    cases drawRows options rows <;> rfl
  case unary operator operand ih => exact Writing.writes_unary ih operator
  case binary operator first second ihfirst ihsecond =>
    exact Writing.writes_binary ihfirst ihsecond operator
  case infixOp operator first second ihfirst ihsecond =>
    exact Writing.writes_infixOp ihfirst ihsecond operator
  case sub base script ihbase ihscript =>
    refine (Writing.writes_scripts ihbase (.some ihscript) .none).congr ?_
    cases base.draw options <;> cases script.draw options <;> rfl
  case sup base script ihbase ihscript =>
    refine (Writing.writes_scripts ihbase .none (.some ihscript)).congr ?_
    cases base.draw options <;> cases script.draw options <;> rfl
  case subSup base lower upper ihbase ihlower ihupper =>
    refine (Writing.writes_scripts ihbase (.some ihlower) (.some ihupper)).congr ?_
    cases base.draw options <;> cases lower.draw options <;> cases upper.draw options <;> rfl

end Formula

end FormulaMarkup
