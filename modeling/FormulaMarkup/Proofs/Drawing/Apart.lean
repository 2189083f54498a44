import FormulaMarkup.Proofs.Drawing.Children

/-!
# Operands kept apart by rows

With rows around all formulas in slots, an element that must have a fixed number of children has all
of them, whatever is in its slots: a formula in a slot is drawn as a row, even if it is drawn as
nothing. Only an accent among the marks over and under a base is no row, and it is one element all
the same (`Formula.Fills`).

This holds of each drawing that does not fail, also of a formula that was not read, in which an
operator without a symbol hides the faults of its operands (`Formula.render_keepsApart`).
-/

namespace FormulaMarkup

/-- The symbol is drawn as a mark over or under a base. -/
def Symbol.isAccent (symbol : Symbol) : Bool := (symbol.appearance true).isAccent

theorem Symbol.isAccent_appearance (symbol : Symbol) (straightPhi : Bool) :
    (symbol.appearance straightPhi).isAccent = symbol.isAccent := by
  rw [isAccent, Appearance.isAccent, Appearance.isAccent, role_appearance, role_appearance]

theorem Symbol.exists_role_of_isAccent {symbol : Symbol} (h : symbol.isAccent = true) :
    ∃ side, symbol.role = .accent side := by
  unfold isAccent Appearance.isAccent at h
  split at h
  · next side hrole => exact ⟨side, hrole⟩
  · cases h

def Markup.isRow : Markup → Bool
  | element .mrow _ _ => true
  | _ => false

theorem Markup.isRow_element {tag : Tag} {count : Nat} (htag : tag.childCount? = some count)
    (attributes : List Attribute) (children : List Markup) :
    (element tag attributes children).isRow = false := by
  cases tag with
  | mrow => cases htag
  | _ => rfl

namespace Formula

/-- Is the formula an accent, on its own or as an operator with its operand? -/
def isAccent : Formula → Bool
  | symbol mark => mark.symbol.any (·.isAccent)
  | unary operator _ => operator.symbol.any (·.isAccent)
  | _ => false

/-- The child is what is drawn of the formula in a slot: its row, or the one element of an accent
among marks. -/
inductive Fills (options : Options) (isMark : Bool) (slot : Formula) : Markup → Prop
  | row {drawing : Drawing} (hdrawing : slot.draw options = .ok drawing)
      (h : isMark = true → slot.isAccent = false) : Fills options isMark slot (.mrow drawing.markup)
  | accent {drawing : Drawing} {child : Markup} (hdrawing : slot.draw options = .ok drawing)
      (hmark : isMark = true) (haccent : slot.isAccent = true) (hmarkup : drawing.markup = [child])
      (hrow : child.isRow = false) : Fills options isMark slot child

/-- The children of the element are what is drawn in the slots, first the base and behind it what
may be marks. -/
def IsFilled (options : Options) (isMarked : Bool) (slots : List Formula)
    (children : List Markup) : Prop :=
  ∃ base marks first rest, slots = base :: marks ∧ children = first :: rest ∧
    Fills options false base first ∧ List.Forall₂ (Fills options isMarked) marks rest

/-- The formula is a part of the other one at some depth, or that formula itself. -/
inductive Within (whole : Formula) : Formula → Prop
  | self : Within whole whole
  | part {parent part : Formula} (h : Within whole parent) (hpart : part ∈ parent.parts) :
      Within whole part

/-- An element that must have a fixed number of children has all of them, one for each slot of the
part of the formula that the element is drawn of. -/
def KeepsApart (options : Options) (whole : Formula) (tag : Tag) (children : List Markup) : Prop :=
  ∀ count ∈ tag.childCount?, children.length = count ∧
    ∃ part drawing attributes, Within whole part ∧ part.draw options = .ok drawing ∧
      drawing.markup = [.element tag attributes children] ∧
      IsFilled options tag.hasMarks part.slots children

theorem counts_keepsApart (options : Options) (whole : Formula) :
    Tag.Counts (KeepsApart options whole) := by
  intro tag children htag count hcount
  rw [htag] at hcount
  cases hcount

end Formula

/-! ## What was drawn for a drawing -/

namespace Drawing

variable {options : Options} {operator : Operator} {symbol : Symbol} {drawing : Drawing}
  {operand first second : Except Fault Drawing} (hsymbol : operator.symbol = some symbol)
include hsymbol

theorem exists_operand_of_ofUnary (h : ofUnary options operator operand = .ok drawing) :
    ∃ inner, operand = .ok inner := by
  cases operand with
  | ok inner => exact ⟨inner, rfl⟩
  | error fault =>
    simp only [ofUnary, hsymbol] at h
    cases hrole : (symbol.appearance options.straightPhi).role with
    | accent side =>
      rw [hrole] at h
      cases side <;> cases h
    | _ =>
      rw [hrole] at h
      cases h

/-- Both operands are drawn, unless the first one is a color. -/
theorem ofBinary_eq_ok {color : Option Color}
    (h : ofBinary options operator color first second = .ok drawing) :
    (∃ other, second = .ok other) ∧ (color.isSome = true ∨ ∃ inner, first = .ok inner) := by
  simp only [ofBinary, hsymbol] at h
  cases hrole : (symbol.appearance options.straightPhi).role with
  | frac =>
    rw [hrole] at h
    obtain ⟨inner, hinner, h⟩ := exists_of_bind_eq_ok h
    obtain ⟨other, hother, h⟩ := exists_of_bind_eq_ok h
    cases h
    exact ⟨⟨other, hother⟩, .inr ⟨inner, hinner⟩⟩
  | color =>
    rw [hrole] at h
    cases color with
    | none => cases h
    | some color =>
      obtain ⟨other, hother, h⟩ := exists_of_bind_eq_ok h
      cases h
      exact ⟨⟨other, hother⟩, .inl rfl⟩
  | operator | identifier | text | opening | closing | bar | accent | font | wrap | cancel | sqrt =>
    rw [hrole] at h
    cases h
  | _ =>
    -- the second operand is the base and is drawn first
    rw [hrole] at h
    obtain ⟨other, hother, h⟩ := exists_of_bind_eq_ok h
    obtain ⟨inner, hinner, h⟩ := exists_of_bind_eq_ok h
    cases h
    exact ⟨⟨other, hother⟩, .inr ⟨inner, hinner⟩⟩

theorem ofInfix_eq_ok (h : ofInfix options operator first second = .ok drawing) :
    (∃ inner, first = .ok inner) ∧ ∃ other, second = .ok other := by
  simp only [ofInfix, hsymbol] at h
  cases hrole : (symbol.appearance options.straightPhi).role with
  | frac =>
    rw [hrole] at h
    obtain ⟨inner, hinner, h⟩ := exists_of_bind_eq_ok h
    obtain ⟨other, hother, h⟩ := exists_of_bind_eq_ok h
    cases h
    exact ⟨⟨inner, hinner⟩, ⟨other, hother⟩⟩
  | _ =>
    rw [hrole] at h
    cases h

end Drawing

namespace Formula

variable {options : Options} {formula : Formula} {drawing : Drawing}

theorem draws_of_drawItems {items : List Formula} {markup : List Markup}
    (h : drawItems options items = .ok markup) : ∀ item ∈ items, item.Draws options := by
  induction items generalizing markup with
  | nil => exact List.forall_mem_nil _
  | cons item rest ih =>
    rw [drawItems] at h
    obtain ⟨drawing, hdrawing, h⟩ := exists_of_bind_eq_ok h
    obtain ⟨later, hlater, -⟩ := exists_of_bind_eq_ok h
    exact List.forall_mem_cons.mpr ⟨⟨drawing, hdrawing⟩, ih hlater⟩

theorem draws_of_drawBody {body : Option Formula} {markup : List Markup}
    (h : drawBody options body = .ok markup) : ∀ inner ∈ body.toList, inner.Draws options := by
  cases body with
  | none => exact List.forall_mem_nil _
  | some formula =>
    rw [drawBody] at h
    obtain ⟨drawing, hdrawing, -⟩ := exists_of_bind_eq_ok h
    exact List.forall_mem_singleton.mpr ⟨drawing, hdrawing⟩

theorem draws_of_drawCells {cells : List Formula} {markup : List Markup}
    (h : drawCells options cells = .ok markup) : ∀ cell ∈ cells, cell.Draws options := by
  induction cells generalizing markup with
  | nil => exact List.forall_mem_nil _
  | cons cell rest ih =>
    rw [drawCells] at h
    obtain ⟨drawing, hdrawing, h⟩ := exists_of_bind_eq_ok h
    obtain ⟨later, hlater, -⟩ := exists_of_bind_eq_ok h
    exact List.forall_mem_cons.mpr ⟨⟨drawing, hdrawing⟩, ih hlater⟩

theorem draws_of_drawRows {rows : List (List Formula)} {markup : List Markup}
    (h : drawRows options rows = .ok markup) : ∀ cell ∈ rows.flatten, cell.Draws options := by
  induction rows generalizing markup with
  | nil => exact List.forall_mem_nil _
  | cons cells rest ih =>
    rw [drawRows] at h
    obtain ⟨first, hfirst, h⟩ := exists_of_bind_eq_ok h
    obtain ⟨later, hlater, -⟩ := exists_of_bind_eq_ok h
    rw [List.flatten_cons, List.forall_mem_append]
    exact ⟨draws_of_drawCells hfirst, ih hlater⟩

/-- A drawing of a formula is made of drawings of all its parts, if its operator has a symbol. -/
theorem draws_of_mem_parts (hsymbol : formula.HasSymbol)
    (hdrawing : formula.draw options = .ok drawing) :
    ∀ part ∈ formula.parts, part.Draws options := by
  cases formula with
  | empty | number | text | identifier | symbol | color => exact List.forall_mem_nil _
  | sequence items =>
    rw [draw] at hdrawing
    obtain ⟨markup, hmarkup, -⟩ := exists_of_bind_eq_ok hdrawing
    exact draws_of_drawItems hmarkup
  | bracketed left body right | grouped left body right =>
    rw [draw] at hdrawing
    obtain ⟨markup, hmarkup, -⟩ := exists_of_bind_eq_ok hdrawing
    exact draws_of_drawBody hmarkup
  | matrix left rows right =>
    rw [draw] at hdrawing
    obtain ⟨markup, hmarkup, -⟩ := exists_of_bind_eq_ok hdrawing
    exact draws_of_drawRows hmarkup
  | unary operator operand =>
    obtain ⟨mark, hmark⟩ := Option.isSome_iff_exists.mp hsymbol
    rw [draw] at hdrawing
    exact List.forall_mem_singleton.mpr (Drawing.exists_operand_of_ofUnary hmark hdrawing)
  | binary operator first second =>
    obtain ⟨mark, hmark⟩ := Option.isSome_iff_exists.mp hsymbol
    rw [draw] at hdrawing
    obtain ⟨hsecond, hfirst⟩ := Drawing.ofBinary_eq_ok hmark hdrawing
    have hcolor : first.color?.isSome = true → first.Draws options := by
      cases first with
      | color color => exact fun _ ↦ ⟨.nothing, by rw [draw]⟩
      | _ => rintro ⟨⟩
    simp only [parts, List.forall_mem_cons]
    exact ⟨hfirst.elim hcolor id, hsecond, List.forall_mem_nil _⟩
  | infixOp operator first second =>
    obtain ⟨mark, hmark⟩ := Option.isSome_iff_exists.mp hsymbol
    rw [draw] at hdrawing
    obtain ⟨hfirst, hsecond⟩ := Drawing.ofInfix_eq_ok hmark hdrawing
    simp only [parts, List.forall_mem_cons]
    exact ⟨hfirst, hsecond, List.forall_mem_nil _⟩
  | sub base script | sup base script =>
    rw [draw] at hdrawing
    obtain ⟨below, hbelow, hdrawing⟩ := exists_of_bind_eq_ok hdrawing
    obtain ⟨above, habove, -⟩ := exists_of_bind_eq_ok hdrawing
    simp only [parts, List.forall_mem_cons]
    exact ⟨⟨below, hbelow⟩, ⟨above, habove⟩, List.forall_mem_nil _⟩
  | subSup base lower upper =>
    rw [draw] at hdrawing
    obtain ⟨middle, hmiddle, hdrawing⟩ := exists_of_bind_eq_ok hdrawing
    obtain ⟨below, hbelow, hdrawing⟩ := exists_of_bind_eq_ok hdrawing
    obtain ⟨above, habove, -⟩ := exists_of_bind_eq_ok hdrawing
    simp only [parts, List.forall_mem_cons]
    exact ⟨⟨middle, hmiddle⟩, ⟨below, hbelow⟩, ⟨above, habove⟩, List.forall_mem_nil _⟩

/-- Nothing is drawn of an operator without a symbol. -/
theorem eq_nothing_of_not_hasSymbol (hsymbol : ¬ formula.HasSymbol)
    (hdrawing : formula.draw options = .ok drawing) : drawing = .nothing := by
  cases formula with
  | unary operator operand =>
    have hnone : operator.symbol = none := Option.not_isSome_iff_eq_none.mp hsymbol
    rw [draw, Drawing.ofUnary, hnone] at hdrawing
    exact (Except.ok.inj hdrawing).symm
  | binary operator first second =>
    have hnone : operator.symbol = none := Option.not_isSome_iff_eq_none.mp hsymbol
    rw [draw, Drawing.ofBinary, hnone] at hdrawing
    exact (Except.ok.inj hdrawing).symm
  | infixOp operator first second =>
    have hnone : operator.symbol = none := Option.not_isSome_iff_eq_none.mp hsymbol
    rw [draw, Drawing.ofInfix, hnone] at hdrawing
    exact (Except.ok.inj hdrawing).symm
  | _ => exact absurd trivial hsymbol

end Formula

/-! ## Accents -/

namespace Formula

variable {options : Options} {formula : Formula} {drawing : Drawing}

theorem any_isAccent_appearance? (options : Options) (formula : Formula) :
    (formula.appearance? options).any (·.isAccent) = formula.isAccent := by
  have hsymbol : ∀ symbol : Option Symbol,
      (options.appearance? symbol).any (·.isAccent) = symbol.any (·.isAccent) := by
    intro symbol
    cases symbol with
    | none => rfl
    | some symbol => exact symbol.isAccent_appearance options.straightPhi
  cases formula with
  | symbol mark => exact hsymbol mark.symbol
  | unary operator operand => exact hsymbol operator.symbol
  | _ => rfl

theorem isAccent_of_draw (hdrawing : formula.draw options = .ok drawing) :
    drawing.isAccent = formula.isAccent :=
  (suits_of_draw hdrawing).isAccent.trans (any_isAccent_appearance? options formula)

/-- An accent is drawn as one element that is no row. -/
theorem eq_singleton_of_isAccent (haccent : formula.isAccent = true)
    (hdrawing : formula.draw options = .ok drawing) :
    drawing.isRun = false ∧ ∃ child, drawing.markup = [child] ∧ child.isRow = false := by
  cases formula with
  | symbol mark =>
    rw [draw] at hdrawing
    cases hdrawing
    obtain ⟨hrun, tag, text, hmarkup⟩ := Drawing.isLeaf_ofSymbol options mark.symbol mark.text
    exact ⟨hrun, _, hmarkup, rfl⟩
  | unary operator operand =>
    obtain ⟨symbol, hsymbol, haccent⟩ := (Option.any_eq_true _ _).mp haccent
    obtain ⟨side, hrole⟩ := symbol.exists_role_of_isAccent haccent
    rw [draw] at hdrawing
    obtain ⟨inner, hinner⟩ := Drawing.exists_operand_of_ofUnary hsymbol hdrawing
    rw [hinner] at hdrawing
    obtain ⟨tag, attributes, htag, hrun, hmarkup⟩ := Drawing.holds_ofUnary hsymbol hrole hdrawing
    exact ⟨hrun, _, hmarkup, Markup.isRow_element htag attributes _⟩
  | _ => cases haccent

/-! ## Slots with rows -/

/-- The place of a base or of what is no mark holds a row. -/
theorem fills_place {isMark : Bool} (h : isMark = true → formula.isAccent = false)
    (hdrawing : formula.draw options = .ok drawing) :
    ∃ child, drawing.place .force = [child] ∧ Fills options isMark formula child :=
  ⟨_, rfl, .row hdrawing h⟩

theorem fills_placeMark (hdrawing : formula.draw options = .ok drawing) :
    ∃ child, drawing.placeMark .force = [child] ∧ Fills options true formula child := by
  rw [Drawing.placeMark, isAccent_of_draw hdrawing]
  cases haccent : formula.isAccent with
  | false => exact fills_place (fun _ ↦ haccent) hdrawing
  | true =>
    obtain ⟨hrun, child, hmarkup, hrow⟩ := eq_singleton_of_isAccent haccent hdrawing
    refine ⟨child, ?_, .accent hdrawing rfl haccent hmarkup hrow⟩
    simp [Drawing.place, hrun, hmarkup]

theorem fills_flatMap {isMark : Bool} {placed : Drawing → List Markup} {formulas : List Formula}
    {drawings : List Drawing} (hdrawn : Drawn options formulas drawings)
    (h : ∀ {formula : Formula} {drawing : Drawing}, formula.draw options = .ok drawing →
      ∃ child, placed drawing = [child] ∧ Fills options isMark formula child) :
    List.Forall₂ (Fills options isMark) formulas (drawings.flatMap placed) := by
  induction hdrawn with
  | nil => exact .nil
  | cons hdrawing _ ih =>
    obtain ⟨child, hchild, hfills⟩ := h hdrawing
    rw [List.flatMap_cons, hchild]
    exact .cons hfills ih

/-- With rows around all formulas in slots, there is a child for each slot. -/
theorem isFilled_slotted (tag : Tag) {slots : List Formula} {drawings : List Drawing}
    (hslots : slots ≠ []) (hdrawn : Drawn options slots drawings) :
    IsFilled options tag.hasMarks slots (Drawing.slotted .force tag drawings) := by
  cases hdrawn with
  | nil => exact absurd rfl hslots
  | @cons base drawing marks drawings hdrawing hmarks =>
    refine ⟨base, marks, .mrow drawing.markup, _, rfl, rfl, .row hdrawing (by rintro ⟨⟩), ?_⟩
    cases tag.hasMarks with
    | false => exact fills_flatMap hmarks (fills_place (by rintro ⟨⟩))
    | true => exact fills_flatMap hmarks fills_placeMark

theorem IsFilled.length_eq {isMarked : Bool} {slots : List Formula} {children : List Markup}
    (h : IsFilled options isMarked slots children) : children.length = slots.length := by
  obtain ⟨base, marks, first, rest, rfl, rfl, -, hrest⟩ := h
  rw [List.length_cons, List.length_cons, hrest.length_eq]

theorem keepsApart_of_draw (hmode : options.rowMode = .force) {whole : Formula}
    (hwithin : Within whole formula) (hdrawing : formula.draw options = .ok drawing) :
    drawing.Elements (KeepsApart options whole) := by
  have hcounts := counts_keepsApart options whole
  have hall := everywhere_of_forall (fun _ ↦ trivial : ∀ part : Formula, True) formula
  induction hall generalizing drawing with
  | @intro formula _ _ ih =>
    by_cases hsymbol : formula.HasSymbol
    · have hdraws := draws_of_mem_parts hsymbol hdrawing
      have hparts : ∀ part ∈ formula.parts, ∀ drawing, part.draw options = .ok drawing →
          drawing.Elements (KeepsApart options whole) :=
        fun part hpart _ h ↦ ih part hpart (.part hwithin hpart) h
      by_cases hslots : formula.slots = []
      · obtain ⟨drawings, hdrawn⟩ := exists_drawn hdraws
        apply (frames_of_drawn hsymbol hdrawing hslots hdrawn _ hcounts).mpr
        exact hdrawn.forall hparts
      · obtain ⟨drawings, hdrawn⟩ := exists_drawn
          ((forall_slots_iff (fun mark ↦ ⟨_, by rw [draw]⟩) hslots).mpr hdraws)
        have hslot : ∀ slot ∈ formula.slots, ∀ drawing, slot.draw options = .ok drawing →
            drawing.Elements (KeepsApart options whole) := by
          refine (forall_slots_iff (fun mark drawing h ↦ ?_) hslots).mpr hparts
          exact ((isLeaf_of_draw rfl h).frames _ hcounts).mpr (List.forall_mem_nil _)
        obtain ⟨tag, attributes, htag, -, hmarkup⟩ :=
          holds_of_drawn hsymbol hdrawing hslots hdrawn
        rw [hmode] at hmarkup
        have hfilled := isFilled_slotted tag hslots hdrawn
        rw [Drawing.Elements, hmarkup, List.forall_mem_singleton, Markup.elements_element_iff]
        refine ⟨fun count hcount ↦ ⟨?_, ?_⟩, ?_⟩
        · obtain rfl : drawings.length = count := Option.some.inj (htag.symm.trans hcount)
          rw [hfilled.length_eq, hdrawn.length_eq]
        · exact ⟨formula, drawing, attributes, hwithin, hdrawing, hmarkup, hfilled⟩
        · exact (Drawing.frames_slotted .force tag drawings _ hcounts).mpr (hdrawn.forall hslot)
    · rw [eq_nothing_of_not_hasSymbol hsymbol hdrawing]
      exact List.forall_mem_nil _

/-- With rows around all formulas in slots, whatever is drawn has its operands apart. -/
theorem render_keepsApart (hmode : options.rowMode = .force) {tree : Option Formula}
    {output : String} (h : render options tree = .ok output) :
    (tree = none ∧ output = "") ∨ ∃ formula markup, tree = some formula ∧
      formula.markup options = .ok markup ∧ output = markup.write options.escapeNonAscii ∧
      markup.Elements (KeepsApart options formula) := by
  cases tree with
  | none =>
    cases h
    exact .inl ⟨rfl, rfl⟩
  | some formula =>
    rw [render_some] at h
    obtain ⟨markup, hmarkup, h⟩ := exists_of_bind_eq_ok h
    refine .inr ⟨formula, markup, rfl, hmarkup, (Except.ok.inj h).symm, ?_⟩
    rw [Formula.markup] at hmarkup
    obtain ⟨drawing, hdrawing, hmarkup⟩ := exists_of_bind_eq_ok hmarkup
    cases hmarkup
    exact .element (counts_keepsApart options formula .math _ rfl)
      (keepsApart_of_draw hmode .self hdrawing)

/-- Of the limits of a sum, a hat on a letter is no row, and a sequence of nothing is one. -/
theorem render_keepsApart_limits :
    let options : Options := { rowMode := .force }
    let tree : Formula := subSup (symbol ⟨some .sum, "sum", .symbol⟩)
      (unary ⟨some .hat, "hat"⟩ (identifier "x")) (sequence [])
    options.rowMode = .force ∧
      render options (some tree) = .ok ("<math><munderover accentunder=\"true\">" ++
        "<mrow><mo>&#x2211;</mo></mrow>" ++
        "<mover accent=\"true\"><mrow><mi>x</mi></mrow><mo>^</mo></mover>" ++
        "<mrow></mrow></munderover></math>") ∧
      ∃ markup, tree.markup options = .ok markup ∧ markup.Elements (KeepsApart options tree) := by
  intro options tree
  have hrender : render options (some tree) = .ok ("<math><munderover accentunder=\"true\">" ++
      "<mrow><mo>&#x2211;</mo></mrow>" ++
      "<mover accent=\"true\"><mrow><mi>x</mi></mrow><mo>^</mo></mover>" ++
      "<mrow></mrow></munderover></math>") :=
    (render_some options tree).trans (congrArg Except.ok (by decide +kernel : String.ofList _ = _))
  obtain ⟨hnone, -⟩ | ⟨_, markup, hsome, hmarkup, -, hapart⟩ :=
    render_keepsApart (rfl : options.rowMode = .force) hrender
  · cases hnone
  · cases hsome
    exact ⟨rfl, hrender, markup, hmarkup, hapart⟩

end Formula

end FormulaMarkup
