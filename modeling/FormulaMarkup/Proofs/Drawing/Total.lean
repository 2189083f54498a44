import FormulaMarkup.Convert
import FormulaMarkup.Proofs.Drawing.Output
import FormulaMarkup.Proofs.Formula.Everywhere
import FormulaMarkup.Proofs.Reading.Run
import FormulaMarkup.Proofs.Token.Window

/-!
# Every input is drawn

A drawing fails only at an operator whose role has no drawing with as many operands, or at a color
that was not read as one. The table of symbols gives each operator a role that fits its kind, and
reading keeps the symbols and converts the first operand of a color, so no such operator is in a
formula that was read with the standard symbols.
-/

namespace FormulaMarkup

/-- The role of a symbol, which no option changes. -/
def Symbol.role (symbol : Symbol) : Role := (symbol.appearance true).role

theorem Symbol.role_appearance (symbol : Symbol) (straightPhi : Bool) :
    (symbol.appearance straightPhi).role = symbol.role := by
  cases symbol <;> rfl

/-- The roles with a drawing for one operand. -/
def Role.takesOne : Role → Bool
  | .operator | .identifier | .wrap _ _ | .accent _ | .font | .cancel | .sqrt => true
  | _ => false

/-- The roles with a drawing for any two operands. -/
def Role.takesTwo : Role → Bool
  | .over | .under | .root | .frac => true
  | _ => false

theorem Role.eq_of_takesTwo {role : Role} (h : role.takesTwo = true) :
    role = .over ∨ role = .under ∨ role = .root ∨ role = .frac := by
  cases role <;> simp [takesTwo] at h ⊢

namespace Formula

/-- The operator of the formula, if it applies one, has a drawing with its operands. -/
def Drawable : Formula → Prop
  | unary operator _ => ∀ symbol ∈ operator.symbol, symbol.role.takesOne = true
  | binary operator first _ => ∀ symbol ∈ operator.symbol,
      symbol.role.takesTwo = true ∨ symbol.role = .color ∧ first.color?.isSome = true
  | infixOp operator _ _ => ∀ symbol ∈ operator.symbol, symbol.role = .frac
  | _ => True

end Formula

/-! ## Drawing operators -/

namespace Drawing

theorem exists_ofUnary (options : Options) {operator : Operator}
    (h : ∀ symbol ∈ operator.symbol, symbol.role.takesOne = true) (operand : Drawing) :
    ∃ drawing, ofUnary options operator (.ok operand) = .ok drawing := by
  unfold ofUnary
  cases hsymbol : operator.symbol with
  | none => exact ⟨_, rfl⟩
  | some symbol =>
    have htakes := h symbol hsymbol
    simp only [Symbol.role_appearance]
    cases hrole : symbol.role with
    | accent side => cases side <;> exact ⟨_, rfl⟩
    | operator | identifier | wrap | font | cancel | sqrt => exact ⟨_, rfl⟩
    | _ =>
      rw [hrole] at htakes
      cases htakes

theorem exists_ofBinary (options : Options) {operator : Operator} {color : Option Color}
    (h : ∀ symbol ∈ operator.symbol,
      symbol.role.takesTwo = true ∨ symbol.role = .color ∧ color.isSome = true)
    (first second : Drawing) :
    ∃ drawing, ofBinary options operator color (.ok first) (.ok second) = .ok drawing := by
  unfold ofBinary
  cases hsymbol : operator.symbol with
  | none => exact ⟨_, rfl⟩
  | some symbol =>
    simp only [Symbol.role_appearance]
    rcases h symbol hsymbol with htwo | ⟨hrole, hcolor⟩
    · rcases Role.eq_of_takesTwo htwo with hrole | hrole | hrole | hrole
      all_goals
        rw [hrole]
        exact ⟨_, rfl⟩
    · obtain ⟨color, rfl⟩ := Option.isSome_iff_exists.mp hcolor
      rw [hrole]
      exact ⟨_, rfl⟩

theorem exists_ofInfix (options : Options) {operator : Operator}
    (h : ∀ symbol ∈ operator.symbol, symbol.role = .frac) (first second : Drawing) :
    ∃ drawing, ofInfix options operator (.ok first) (.ok second) = .ok drawing := by
  unfold ofInfix
  cases hsymbol : operator.symbol with
  | none => exact ⟨_, rfl⟩
  | some symbol =>
    simp only [Symbol.role_appearance, h symbol hsymbol]
    exact ⟨_, rfl⟩

end Drawing

/-! ## Drawing formulas -/

namespace Formula

/-- The formula has a drawing with the options. -/
def Draws (options : Options) (formula : Formula) : Prop :=
  ∃ drawing, formula.draw options = .ok drawing

variable {options : Options}

theorem exists_drawItems {items : List Formula} (h : ∀ item ∈ items, item.Draws options) :
    ∃ markup, drawItems options items = .ok markup := by
  induction items with
  | nil => exact ⟨_, by rw [drawItems]⟩
  | cons item rest ih =>
    rw [List.forall_mem_cons] at h
    obtain ⟨drawing, hdrawing⟩ := h.1
    obtain ⟨markup, hmarkup⟩ := ih h.2
    rw [drawItems, hdrawing, hmarkup]
    exact ⟨_, rfl⟩

theorem exists_drawBody {body : Option Formula} (h : ∀ formula ∈ body, formula.Draws options) :
    ∃ markup, drawBody options body = .ok markup := by
  cases body with
  | none => exact ⟨_, by rw [drawBody]⟩
  | some formula =>
    obtain ⟨drawing, hdrawing⟩ := h formula rfl
    rw [drawBody, hdrawing]
    exact ⟨_, rfl⟩

theorem exists_drawCells {cells : List Formula} (h : ∀ cell ∈ cells, cell.Draws options) :
    ∃ markup, drawCells options cells = .ok markup := by
  induction cells with
  | nil => exact ⟨_, by rw [drawCells]⟩
  | cons cell rest ih =>
    rw [List.forall_mem_cons] at h
    obtain ⟨drawing, hdrawing⟩ := h.1
    obtain ⟨markup, hmarkup⟩ := ih h.2
    rw [drawCells, hdrawing, hmarkup]
    exact ⟨_, rfl⟩

theorem exists_drawRows {rows : List (List Formula)}
    (h : ∀ cells ∈ rows, ∀ cell ∈ cells, cell.Draws options) :
    ∃ markup, drawRows options rows = .ok markup := by
  induction rows with
  | nil => exact ⟨_, by rw [drawRows]⟩
  | cons cells rest ih =>
    rw [List.forall_mem_cons] at h
    obtain ⟨markup, hmarkup⟩ := exists_drawCells h.1
    obtain ⟨later, hlater⟩ := ih h.2
    rw [drawRows, hmarkup, hlater]
    exact ⟨_, rfl⟩

/-- A formula is drawn if all its operators can be. -/
theorem Everywhere.draws (options : Options) {formula : Formula}
    (h : Everywhere Drawable formula) : formula.Draws options := by
  unfold Draws
  induction h with
  | @intro formula here within ih =>
    cases formula with
    | empty | number | text | identifier | symbol | color => exact ⟨_, by rw [draw]⟩
    | sequence items =>
      have hitems : ∀ item ∈ items, item.Draws options := ih
      obtain ⟨markup, hmarkup⟩ := exists_drawItems hitems
      rw [draw, hmarkup]
      exact ⟨_, rfl⟩
    | bracketed left body right =>
      have hbody : ∀ inner ∈ body, inner.Draws options :=
        fun inner hmem ↦ ih inner (Option.mem_toList.mpr hmem)
      obtain ⟨markup, hmarkup⟩ := exists_drawBody hbody
      rw [draw, hmarkup]
      exact ⟨_, rfl⟩
    | grouped left body right =>
      have hbody : ∀ inner ∈ body, inner.Draws options :=
        fun inner hmem ↦ ih inner (Option.mem_toList.mpr hmem)
      obtain ⟨markup, hmarkup⟩ := exists_drawBody hbody
      rw [draw, hmarkup]
      exact ⟨_, rfl⟩
    | matrix left rows right =>
      have hrows : ∀ cells ∈ rows, ∀ cell ∈ cells, cell.Draws options :=
        fun cells hcells cell hcell ↦ ih cell (List.mem_flatten_of_mem hcells hcell)
      obtain ⟨markup, hmarkup⟩ := exists_drawRows hrows
      rw [draw, hmarkup]
      exact ⟨_, rfl⟩
    | unary operator operand =>
      obtain ⟨drawing, hdrawing⟩ := ih operand (by simp [parts])
      rw [draw, hdrawing]
      exact Drawing.exists_ofUnary options here drawing
    | binary operator first second =>
      obtain ⟨left, hleft⟩ := ih first (by simp [parts])
      obtain ⟨right, hright⟩ := ih second (by simp [parts])
      rw [draw, hleft, hright]
      exact Drawing.exists_ofBinary options here left right
    | infixOp operator first second =>
      obtain ⟨left, hleft⟩ := ih first (by simp [parts])
      obtain ⟨right, hright⟩ := ih second (by simp [parts])
      rw [draw, hleft, hright]
      exact Drawing.exists_ofInfix options here left right
    | sub base script | sup base script =>
      obtain ⟨below, hbelow⟩ := ih base (by simp [parts])
      obtain ⟨above, habove⟩ := ih script (by simp [parts])
      rw [draw, hbelow, habove]
      exact ⟨_, rfl⟩
    | subSup base lower upper =>
      obtain ⟨middle, hmiddle⟩ := ih base (by simp [parts])
      obtain ⟨below, hbelow⟩ := ih lower (by simp [parts])
      obtain ⟨above, habove⟩ := ih upper (by simp [parts])
      rw [draw, hmiddle, hbelow, habove]
      exact ⟨_, rfl⟩

end Formula

/-! ## Reading standard symbols -/

/-- An operator's symbol has a role that fits its kind, and a color's first operand is converted. -/
def Entry.Fits (entry : Entry) : Prop :=
  match entry.kind with
  | .unary => ∀ symbol ∈ entry.symbol, symbol.role.takesOne = true
  | .binary => ∀ symbol ∈ entry.symbol, symbol.role.takesTwo = true ∨
      symbol.role = .color ∧ (entry.conversions.getD {}).first = some .toColor
  | _ => True

instance (entry : Entry) : Decidable entry.Fits := by
  unfold Entry.Fits
  split <;> infer_instance

/-- The standard table gives each operator a symbol with a drawing for as many operands. -/
theorem Symbol.fits_table : ∀ entry ∈ Symbol.table, entry.2.Fits := by
  decide +kernel

theorem Token.Origin.fits {τ : Type} [KeyTree τ Entry] [LawfulKeyTree τ] {token : Token}
    (h : Token.Origin (Symbol.standardIn τ) token) : token.toEntry.Fits := by
  cases h with
  | text | number | identifier => exact trivial
  | entry hne hhit => exact (Symbol.means_standardIn τ).gives Symbol.fits_table _ _ hhit

open Formula Reading

theorem lenient_drawable : Lenient Drawable := by
  intro formula hleaf
  cases formula with
  | unary | binary | infixOp => cases hleaf
  | _ => trivial

/-- What is read from fitting tokens can be drawn. -/
theorem spreads_drawable : Spreads (fun token ↦ token.toEntry.Fits) Drawable where
  lenient := lenient_drawable
  unary operator only hfits hkind := by
    simp only [Entry.Fits, hkind] at hfits
    exact hfits
  binary operator first second hfits hkind := by
    simp only [Entry.Fits, hkind] at hfits
    intro symbol hsymbol
    apply (hfits symbol hsymbol).imp_right
    intro hcolor
    refine ⟨hcolor.1, ?_⟩
    rw [hcolor.2]
    rfl
  fraction line above below hfits hline := by
    intro symbol hsymbol
    have hfrac : some .frac = some symbol := (Token.isInfix_iff.mp hline).2.symm.trans hsymbol
    cases hfrac
    rfl

/-- The first operand of a color was read as one. -/
def Formula.HasColor : Formula → Prop
  | .binary operator first _ => operator.symbol = some .color → ∃ color, first = .color color
  | _ => True

theorem Formula.Drawable.hasColor {formula : Formula} (h : formula.Drawable) :
    formula.HasColor := by
  cases formula with
  | binary operator first second =>
    intro hsymbol
    rcases h .color hsymbol with htwo | ⟨-, hcolor⟩
    · cases htwo
    · cases first with
      | color color => exact ⟨color, rfl⟩
      | _ => cases hcolor
  | _ => trivial

theorem convertIn_eq_render {τ : Type} [KeyTree τ Entry] (options : Options) {input : String}
    {tree : Option Formula} (h : (Lexer.ofString (Symbol.standardIn τ) input).formula = .ok tree) :
    convertIn τ options input = render options tree := by
  rw [convertIn, Formula.ofStringIn, h]
  rfl

theorem exists_render (options : Options) {tree : Option Formula}
    (h : ∀ formula ∈ tree, Everywhere Drawable formula) :
    ∃ output, Formula.render options tree = .ok output := by
  cases tree with
  | none => exact ⟨_, rfl⟩
  | some formula =>
    obtain ⟨drawing, hdrawing⟩ := (h formula rfl).draws options
    rw [render_some, markup, hdrawing]
    exact ⟨_, rfl⟩

variable (τ : Type) [KeyTree τ Entry] [LawfulKeyTree τ]

theorem exists_drawable (input : String) : ∃ tree, Formula.ofStringIn τ input = .ok tree ∧
    ∀ formula ∈ tree, Everywhere Drawable formula := by
  obtain ⟨tree, rest, htree, hreads⟩ := (Lexer.ofString (Symbol.standardIn τ) input).exists_read
  have hfits : ∀ token ∈ (Lexer.ofString (Symbol.standardIn τ) input).stream, token.toEntry.Fits :=
    fun token hmem ↦ (Lexer.origin_of_mem_stream hmem).fits
  exact ⟨tree, htree, hreads.everywhere spreads_drawable hfits⟩

/-- Reading and writing end without a fault for each input, and each color was read as one. -/
theorem exists_convertIn (options : Options) (input : String) :
    ∃ tree output, Formula.ofStringIn τ input = .ok tree ∧
      (∀ formula ∈ tree, Everywhere HasColor formula) ∧
      Formula.render options tree = .ok output ∧ convertIn τ options input = .ok output := by
  obtain ⟨tree, htree, hdrawable⟩ := exists_drawable τ input
  obtain ⟨output, houtput⟩ := exists_render options hdrawable
  refine ⟨tree, output, htree, ?_, houtput, ?_⟩
  · intro formula hmem
    exact (hdrawable formula hmem).mono fun _ ↦ Drawable.hasColor
  · exact (convertIn_eq_render options htree).trans houtput

/-- An operator without its operand, behind a color. -/
theorem exists_convertIn_color :
    ∃ tree output, Formula.ofString "color(red)sqrt" = .ok tree ∧
      (∀ formula ∈ tree, Everywhere HasColor formula) ∧
      Formula.render {} tree = .ok output ∧ convert {} "color(red)sqrt" = .ok output :=
  exists_convertIn (ByteTree Entry) {} "color(red)sqrt"

end FormulaMarkup
