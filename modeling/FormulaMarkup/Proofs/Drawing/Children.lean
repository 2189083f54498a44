import FormulaMarkup.Formula.Equality
import FormulaMarkup.Proofs.Drawing.Slots
import Mathlib.Data.List.Forall2

/-!
# How many children an element has

The children of an element that must have a fixed number of them are drawn each from a formula of
its own, a slot (`Formula.slots`), and a slot comes to one element, or to none if it is blank
(`Formula.isBlank`). A missing operand is not blank, but brackets that are not drawn are if nothing
is between them.

So such an element lacks as many children as the formula it is drawn from has blank slots
(`Formula.lacks_iff`). It never has too many, and the elements of an input have all their children
if and only if no slot of what was read is blank (`convertIn_isComplete_iff`).
-/

namespace FormulaMarkup

def Operator.role? (operator : Operator) : Option Role := operator.symbol.map (·.role)

namespace Formula

/-- Each operator stands for a symbol. -/
def HasSymbol : Formula → Prop
  | unary operator _ | binary operator _ _ | infixOp operator _ _ => operator.symbol.isSome = true
  | _ => True

theorem lenient_hasSymbol : Lenient HasSymbol := by
  intro formula hleaf
  cases formula with
  | unary | binary | infixOp => cases hleaf
  | _ => trivial

/-- What is drawn as the children of an element that must have as many, in the order of the
children. -/
def slots : Formula → List Formula
  | unary operator operand =>
    match operator.role? with
    | some (.accent _) => [operand, symbol (operator.mark .unary)]
    | _ => []
  | binary operator first second =>
    match operator.role? with
    | some .color => []
    | some .frac => [first, second]
    | _ => [second, first]
  | infixOp _ first second => [first, second]
  | sub base script | sup base script => [base, script]
  | subSup base lower upper => [base, lower, upper]
  | _ => []

mutual

/-- Nothing is drawn of the formula, not even a row: there is nothing between its brackets, and
these are not drawn. -/
@[simp]
def isBlank (options : Options) : Formula → Bool
  | empty | color _ => true
  | sequence items => items.isEmpty
  | bracketed left body right =>
    (options.delimiter left).isEmpty && (options.delimiter right).isEmpty &&
      isBlankBody options body
  | grouped _ body _ => isBlankBody options body
  | _ => false

@[simp]
def isBlankBody (options : Options) : Option Formula → Bool
  | none => true
  | some formula => isBlank options formula

end

/-- The number of blank slots is tolerated. -/
def Blanks (tolerated : Nat → Prop) (options : Options) (formula : Formula) : Prop :=
  formula.slots ≠ [] → tolerated (formula.slots.countP (·.isBlank options))

/-- The formulas have the drawings. -/
def Drawn (options : Options) : List Formula → List Drawing → Prop :=
  List.Forall₂ fun formula drawing ↦ formula.draw options = .ok drawing

variable {options : Options} {formula : Formula} {drawing : Drawing} {formulas : List Formula}
  {drawings : List Drawing}

/-- What is drawn of the formula is a text. -/
def isWritten : Formula → Bool
  | number _ | text _ | identifier _ | symbol _ => true
  | _ => false

theorem isLeaf_of_draw (hwritten : formula.isWritten = true)
    (hdrawing : formula.draw options = .ok drawing) : drawing.IsLeaf := by
  cases formula with
  | number written | text written =>
    rw [draw] at hdrawing
    cases hdrawing
    exact Drawing.isLeaf_single _ written
  | identifier written =>
    rw [draw] at hdrawing
    cases hdrawing
    exact Drawing.isLeaf_ofText written
  | symbol mark =>
    rw [draw] at hdrawing
    cases hdrawing
    exact Drawing.isLeaf_ofSymbol options mark.symbol mark.text
  | _ => cases hwritten

theorem exists_drawn (h : ∀ formula ∈ formulas, formula.Draws options) :
    ∃ drawings, Drawn options formulas drawings := by
  induction formulas with
  | nil => exact ⟨[], .nil⟩
  | cons formula rest ih =>
    rw [List.forall_mem_cons] at h
    obtain ⟨drawing, hdrawing⟩ := h.1
    obtain ⟨drawings, hdrawings⟩ := ih h.2
    exact ⟨drawing :: drawings, .cons hdrawing hdrawings⟩

theorem Drawn.forall_iff {holds : Drawing → Prop} {property : Formula → Prop}
    (hdrawn : Drawn options formulas drawings)
    (h : ∀ formula ∈ formulas, ∀ drawing, formula.draw options = .ok drawing →
      (holds drawing ↔ property formula)) :
    (∀ drawing ∈ drawings, holds drawing) ↔ ∀ formula ∈ formulas, property formula := by
  induction hdrawn with
  | nil => simp
  | cons hdrawing _ ih =>
    rw [List.forall_mem_cons] at h
    rw [List.forall_mem_cons, List.forall_mem_cons, h.1 _ hdrawing, ih h.2]

theorem Drawn.forall {holds : Drawing → Prop} (hdrawn : Drawn options formulas drawings)
    (h : ∀ formula ∈ formulas, ∀ drawing, formula.draw options = .ok drawing → holds drawing) :
    ∀ drawing ∈ drawings, holds drawing := by
  have hiff := hdrawn.forall_iff fun formula hmem drawing hdrawing ↦
    iff_true_intro (h formula hmem drawing hdrawing)
  exact hiff.mpr fun _ _ ↦ trivial

theorem Drawn.drawItems (h : Drawn options formulas drawings) :
    drawItems options formulas = .ok (drawings.flatMap (Drawing.place .avoid)) := by
  induction h with
  | nil => rw [Formula.drawItems, List.flatMap_nil]
  | cons hdrawing _ ih =>
    rw [Formula.drawItems, hdrawing, ih]
    rfl

theorem Drawn.drawBody {body : Option Formula} (h : Drawn options body.toList drawings) :
    drawBody options body = .ok (drawings.flatMap (Drawing.place .avoid)) := by
  cases body with
  | none =>
    cases h
    rw [Formula.drawBody, List.flatMap_nil]
  | some formula =>
    obtain _ | ⟨hdrawing, ⟨⟩⟩ := h
    rw [Formula.drawBody, hdrawing, List.flatMap_singleton]
    rfl

theorem Drawn.drawCells (h : Drawn options formulas drawings) :
    ∃ markup, drawCells options formulas = .ok markup ∧ Drawing.Frames markup drawings := by
  induction h with
  | nil => exact ⟨[], by rw [Formula.drawCells], Drawing.frames_nil⟩
  | @cons formula drawing rest drawings hdrawing _ ih =>
    obtain ⟨markup, hmarkup, hframes⟩ := ih
    rw [Formula.drawCells, hdrawing, hmarkup]
    have hcell : Drawing.Frames [.element .mtd [] (drawing.place .avoid)] [drawing] :=
      (Drawing.frames_place .avoid drawing).element rfl []
    exact ⟨_, rfl, hcell.append hframes⟩

theorem Drawn.drawRows {rows : List (List Formula)} (h : Drawn options rows.flatten drawings) :
    ∃ markup, drawRows options rows = .ok markup ∧ Drawing.Frames markup drawings := by
  induction rows generalizing drawings with
  | nil =>
    cases h
    exact ⟨[], by rw [Formula.drawRows], Drawing.frames_nil⟩
  | cons cells rest ih =>
    have hcells : Drawn options cells (drawings.take cells.length) :=
      (List.forall₂_take_append _ _ _ h.flip).flip
    have hrest : Drawn options rest.flatten (drawings.drop cells.length) :=
      (List.forall₂_drop_append _ _ _ h.flip).flip
    obtain ⟨markup, hmarkup, hframes⟩ := hcells.drawCells
    obtain ⟨later, hlater, hlaterFrames⟩ := ih hrest
    rw [Formula.drawRows, hmarkup, hlater, ← List.take_append_drop cells.length drawings]
    have hrow : Drawing.Frames [.element .mtr [] markup] _ := hframes.element rfl []
    exact ⟨_, rfl, hrow.append hlaterFrames⟩

/-! ## What is around the parts -/

theorem Drawn.of_pair {first second : Formula} (h : Drawn options [first, second] drawings) :
    ∃ above below, drawings = [above, below] ∧ first.draw options = .ok above ∧
      second.draw options = .ok below := by
  obtain _ | ⟨hfirst, _ | ⟨hsecond, ⟨⟩⟩⟩ := h
  exact ⟨_, _, rfl, hfirst, hsecond⟩

section

variable (hsymbol : formula.HasSymbol) (hdrawing : formula.draw options = .ok drawing)
include hsymbol hdrawing

/-- Slots are drawn as the children of one element. -/
theorem holds_of_drawn (hslots : formula.slots ≠ [])
    (hdrawn : Drawn options formula.slots drawings) : drawing.Holds options.rowMode drawings := by
  cases formula with
  | unary operator operand =>
    obtain ⟨mark, hmark⟩ := Option.isSome_iff_exists.mp hsymbol
    simp only [slots, Operator.role?, hmark, Option.map_some] at hslots hdrawn
    cases hrole : mark.role with
    | accent side =>
      rw [hrole] at hdrawn
      obtain ⟨base, glyph, rfl, hbase, hglyph⟩ := Drawn.of_pair hdrawn
      rw [draw] at hglyph
      cases hglyph
      rw [draw, hbase] at hdrawing
      exact Drawing.holds_ofUnary hmark hrole hdrawing
    | _ => simp [hrole] at hslots
  | binary operator first second =>
    obtain ⟨mark, hmark⟩ := Option.isSome_iff_exists.mp hsymbol
    simp only [slots, Operator.role?, hmark, Option.map_some] at hslots hdrawn
    cases hrole : mark.role with
    | color => simp [hrole] at hslots
    | frac =>
      rw [hrole] at hdrawn
      obtain ⟨above, below, rfl, habove, hbelow⟩ := Drawn.of_pair hdrawn
      rw [draw, habove, hbelow] at hdrawing
      have hholds := Drawing.holds_ofBinary hmark (by simp [hrole]) hdrawing
      rwa [if_pos hrole] at hholds
    | _ =>
      rw [hrole] at hdrawn
      obtain ⟨base, above, rfl, hbase, habove⟩ := Drawn.of_pair hdrawn
      rw [draw, hbase, habove] at hdrawing
      have hholds := Drawing.holds_ofBinary hmark (by simp [hrole]) hdrawing
      rwa [if_neg (by simp [hrole])] at hholds
  | infixOp operator first second =>
    obtain ⟨mark, hmark⟩ := Option.isSome_iff_exists.mp hsymbol
    obtain ⟨above, below, rfl, habove, hbelow⟩ := Drawn.of_pair hdrawn
    rw [draw, habove, hbelow] at hdrawing
    exact Drawing.holds_ofInfix hmark hdrawing
  | sub base script =>
    obtain ⟨below, lower, rfl, hbelow, hlower⟩ := Drawn.of_pair hdrawn
    rw [draw, hbelow, hlower] at hdrawing
    cases hdrawing
    exact Drawing.holds_scripted _ below (.inl rfl) rfl rfl
  | sup base script =>
    obtain ⟨below, upper, rfl, hbelow, hupper⟩ := Drawn.of_pair hdrawn
    rw [draw, hbelow, hupper] at hdrawing
    cases hdrawing
    exact Drawing.holds_scripted _ below (.inr rfl) rfl rfl
  | subSup base lower upper =>
    obtain _ | ⟨hbase, hscripts⟩ := hdrawn
    obtain ⟨below, above, rfl, hbelow, habove⟩ := Drawn.of_pair hscripts
    rw [draw, hbase, hbelow, habove] at hdrawing
    cases hdrawing
    exact Drawing.holds_scripted _ _ (.inl rfl) rfl rfl
  | _ => exact absurd rfl hslots

/-- Without slots, the elements that must have a fixed number of children are those of the parts. -/
theorem frames_of_drawn (hslots : formula.slots = [])
    (hdrawn : Drawn options formula.parts drawings) :
    Drawing.Frames drawing.markup drawings := by
  cases formula with
  | empty | color =>
    cases hdrawn
    rw [draw] at hdrawing
    cases hdrawing
    exact Drawing.frames_nil
  | number | text | identifier | symbol =>
    cases hdrawn
    exact (isLeaf_of_draw rfl hdrawing).frames
  | sequence items =>
    have hitems : drawItems options items = _ := Drawn.drawItems hdrawn
    rw [draw, hitems] at hdrawing
    cases hdrawing
    exact Drawing.frames_places drawings
  | bracketed left body right =>
    have hbody : drawBody options body = _ := Drawn.drawBody hdrawn
    rw [draw, hbody] at hdrawing
    cases hdrawing
    exact (Drawing.frames_places drawings).fence _ _
  | grouped left body right =>
    have hbody : drawBody options body = _ := Drawn.drawBody hdrawn
    rw [draw, hbody] at hdrawing
    cases hdrawing
    exact Drawing.frames_places drawings
  | matrix left rows right =>
    obtain ⟨markup, hmarkup, hframes⟩ := Drawn.drawRows hdrawn
    rw [draw, hmarkup] at hdrawing
    cases hdrawing
    exact (hframes.element rfl []).fence _ _
  | unary operator operand =>
    obtain ⟨mark, hmark⟩ := Option.isSome_iff_exists.mp hsymbol
    obtain _ | ⟨hoperand, ⟨⟩⟩ := hdrawn
    rw [draw, hoperand] at hdrawing
    have hrole : ∀ side, mark.role ≠ .accent side := by
      intro side hside
      simp [slots, Operator.role?, hmark, hside] at hslots
    exact (Drawing.frames_ofUnary hmark hrole hdrawing).2
  | binary operator first second =>
    obtain ⟨mark, hmark⟩ := Option.isSome_iff_exists.mp hsymbol
    obtain ⟨above, below, rfl, habove, hbelow⟩ := Drawn.of_pair hdrawn
    rw [draw, habove, hbelow] at hdrawing
    have hrole : mark.role = .color := by
      simp only [slots, Operator.role?, hmark, Option.map_some] at hslots
      split at hslots
      · next heq => exact Option.some.inj heq
      all_goals cases hslots
    obtain ⟨hcolor, -, hframes⟩ := Drawing.frames_ofBinary hmark hrole hdrawing
    -- the color that is the first operand is not drawn
    have hnothing : Drawing.Frames [] [above] := by
      cases first with
      | color color =>
        rw [draw] at habove
        cases habove
        exact Drawing.frames_place .omit .nothing
      | _ => cases hcolor
    exact hnothing.append hframes
  | infixOp | sub | sup | subSup => cases hslots

end

/-! ## What stands in a slot -/

theorem Everywhere.exists_drawn_parts (h : Everywhere Drawable formula) (options : Options) :
    ∃ drawings, Drawn options formula.parts drawings :=
  exists_drawn fun _ hpart ↦ (h.of_mem_parts hpart).draws options

/-- The slots are the parts and perhaps the symbol of an accent. -/
theorem forall_slots_iff {property : Formula → Prop} (hsymbol : ∀ mark, property (.symbol mark))
    (hslots : formula.slots ≠ []) :
    (∀ slot ∈ formula.slots, property slot) ↔ ∀ part ∈ formula.parts, property part := by
  cases formula with
  | unary operator operand =>
    rw [slots] at hslots ⊢
    split at hslots
    · simp [parts, hsymbol]
    · exact absurd rfl hslots
  | binary operator first second =>
    rw [slots] at hslots ⊢
    split at hslots
    · exact absurd rfl hslots
    · rfl
    · simp [parts, and_comm]
  | infixOp | sub | sup | subSup => rfl
  | _ => exact absurd rfl hslots

theorem Everywhere.slots {property : Formula → Prop} (hlenient : Lenient property)
    (h : Everywhere property formula) : ∀ slot ∈ formula.slots, Everywhere property slot := by
  by_cases hslots : formula.slots = []
  · simp [hslots]
  · rw [forall_slots_iff (fun _ ↦ everywhere_of_parts_eq_nil (hlenient _ rfl) rfl) hslots]
    exact fun part hpart ↦ h.of_mem_parts hpart

theorem Everywhere.exists_drawn_slots (h : Everywhere Drawable formula) (options : Options) :
    ∃ drawings, Drawn options formula.slots drawings :=
  exists_drawn fun slot hslot ↦ (h.slots lenient_drawable slot hslot).draws options

theorem length_drawBody {body : Option Formula} (hdrawn : Drawn options body.toList drawings)
    (h : ∀ formula ∈ body, ∀ drawing, formula.draw options = .ok drawing →
      (drawing.place .avoid).length = if formula.isBlank options then 0 else 1) :
    (drawings.flatMap (Drawing.place .avoid)).length =
      if isBlankBody options body then 0 else 1 := by
  cases body with
  | none =>
    cases hdrawn
    simp
  | some formula =>
    obtain _ | ⟨hdrawing, ⟨⟩⟩ := hdrawn
    rw [List.flatMap_singleton]
    exact h formula rfl _ hdrawing

/-- What is drawn in a slot is one element, unless the formula is blank. -/
theorem length_place (hdrawable : Everywhere Drawable formula)
    (hsymbols : Everywhere HasSymbol formula) (hdrawing : formula.draw options = .ok drawing) :
    (drawing.place .avoid).length = if formula.isBlank options then 0 else 1 := by
  induction formula generalizing drawing with
  | empty | color =>
    rw [draw] at hdrawing
    cases hdrawing
    simp [Drawing.place, Drawing.nothing]
  | number | text | identifier | symbol =>
    simp [(isLeaf_of_draw rfl hdrawing).length_place]
  | sequence items ih =>
    obtain ⟨drawings, hdrawn⟩ := hdrawable.exists_drawn_parts options
    have hitems : drawItems options items = _ := Drawn.drawItems hdrawn
    rw [draw, hitems] at hdrawing
    cases hdrawing
    cases items with
    | nil =>
      cases hdrawn
      rfl
    | cons => rfl
  | bracketed left body right ih =>
    obtain ⟨drawings, hdrawn⟩ := hdrawable.exists_drawn_parts options
    have hbody : drawBody options body = _ := Drawn.drawBody hdrawn
    have hlength := length_drawBody hdrawn fun inner hinner _ h ↦
      ih inner hinner (hdrawable.of_mem_parts (Option.mem_toList.mpr hinner))
        (hsymbols.of_mem_parts (Option.mem_toList.mpr hinner)) h
    rw [draw, hbody] at hdrawing
    cases hdrawing
    rw [Drawing.length_place_fence, hlength, isBlank]
    cases (options.delimiter left).isEmpty && (options.delimiter right).isEmpty <;> rfl
  | grouped left body right ih =>
    obtain ⟨drawings, hdrawn⟩ := hdrawable.exists_drawn_parts options
    have hbody : drawBody options body = _ := Drawn.drawBody hdrawn
    have hlength := length_drawBody hdrawn fun inner hinner _ h ↦
      ih inner hinner (hdrawable.of_mem_parts (Option.mem_toList.mpr hinner))
        (hsymbols.of_mem_parts (Option.mem_toList.mpr hinner)) h
    rw [draw, hbody] at hdrawing
    cases hdrawing
    rw [isBlank]
    exact hlength
  | matrix left rows right ih =>
    obtain ⟨drawings, hdrawn⟩ := hdrawable.exists_drawn_parts options
    obtain ⟨markup, hmarkup, -⟩ := Drawn.drawRows hdrawn
    rw [draw, hmarkup] at hdrawing
    cases hdrawing
    simp [Drawing.length_place_fence]
  | unary operator operand =>
    obtain ⟨mark, hmark⟩ := Option.isSome_iff_exists.mp hsymbols.here
    obtain ⟨drawings, hdrawn⟩ := hdrawable.exists_drawn_parts options
    obtain _ | ⟨hoperand, ⟨⟩⟩ := hdrawn
    rw [draw, hoperand] at hdrawing
    simp [Drawing.length_place_ofUnary hmark hdrawing]
  | binary operator first second =>
    obtain ⟨mark, hmark⟩ := Option.isSome_iff_exists.mp hsymbols.here
    obtain ⟨drawings, hdrawn⟩ := hdrawable.exists_drawn_parts options
    obtain ⟨above, below, -, habove, hbelow⟩ := Drawn.of_pair hdrawn
    rw [draw, habove, hbelow] at hdrawing
    simp [Drawing.length_place_ofBinary hmark hdrawing]
  | infixOp | sub | sup | subSup =>
    obtain ⟨drawings, hdrawn⟩ := hdrawable.exists_drawn_slots options
    have hholds := holds_of_drawn hsymbols.here hdrawing (by simp [slots]) hdrawn
    simp [hholds.length_place]

theorem Drawn.length_places (hdrawable : ∀ formula ∈ formulas, Everywhere Drawable formula)
    (hsymbols : ∀ formula ∈ formulas, Everywhere HasSymbol formula)
    (hdrawn : Drawn options formulas drawings) :
    (drawings.flatMap (Drawing.place .avoid)).length + formulas.countP (·.isBlank options) =
      drawings.length := by
  induction hdrawn with
  | nil => rfl
  | cons hdrawing _ ih =>
    rw [List.forall_mem_cons] at hdrawable hsymbols
    have hlength := length_place hdrawable.1 hsymbols.1 hdrawing
    have hrest := ih hdrawable.2 hsymbols.2
    rw [List.flatMap_cons, List.length_append, List.countP_cons, List.length_cons, hlength]
    split <;> omega

/-- The elements drawn of a formula lack as many children as its slots are blank. -/
theorem lacks_iff (hmode : options.rowMode = .avoid) (hdrawable : Everywhere Drawable formula)
    (hsymbols : Everywhere HasSymbol formula) (hdrawing : formula.draw options = .ok drawing)
    (tolerated : Nat → Prop) :
    drawing.Lacks tolerated ↔ Everywhere (Blanks tolerated options) formula := by
  induction hdrawable generalizing drawing with
  | @intro formula here within ih =>
    have hdrawable : Everywhere Drawable formula := .intro here within
    have hparts : ∀ part ∈ formula.parts, ∀ drawing, part.draw options = .ok drawing →
        (drawing.Lacks tolerated ↔ Everywhere (Blanks tolerated options) part) :=
      fun part hpart _ h ↦ ih part hpart (hsymbols.of_mem_parts hpart) h
    rw [everywhere_iff]
    by_cases hslots : formula.slots = []
    · obtain ⟨drawings, hdrawn⟩ := hdrawable.exists_drawn_parts options
      have hblanks : Blanks tolerated options formula := fun hne ↦ absurd hslots hne
      rw [and_iff_right hblanks, ← hdrawn.forall_iff hparts]
      exact frames_of_drawn hsymbols.here hdrawing hslots hdrawn _ (Tag.counts_lacks tolerated)
    · obtain ⟨drawings, hdrawn⟩ := hdrawable.exists_drawn_slots options
      have hblanks : Blanks tolerated options formula ↔
          tolerated (formula.slots.countP (·.isBlank options)) := forall_prop_of_true hslots
      have hmark : ∀ mark, Everywhere (Blanks tolerated options) (symbol mark) :=
        fun mark ↦ .intro (fun hne ↦ absurd rfl hne) (by simp [parts])
      have hslot : ∀ slot ∈ formula.slots, ∀ drawing, slot.draw options = .ok drawing →
          (drawing.Lacks tolerated ↔ Everywhere (Blanks tolerated options) slot) := by
        refine (forall_slots_iff (fun mark drawing hdrawing ↦ ?_) hslots).mpr hparts
        have hframes := (isLeaf_of_draw rfl hdrawing).frames
        exact iff_of_true ((hframes _ (Tag.counts_lacks tolerated)).mpr (by simp)) (hmark mark)
      have hlength := hdrawn.length_places (hdrawable.slots lenient_drawable)
        (hsymbols.slots lenient_hasSymbol)
      have hholds := holds_of_drawn hsymbols.here hdrawing hslots hdrawn
      rw [hmode] at hholds
      rw [hholds.lacks_iff hlength, hdrawn.forall_iff hslot, forall_slots_iff hmark hslots, hblanks]

/-- The same of the one element that a formula is drawn as. -/
theorem markup_lacks_iff (hmode : options.rowMode = .avoid)
    (hdrawable : Everywhere Drawable formula) (hsymbols : Everywhere HasSymbol formula) :
    ∃ markup, formula.markup options = .ok markup ∧ ∀ tolerated,
      markup.Elements (Tag.Lacks tolerated) ↔ Everywhere (Blanks tolerated options) formula := by
  obtain ⟨drawing, hdrawing⟩ := hdrawable.draws options
  refine ⟨_, by rw [markup, hdrawing]; rfl, fun tolerated ↦ ?_⟩
  have hframes : Drawing.Frames
      [.element .math options.attributes (drawing.place .omit)] [drawing] :=
    (Drawing.frames_place .omit drawing).element rfl options.attributes
  rw [← lacks_iff hmode hdrawable hsymbols hdrawing tolerated]
  have helement := hframes _ (Tag.counts_lacks tolerated)
  rw [List.forall_mem_singleton, List.forall_mem_singleton] at helement
  exact helement

end Formula

/-! ## Inputs -/

/-- An operator's entry has a symbol. -/
def Entry.IsNamed (entry : Entry) : Prop :=
  entry.kind = .unary ∨ entry.kind = .binary → entry.symbol.isSome = true

instance (entry : Entry) : Decidable entry.IsNamed := by
  unfold Entry.IsNamed
  infer_instance

theorem Symbol.isNamed_table : ∀ entry ∈ Symbol.table, entry.2.IsNamed := by
  decide +kernel

theorem Token.Origin.isNamed {τ : Type} [KeyTree τ Entry] [LawfulKeyTree τ] {token : Token}
    (h : Token.Origin (Symbol.standardIn τ) token) : token.toEntry.IsNamed := by
  cases h with
  | text | number | identifier => rintro (⟨⟨⟩⟩ | ⟨⟨⟩⟩)
  | entry hne hhit => exact (Symbol.means_standardIn τ).gives Symbol.isNamed_table _ _ hhit

open Formula Reading

theorem spreads_hasSymbol : Spreads (fun token ↦ token.toEntry.IsNamed) HasSymbol where
  lenient := lenient_hasSymbol
  unary _ _ hnamed hkind := hnamed (.inl hkind)
  binary _ _ _ hnamed hkind := hnamed (.inr hkind)
  fraction line _ _ _ hline := by
    have hfrac : line.symbol = some .frac := (Token.isInfix_iff.mp hline).2
    change line.symbol.isSome = true
    rw [hfrac]
    rfl

/-- Each operator of an input has a symbol and a drawing. -/
theorem exists_ofStringIn (τ : Type) [KeyTree τ Entry] [LawfulKeyTree τ] (input : String) :
    ∃ tree, Formula.ofStringIn τ input = .ok tree ∧
      ∀ formula ∈ tree, Everywhere Drawable formula ∧ Everywhere HasSymbol formula := by
  obtain ⟨tree, rest, htree, hreads⟩ := (Lexer.ofString (Symbol.standardIn τ) input).exists_read
  have horigin : ∀ token ∈ (Lexer.ofString (Symbol.standardIn τ) input).stream,
      Token.Origin (Symbol.standardIn τ) token := fun _ ↦ Lexer.origin_of_mem_stream
  refine ⟨tree, htree, fun formula hmem ↦ ⟨?_, ?_⟩⟩
  · exact hreads.everywhere spreads_drawable (fun token h ↦ (horigin token h).fits) formula hmem
  · exact hreads.everywhere spreads_hasSymbol (fun token h ↦ (horigin token h).isNamed) formula hmem

theorem Formula.blanks_zero_iff (options : Options) (formula : Formula) :
    formula.Blanks (· = 0) options ↔ ∀ slot ∈ formula.slots, slot.isBlank options = false := by
  simp only [Blanks, List.countP_eq_zero, Bool.not_eq_true]
  constructor
  · exact fun h slot hslot ↦ h (List.ne_nil_of_mem hslot) slot hslot
  · exact fun h _ ↦ h

/-- With rows around sequences only, no element of an input has too many children, and each has all
that it must have if and only if no slot of what was read is blank. -/
theorem convertIn_isComplete_iff (τ : Type) [KeyTree τ Entry] [LawfulKeyTree τ]
    {options : Options} (hmode : options.rowMode = .avoid) (input : String) :
    ∃ tree, Formula.ofStringIn τ input = .ok tree ∧
      (tree = none → convertIn τ options input = .ok "") ∧
      ∀ formula ∈ tree, ∃ markup, formula.markup options = .ok markup ∧
        convertIn τ options input = .ok (markup.write options.escapeNonAscii) ∧
        (markup.Elements fun tag children ↦ ∀ count ∈ tag.childCount?, children.length ≤ count) ∧
        (markup.Elements Tag.IsComplete ↔
          Everywhere (fun part ↦ ∀ slot ∈ part.slots, slot.isBlank options = false) formula) := by
  obtain ⟨tree, htree, hproperties⟩ := exists_ofStringIn τ input
  have hconvert := convertIn_eq_render options htree
  refine ⟨tree, htree, ?_, fun formula hmem ↦ ?_⟩
  · rintro rfl
    exact hconvert
  · obtain ⟨hdrawable, hsymbols⟩ := hproperties formula hmem
    obtain ⟨markup, hmarkup, hlacks⟩ := markup_lacks_iff hmode hdrawable hsymbols
    refine ⟨markup, hmarkup, ?_, ?_, ?_⟩
    · rw [hconvert, Option.mem_def.mp hmem, render_some, hmarkup]
      rfl
    · rw [← Markup.elements_congr Tag.lacks_true_iff, hlacks]
      exact hdrawable.mono fun _ _ _ ↦ trivial
    · rw [← Markup.elements_congr Tag.lacks_zero_iff, hlacks]
      exact everywhere_congr (blanks_zero_iff options) formula

/-- Brackets are dropped from under a fraction bar, also if nothing is between them. -/
theorem convertIn_isComplete_iff_emptyBrackets : ({} : Options).rowMode = .avoid ∧
    ∃ formula markup, Formula.ofString "1/()" = .ok (some formula) ∧
      formula.markup {} = .ok markup ∧
      convert {} "1/()" = .ok "<math><mfrac><mn>1</mn></mfrac></math>" ∧
      ¬ markup.Elements Tag.IsComplete := by
  obtain ⟨tree, htree, -, hformula⟩ := @convertIn_isComplete_iff (ByteTree Entry) _ _ {} rfl "1/()"
  let brackets : Formula := grouped (some ⟨some .leftParen, "(", .opening⟩) none
    (some ⟨some .rightParen, ")", .closing⟩)
  have hread : (Formula.ofString "1/()").toOption =
      some (some (infixOp ⟨some .frac, "/"⟩ (number "1") brackets)) := by
    decide +kernel
  rw [Formula.ofString, htree] at hread
  cases hread
  obtain ⟨markup, hmarkup, hconvert, -, hcomplete⟩ := hformula _ rfl
  have hdrawn : (infixOp ⟨some .frac, "/"⟩ (number "1") brackets).markup {} =
      .ok (.element .math [] [.element .mfrac [] [.leaf .mn "1"]]) := by
    rfl
  rw [hmarkup] at hdrawn
  cases hdrawn
  refine ⟨rfl, _, _, htree, hmarkup, ?_, fun h ↦ ?_⟩
  · exact hconvert.trans (congrArg _ (by decide))
  · have hblank : brackets.isBlank {} = false :=
      (hcomplete.mp h).here brackets (List.mem_cons_of_mem _ List.mem_cons_self)
    simp [brackets] at hblank

end FormulaMarkup
