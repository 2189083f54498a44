import FormulaMarkup.Formula.Induction
import FormulaMarkup.Proofs.Drawing.Respelling
import FormulaMarkup.Proofs.Drawing.Slots
import FormulaMarkup.Proofs.Markup.Rows
import FormulaMarkup.Proofs.Reading.Operands

/-!
# What the row mode changes

The row mode is looked at only where a formula is put into a slot. So the drawings of one formula in
two modes are related, by any relation that an element around them and more siblings keep, as soon
as the two modes make related elements of related drawings in a slot (`Formula.agree_draw`).

There are two such relations here. What is left of the markup when its rows are taken out is the
same in any two modes (`Formula.render_withoutRows`). And the markup itself is the same where rows
are omitted and where they are avoided, if no sequence stands in a slot, which is so for an input
without bars (`convertIn_omit_eq_convertIn_avoid`).
-/

namespace FormulaMarkup

/-! ## Related results -/

/-- Both have related results, or both fail for the same fault. -/
inductive Agree {α : Type} (related : α → α → Prop) : Except Fault α → Except Fault α → Prop
  | ok {result result'} (h : related result result') : Agree related (.ok result) (.ok result')
  | error (fault) : Agree related (.error fault) (.error fault)

namespace Agree

variable {α β : Type} {related : α → α → Prop} {rel : β → β → Prop}
  {first first' : Except Fault α}

theorem bind {next next' : α → Except Fault β} (h : Agree related first first')
    (hnext : ∀ {result result'}, related result result' → Agree rel (next result) (next' result')) :
    Agree rel (first >>= next) (first' >>= next') := by
  cases h with
  | ok h => exact hnext h
  | error fault => exact .error fault

theorem map {next next' : α → β} (h : Agree related first first')
    (hnext : ∀ {result result'}, related result result' → rel (next result) (next' result')) :
    Agree rel (first.map next) (first'.map next') := by
  cases h with
  | ok h => exact .ok (hnext h)
  | error fault => exact .error fault

theorem mono {weaker : α → α → Prop} (h : Agree related first first')
    (hweaker : ∀ {result result'}, related result result' → weaker result result') :
    Agree weaker first first' := by
  cases h with
  | ok h => exact .ok (hweaker h)
  | error fault => exact .error fault

theorem eq (h : Agree Eq first first') : first = first' := by
  cases h with
  | ok h => exact congrArg Except.ok h
  | error => rfl

end Agree

/-- A relation of siblings that is kept when more of them are added, and by an element around
them. -/
structure Markup.Congruence (rel : List Markup → List Markup → Prop) : Prop where
  refl : ∀ list, rel list list
  append : ∀ {list list' more more'}, rel list list' → rel more more' →
    rel (list ++ more) (list' ++ more')
  element : ∀ tag attributes {children children'}, rel children children' →
    rel [.element tag attributes children] [.element tag attributes children']

/-! ## Related drawings -/

namespace Drawing

/-- The elements are related, and nothing else of the two drawings is different. Both are runs or
neither is. -/
structure Alike (rel : List Markup → List Markup → Prop) (run : Bool)
    (drawing drawing' : Drawing) : Prop where
  markup : rel drawing.markup drawing'.markup
  isRun : drawing.isRun = run
  isRun' : drawing'.isRun = run
  isAccent : drawing.isAccent = drawing'.isAccent
  hasLimits : drawing.hasLimits = drawing'.hasLimits

/-- What comes of two drawings in a slot is related, each in its mode or both in one that the slot
has of its own. -/
structure AlikeInSlot (rel : List Markup → List Markup → Prop) (mode mode' : RowMode)
    (drawing drawing' : Drawing) : Prop where
  markup : rel drawing.markup drawing'.markup
  avoid : rel (drawing.place .avoid) (drawing'.place .avoid)
  place : rel (drawing.place mode) (drawing'.place mode')
  isAccent : drawing.isAccent = drawing'.isAccent
  hasLimits : drawing.hasLimits = drawing'.hasLimits

/-- The two modes make related elements of drawings that are alike, of runs only if runs occur. -/
def PlacesAlike (rel : List Markup → List Markup → Prop) (mode mode' : RowMode) (runs : Prop) :
    Prop :=
  ∀ {run : Bool} {drawing drawing' : Drawing}, Alike rel run drawing drawing' →
    (run = true → runs) → rel (drawing.place mode) (drawing'.place mode')

variable {rel : List Markup → List Markup → Prop} {mode mode' : RowMode} {runs : Prop} {run : Bool}
  {drawing drawing' : Drawing}

theorem AlikeInSlot.placeMark (h : AlikeInSlot rel mode mode' drawing drawing') :
    rel (drawing.placeMark mode) (drawing'.placeMark mode') := by
  rw [Drawing.placeMark, Drawing.placeMark, h.isAccent]
  split
  · exact h.avoid
  · exact h.place

/-- What is known of a symbol is seen in both drawings. -/
theorem Alike.annotated (h : Alike rel run drawing drawing') (isAccent hasLimits : Bool) :
    Alike rel run { drawing with isAccent := isAccent, hasLimits := hasLimits }
      { drawing' with isAccent := isAccent, hasLimits := hasLimits } :=
  ⟨h.markup, h.isRun, h.isRun', rfl, rfl⟩

section

variable (hrel : Markup.Congruence rel)
include hrel

theorem alike_self (hrun : drawing.isRun = run) : Alike rel run drawing drawing :=
  ⟨hrel.refl _, hrun, hrun, rfl, rfl⟩

theorem alike_element (tag : Tag) (attributes : List Attribute) {children children' : List Markup}
    (h : rel children children') :
    Alike rel false (single (.element tag attributes children))
      (single (.element tag attributes children')) :=
  ⟨hrel.element tag attributes h, rfl, rfl, rfl, rfl⟩

theorem Alike.avoid (h : Alike rel run drawing drawing') :
    rel (drawing.place .avoid) (drawing'.place .avoid) := by
  rw [Drawing.place, Drawing.place, h.isRun, h.isRun']
  split
  · exact hrel.element .mrow [] h.markup
  · exact h.markup

theorem Alike.inSlot (h : Alike rel run drawing drawing')
    (hplaces : PlacesAlike rel mode mode' runs) (hrun : run = true → runs) :
    AlikeInSlot rel mode mode' drawing drawing' where
  markup := h.markup
  avoid := h.avoid hrel
  place := hplaces h hrun
  isAccent := h.isAccent
  hasLimits := h.hasLimits

theorem alike_fence (left right : String) {body body' : List Markup} (h : rel body body') :
    Alike rel false (fence left right body) (fence left right body') := by
  unfold fence
  split
  · exact ⟨h, rfl, rfl, rfl, rfl⟩
  · exact alike_element hrel .mrow [] (hrel.append (hrel.append (hrel.refl _) h) (hrel.refl _))

theorem alike_underOver {base base' : Drawing} {lower lower' upper upper' : Option Drawing}
    (hbase : AlikeInSlot rel mode mode' base base')
    (hlower : Option.Rel (AlikeInSlot rel mode mode') lower lower')
    (hupper : Option.Rel (AlikeInSlot rel mode mode') upper upper') :
    Alike rel false (underOver mode base lower upper) (underOver mode' base' lower' upper') := by
  have hmark : ∀ {mark mark' : Drawing}, AlikeInSlot rel mode mode' mark mark' →
      rel ([mark].flatMap (placeMark mode)) ([mark'].flatMap (placeMark mode')) := by
    intro mark mark' h
    simpa using h.placeMark
  cases hlower with
  | none =>
    cases hupper with
    | none => exact ⟨hbase.place, rfl, rfl, rfl, rfl⟩
    | some hupper =>
      simp only [underOver, Option.any_some, hupper.isAccent]
      exact alike_element hrel .mover _
        (hrel.append (hrel.append hbase.place (hrel.refl _)) (hmark hupper))
  | some hlower =>
    cases hupper with
    | none =>
      simp only [underOver, Option.any_some, hlower.isAccent]
      exact alike_element hrel .munder _
        (hrel.append (hrel.append hbase.place (hmark hlower)) (hrel.refl _))
    | some hupper =>
      simp only [underOver, Option.any_some, hlower.isAccent, hupper.isAccent]
      exact alike_element hrel .munderover _
        (hrel.append (hrel.append hbase.place (hmark hlower)) (hmark hupper))

theorem alike_scripted (tag : Tag) {base base' : Drawing}
    {lower lower' upper upper' : Option Drawing}
    (hbase : AlikeInSlot rel mode mode' base base')
    (hlower : Option.Rel (AlikeInSlot rel mode mode') lower lower')
    (hupper : Option.Rel (AlikeInSlot rel mode mode') upper upper') :
    Alike rel false (scripted mode tag base lower upper)
      (scripted mode' tag base' lower' upper') := by
  have hscripts : ∀ {script script' : Option Drawing},
      Option.Rel (AlikeInSlot rel mode mode') script script' →
      rel (script.toList.flatMap (place mode)) (script'.toList.flatMap (place mode')) := by
    intro script script' h
    cases h with
    | none => exact hrel.refl _
    | some h => simpa using h.place
  simp only [scripted, hbase.hasLimits]
  split
  · exact alike_underOver hrel hbase hlower hupper
  · exact alike_element hrel tag []
      (hrel.append (hrel.append hbase.place (hscripts hlower)) (hscripts hupper))

theorem alike_fraction {above above' below below' : Drawing}
    (habove : AlikeInSlot rel mode mode' above above')
    (hbelow : AlikeInSlot rel mode mode' below below') :
    Alike rel false (fraction mode above below) (fraction mode' above' below') :=
  alike_element hrel .mfrac [] (hrel.append habove.place hbelow.place)

/-! ## Operators -/

variable (options : Options) (operator : Operator)

theorem agree_ofUnary (hplaces : PlacesAlike rel mode mode' runs)
    {operand operand' : Except Fault Drawing}
    (h : Agree (AlikeInSlot rel mode mode') operand operand') :
    Agree (Alike rel false) (ofUnary { options with rowMode := mode } operator operand)
      (ofUnary { options with rowMode := mode' } operator operand') := by
  unfold ofUnary
  split
  · exact .ok (alike_self hrel rfl)
  · next symbol _ =>
    have hglyph : AlikeInSlot rel mode mode' (ofSymbol options symbol operator.text)
        (ofSymbol options symbol operator.text) :=
      (alike_self hrel (isLeaf_ofSymbol options symbol operator.text).1).inSlot hrel hplaces
        (by rintro ⟨⟩)
    refine Agree.map ?_ fun hdrawing ↦ Alike.annotated hdrawing _ _
    dsimp only
    cases (symbol.appearance options.straightPhi).role with
    | identifier | operator =>
      exact h.bind fun hoperand ↦
        .ok (alike_element hrel .mrow [] (hrel.append (hrel.refl [_]) hoperand.place))
    | wrap => exact h.bind fun hoperand ↦ .ok (alike_fence hrel _ _ hoperand.avoid)
    | accent side =>
      cases side with
      | under => exact h.bind fun hbase ↦ .ok (alike_underOver hrel hbase (.some hglyph) .none)
      | _ => exact h.bind fun hbase ↦ .ok (alike_underOver hrel hbase .none (.some hglyph))
    | font => exact h.bind fun hoperand ↦ .ok (alike_element hrel .mstyle _ hoperand.avoid)
    | cancel => exact h.bind fun hoperand ↦ .ok (alike_element hrel .menclose _ hoperand.markup)
    | sqrt => exact h.bind fun hoperand ↦ .ok (alike_element hrel .msqrt [] hoperand.place)
    | _ => exact .error _

theorem agree_ofBinary (color : Option Color) {first first' second second' : Except Fault Drawing}
    (hfirst : Agree (AlikeInSlot rel mode mode') first first')
    (hsecond : Agree (AlikeInSlot rel mode mode') second second') :
    Agree (Alike rel false) (ofBinary { options with rowMode := mode } operator color first second)
      (ofBinary { options with rowMode := mode' } operator color first' second') := by
  unfold ofBinary
  split
  · exact .ok (alike_self hrel rfl)
  · next symbol _ =>
    dsimp only
    cases (symbol.appearance options.straightPhi).role with
    | under =>
      exact hsecond.bind fun hbase ↦ hfirst.bind fun hmark ↦
        .ok (alike_underOver hrel hbase (.some hmark) .none)
    | root =>
      exact hsecond.bind fun hradicand ↦ hfirst.bind fun hindex ↦
        .ok (alike_element hrel .mroot [] (hrel.append hradicand.place hindex.place))
    | color =>
      cases color with
      | none => exact .error _
      | some color => exact hsecond.bind fun h ↦ .ok (alike_element hrel .mstyle _ h.avoid)
    | frac =>
      exact hfirst.bind fun habove ↦ hsecond.bind fun hbelow ↦
        .ok (alike_fraction hrel habove hbelow)
    | operator | identifier | text | opening | closing | bar | accent | font | wrap | cancel
    | sqrt => exact .error _
    | _ =>
      -- the first operand is a mark over the second
      exact hsecond.bind fun hbase ↦ hfirst.bind fun hmark ↦
        .ok (alike_underOver hrel hbase .none (.some hmark))

theorem agree_ofInfix {first first' second second' : Except Fault Drawing}
    (hfirst : Agree (AlikeInSlot rel mode mode') first first')
    (hsecond : Agree (AlikeInSlot rel mode mode') second second') :
    Agree (Alike rel false) (ofInfix { options with rowMode := mode } operator first second)
      (ofInfix { options with rowMode := mode' } operator first' second') := by
  unfold ofInfix
  split
  · exact .ok (alike_self hrel rfl)
  · next symbol _ =>
    dsimp only
    cases (symbol.appearance options.straightPhi).role with
    | frac =>
      exact hfirst.bind fun habove ↦ hsecond.bind fun hbelow ↦
        .ok (alike_fraction hrel habove hbelow)
    | _ => exact .error _

end

end Drawing

/-! ## Formulas -/

namespace Formula

variable {rel : List Markup → List Markup → Prop} {mode mode' : RowMode} {runs : Prop}
  (hrel : Markup.Congruence rel) (options : Options)

theorem isSequence_of_isRun {formula : Formula} (h : formula.isRun = true) :
    formula.isSequence = true := by
  cases formula with
  | sequence => rfl
  | _ => cases h

/-- The formula has two drawings that are alike, one in each mode, or none for the same fault. -/
def DrawsAlike (rel : List Markup → List Markup → Prop) (mode mode' : RowMode) (options : Options)
    (formula : Formula) : Prop :=
  Agree (Drawing.Alike rel formula.isRun) (formula.draw { options with rowMode := mode })
    (formula.draw { options with rowMode := mode' })

include hrel

/-- A part in a slot is no sequence, or sequences may occur there. -/
theorem inSlot_of_placed (hplaces : Drawing.PlacesAlike rel mode mode' runs)
    {formula part : Formula} (h : Everywhere (SlotSequences fun _ ↦ runs) formula) (place : Place)
    (hpart : (place, part) ∈ formula.placed) (hslot : place.isSlot = true)
    (hdraws : Everywhere (SlotSequences fun _ ↦ runs) part →
      part.DrawsAlike rel mode mode' options) :
    Agree (Drawing.AlikeInSlot rel mode mode') (part.draw { options with rowMode := mode })
      (part.draw { options with rowMode := mode' }) := by
  have hmem : part ∈ formula.parts := by
    rw [← map_snd_placed]
    exact List.mem_map_of_mem hpart
  exact (hdraws (h.of_mem_parts hmem)).mono fun hdrawing ↦
    hdrawing.inSlot hrel hplaces fun hrun ↦ h.here _ hpart hslot (isSequence_of_isRun hrun)

theorem agree_drawItems {items : List Formula}
    (h : ∀ item ∈ items, item.DrawsAlike rel mode mode' options) :
    Agree rel (drawItems { options with rowMode := mode } items)
      (drawItems { options with rowMode := mode' } items) := by
  induction items with
  | nil =>
    rw [drawItems, drawItems]
    exact .ok (hrel.refl [])
  | cons item rest ih =>
    rw [List.forall_mem_cons] at h
    rw [drawItems, drawItems]
    exact h.1.bind fun hitem ↦ (ih h.2).bind fun hrest ↦ .ok (hrel.append (hitem.avoid hrel) hrest)

theorem agree_drawBody {body : Option Formula}
    (h : ∀ formula ∈ body, formula.DrawsAlike rel mode mode' options) :
    Agree rel (drawBody { options with rowMode := mode } body)
      (drawBody { options with rowMode := mode' } body) := by
  cases body with
  | none =>
    rw [drawBody, drawBody]
    exact .ok (hrel.refl [])
  | some formula =>
    rw [drawBody, drawBody]
    exact (h formula rfl).bind fun hbody ↦ .ok (hbody.avoid hrel)

theorem agree_drawCells {cells : List Formula}
    (h : ∀ cell ∈ cells, cell.DrawsAlike rel mode mode' options) :
    Agree rel (drawCells { options with rowMode := mode } cells)
      (drawCells { options with rowMode := mode' } cells) := by
  induction cells with
  | nil =>
    rw [drawCells, drawCells]
    exact .ok (hrel.refl [])
  | cons cell rest ih =>
    rw [List.forall_mem_cons] at h
    rw [drawCells, drawCells]
    exact h.1.bind fun hcell ↦ (ih h.2).bind fun hrest ↦
      .ok (hrel.append (hrel.element .mtd [] (hcell.avoid hrel)) hrest)

theorem agree_drawRows {rows : List (List Formula)}
    (h : ∀ cells ∈ rows, ∀ cell ∈ cells, cell.DrawsAlike rel mode mode' options) :
    Agree rel (drawRows { options with rowMode := mode } rows)
      (drawRows { options with rowMode := mode' } rows) := by
  induction rows with
  | nil =>
    rw [drawRows, drawRows]
    exact .ok (hrel.refl [])
  | cons cells rest ih =>
    rw [List.forall_mem_cons] at h
    rw [drawRows, drawRows]
    exact (agree_drawCells hrel options h.1).bind fun hcells ↦ (ih h.2).bind fun hrest ↦
      .ok (hrel.append (hrel.element .mtr [] hcells) hrest)

/-- Where no more sequences than may occur stand in slots, the drawings in both modes are alike. -/
theorem agree_draw (hplaces : Drawing.PlacesAlike rel mode mode' runs) {formula : Formula}
    (h : Everywhere (SlotSequences fun _ ↦ runs) formula) :
    formula.DrawsAlike rel mode mode' options := by
  induction formula with
  | empty | number | text | color =>
    rw [DrawsAlike, draw, draw]
    exact .ok (Drawing.alike_self hrel rfl)
  | identifier written =>
    rw [DrawsAlike, draw, draw]
    exact .ok (Drawing.alike_self hrel (Drawing.isLeaf_ofText written).1)
  | symbol mark =>
    rw [DrawsAlike, draw, draw]
    exact .ok (Drawing.alike_self hrel (Drawing.isLeaf_ofSymbol options mark.symbol mark.text).1)
  | sequence items ih =>
    rw [DrawsAlike, draw, draw]
    have hitems := agree_drawItems hrel options fun item hitem ↦
      ih item hitem (h.of_mem_parts hitem)
    exact hitems.bind fun hmarkup ↦ .ok ⟨hmarkup, rfl, rfl, rfl, rfl⟩
  | bracketed left body right ih =>
    rw [DrawsAlike, draw, draw]
    have hbody := agree_drawBody hrel options fun inner hinner ↦
      ih inner hinner (h.of_mem_parts (Option.mem_toList.mpr hinner))
    exact hbody.bind fun hmarkup ↦ .ok (Drawing.alike_fence hrel _ _ hmarkup)
  | grouped left body right ih =>
    rw [DrawsAlike, draw, draw]
    have hbody := agree_drawBody hrel options fun inner hinner ↦
      ih inner hinner (h.of_mem_parts (Option.mem_toList.mpr hinner))
    exact hbody.bind fun hmarkup ↦ .ok ⟨hmarkup, rfl, rfl, rfl, rfl⟩
  | matrix left rows right ih =>
    rw [DrawsAlike, draw, draw]
    have hrows := agree_drawRows hrel options fun cells hcells cell hcell ↦
      ih cells hcells cell hcell (h.of_mem_parts (List.mem_flatten_of_mem hcells hcell))
    exact hrows.bind fun hmarkup ↦
      .ok (Drawing.alike_fence hrel _ _ (hrel.element .mtable [] hmarkup))
  | unary operator operand ih =>
    have hoperand := inSlot_of_placed hrel options hplaces h .operand (by simp [placed]) rfl ih
    rw [DrawsAlike, draw, draw]
    exact Drawing.agree_ofUnary hrel options operator hplaces hoperand
  | binary operator first second ihfirst ihsecond =>
    have hfirst := inSlot_of_placed hrel options hplaces h .operand (by simp [placed]) rfl ihfirst
    have hsecond := inSlot_of_placed hrel options hplaces h .operand (by simp [placed]) rfl ihsecond
    rw [DrawsAlike, draw, draw]
    exact Drawing.agree_ofBinary hrel options operator first.color? hfirst hsecond
  | infixOp operator first second ihfirst ihsecond =>
    have hfirst := inSlot_of_placed hrel options hplaces h .term (by simp [placed]) rfl ihfirst
    have hsecond := inSlot_of_placed hrel options hplaces h .term (by simp [placed]) rfl ihsecond
    rw [DrawsAlike, draw, draw]
    exact Drawing.agree_ofInfix hrel options operator hfirst hsecond
  | sub base script ihbase ihscript =>
    have hbase := inSlot_of_placed hrel options hplaces h .base (by simp [placed]) rfl ihbase
    have hscript := inSlot_of_placed hrel options hplaces h .script (by simp [placed]) rfl ihscript
    rw [DrawsAlike, draw, draw]
    exact hbase.bind fun hbase ↦ hscript.bind fun hscript ↦
      .ok (Drawing.alike_scripted hrel .msub hbase (.some hscript) .none)
  | sup base script ihbase ihscript =>
    have hbase := inSlot_of_placed hrel options hplaces h .base (by simp [placed]) rfl ihbase
    have hscript := inSlot_of_placed hrel options hplaces h .script (by simp [placed]) rfl ihscript
    rw [DrawsAlike, draw, draw]
    exact hbase.bind fun hbase ↦ hscript.bind fun hscript ↦
      .ok (Drawing.alike_scripted hrel .msup hbase .none (.some hscript))
  | subSup base lower upper ihbase ihlower ihupper =>
    have hbase := inSlot_of_placed hrel options hplaces h .base (by simp [placed]) rfl ihbase
    have hlower := inSlot_of_placed hrel options hplaces h .script (by simp [placed]) rfl ihlower
    have hupper := inSlot_of_placed hrel options hplaces h .script (by simp [placed]) rfl ihupper
    rw [DrawsAlike, draw, draw]
    exact hbase.bind fun hbase ↦ hlower.bind fun hlower ↦ hupper.bind fun hupper ↦
      .ok (Drawing.alike_scripted hrel .msubsup hbase (.some hlower) (.some hupper))

/-- The same of the one element that a formula is drawn as. -/
theorem agree_markup (hplaces : Drawing.PlacesAlike rel mode mode' runs) {formula : Formula}
    (h : Everywhere (SlotSequences fun _ ↦ runs) formula) :
    Agree (fun markup markup' ↦ rel [markup] [markup'])
      (formula.markup { options with rowMode := mode })
      (formula.markup { options with rowMode := mode' }) :=
  (agree_draw hrel options hplaces h).bind fun hdrawing ↦ .ok (hrel.element .math _ hdrawing.markup)

end Formula

/-! ## Without the rows -/

namespace Markup

theorem congruence_bare (nonAscii : Bool) :
    Congruence fun list list' ↦ bare nonAscii list = bare nonAscii list' where
  refl _ := rfl
  append hlist hmore := by rw [bare_append, bare_append, hlist, hmore]
  element tag attributes _ _ h := by rw [bare_element, bare_element, h]

/-- A row around a formula leaves what the formula leaves. -/
theorem bare_place (nonAscii : Bool) (mode : RowMode) (drawing : Drawing) :
    bare nonAscii (drawing.place mode) = bare nonAscii drawing.markup := by
  unfold Drawing.place
  split
  · rfl
  · split
    · exact bare_mrow nonAscii drawing.markup
    · rfl
  · exact bare_mrow nonAscii drawing.markup

theorem placesAlike_bare (nonAscii : Bool) (mode mode' : RowMode) :
    Drawing.PlacesAlike (fun list list' ↦ bare nonAscii list = bare nonAscii list') mode mode'
      True := by
  intro _ _ _ h _
  rw [bare_place, bare_place, h.markup]

end Markup

namespace Formula

/-- Without its rows, what is written does not depend on the row mode. -/
theorem render_withoutRows (options : Options) (mode mode' : RowMode) (tree : Option Formula) :
    (render { options with rowMode := mode } tree).map
        (fun output ↦ Markup.withoutRows output.toList) =
      (render { options with rowMode := mode' } tree).map
        (fun output ↦ Markup.withoutRows output.toList) := by
  cases tree with
  | none => rfl
  | some formula =>
    have hmarkup := agree_markup (Markup.congruence_bare options.escapeNonAscii) options
      (Markup.placesAlike_bare options.escapeNonAscii mode mode')
      (everywhere_slotSequences_true formula)
    have houtput : Agree
        (fun output output' ↦
          Markup.withoutRows output.toList = Markup.withoutRows output'.toList)
        (render { options with rowMode := mode } (some formula))
        (render { options with rowMode := mode' } (some formula)) := by
      rw [render_some, render_some]
      exact hmarkup.map fun h ↦ by rwa [Markup.withoutRows_write, Markup.withoutRows_write]
    exact (houtput.map id).eq

end Formula

/-! ## Without bars -/

theorem Markup.congruence_eq : Congruence Eq where
  refl _ := rfl
  append hlist hmore := by rw [hlist, hmore]
  element _ _ _ _ h := by rw [h]

/-- Only a run is put into a row where rows are avoided. -/
theorem Drawing.placesAlike_eq : PlacesAlike Eq .omit .avoid False := by
  intro run drawing drawing' h hrun
  have hsingle : drawing'.isRun = false := h.isRun'.trans (Bool.eq_false_iff.mpr hrun)
  rw [place, place, if_neg (Bool.eq_false_iff.mp hsingle)]
  exact h.markup

theorem Formula.render_omit_eq_render_avoid (options : Options) {tree : Option Formula}
    (h : ∀ formula ∈ tree, Everywhere (SlotSequences fun _ ↦ False) formula) :
    render { options with rowMode := .omit } tree =
      render { options with rowMode := .avoid } tree := by
  cases tree with
  | none => rfl
  | some formula =>
    have hmarkup := agree_markup Markup.congruence_eq options Drawing.placesAlike_eq
      (h formula rfl)
    rw [render_some, render_some, (hmarkup.mono List.singleton_inj.mp).eq]

open Formula Reading

/-- Each input is drawn from a formula in which a sequence stands in a slot only if it begins with a
bar. Without bars in the input it is drawn alike whether rows are omitted or avoided. -/
theorem convertIn_omit_eq_convertIn_avoid (τ : Type) [KeyTree τ Entry] [LawfulKeyTree τ]
    (options : Options) (input : String) :
    ∃ tree, Formula.ofStringIn τ input = .ok tree ∧
      (∀ formula ∈ tree, Everywhere
        (SlotSequences (IsBarred (Lexer.ofString (Symbol.standardIn τ) input).tokens)) formula) ∧
      ((∀ token ∈ (Lexer.ofString (Symbol.standardIn τ) input).tokens, token.kind ≠ .bar) →
        ∃ output, convertIn τ { options with rowMode := .omit } input = .ok output ∧
          convertIn τ { options with rowMode := .avoid } input = .ok output) := by
  obtain ⟨tree, rest, htree, hreads⟩ := (Lexer.ofString (Symbol.standardIn τ) input).exists_read
  have hbarred := hreads.slotSequences_isBarred
  rw [Lexer.tokens_eq_stream (Symbol.neverEnds_standardIn τ)]
  refine ⟨tree, htree, hbarred, fun hbars ↦ ?_⟩
  obtain ⟨drawn, hdrawn, hdrawable⟩ := exists_drawable τ input
  obtain ⟨output, houtput⟩ := exists_render { options with rowMode := .avoid } hdrawable
  rw [← convertIn_eq_render _ hdrawn] at houtput
  refine ⟨output, ?_, houtput⟩
  have hnone : ∀ formula ∈ tree, Everywhere (SlotSequences fun _ ↦ False) formula := by
    intro formula hmem
    refine (hbarred formula hmem).mono fun other ↦ SlotSequences.mono ?_
    rintro part ⟨bar, hbar, hkind, -⟩
    exact hbars bar hbar hkind
  calc convertIn τ { options with rowMode := .omit } input
    _ = render { options with rowMode := .omit } tree := convertIn_eq_render _ htree
    _ = render { options with rowMode := .avoid } tree := render_omit_eq_render_avoid options hnone
    _ = convertIn τ { options with rowMode := .avoid } input := (convertIn_eq_render _ htree).symm
    _ = .ok output := houtput

/-- A sequence stands in brackets that are dropped above a fraction bar. -/
theorem convertIn_omit_eq_convertIn_avoid_fraction :
    (∀ token ∈ (Lexer.ofString Symbol.standard "(a b)/2").tokens, token.kind ≠ .bar) ∧
      ∃ output, convert { rowMode := .omit } "(a b)/2" = .ok output ∧
        convert { rowMode := .avoid } "(a b)/2" = .ok output := by
  have hbars : ∀ token ∈ (Lexer.ofString Symbol.standard "(a b)/2").tokens,
      token.kind ≠ .bar := by
    decide +kernel
  obtain ⟨_, -, -, hconvert⟩ :=
    convertIn_omit_eq_convertIn_avoid (ByteTree Entry) {} "(a b)/2"
  exact ⟨hbars, hconvert hbars⟩

end FormulaMarkup
