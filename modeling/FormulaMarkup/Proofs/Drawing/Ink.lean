import FormulaMarkup.Proofs.Drawing.Total
import FormulaMarkup.Proofs.Markup.Contents
import FormulaMarkup.Proofs.Reading.Conservation

/-!
# Numbers and texts are drawn once each

The leaves for numbers and for texts that come of a formula hold what its marks say
(`Mark.ink`): the text of a number or of a quotation, and a word for the symbols that are drawn as
one. Rows, fences, fractions and scripts neither drop a text nor show one twice, in no row mode, and
no operator or delimiter shows a text of its own.

The texts come in the order of the marks, except that a root, and a mark over or under its base, is
drawn behind the second operand. So the texts are compared by a relation (`Arranges`), which has to
allow two texts to change places only where such an operator occurs (`Legible`).
-/

namespace FormulaMarkup

/-- The word that a symbol is drawn as. -/
def Symbol.word? : Symbol → Option String
  | .and => some "and"
  | .or => some "or"
  | _ => none

theorem Symbol.word?_eq_none {symbol : Symbol} (h : symbol.role ≠ .text) :
    symbol.word? = none := by
  unfold word?
  split
  · exact absurd rfl h
  · exact absurd rfl h
  · rfl

theorem Symbol.word?_eq_none_of_ne {symbol : Symbol} (hand : symbol ≠ .and)
    (hor : symbol ≠ .or) : symbol.word? = none := by
  unfold word?
  split
  · exact absurd rfl hand
  · exact absurd rfl hor
  · rfl

/-- What a symbol adds to the texts of a tag. -/
def words (tag : LeafTag) (symbol : Option Symbol) : List String :=
  if tag = .mtext then (symbol.bind Symbol.word?).toList else []

theorem words_eq_nil {symbol : Symbol} (h : symbol.role ≠ .text) (tag : LeafTag) :
    words tag (some symbol) = [] := by
  simp [words, Symbol.word?_eq_none h]

/-- What a mark adds to the texts of a tag. -/
def Mark.ink (tag : LeafTag) (mark : Mark) : List String :=
  match mark.kind with
  | .number => if tag = .mn then [mark.text] else []
  | .text => if tag = .mtext then [mark.text] else []
  | .symbol => words tag mark.symbol
  | _ => []

open Reading in
theorem Mark.conserved_ink (tag : LeafTag) : Conserved (Mark.ink tag) where
  skipped {mark} h := by
    unfold isSkipped at h
    unfold ink
    split at h
    · next hkind => rw [hkind]
    · next hkind => rw [hkind]
    · next hkind => rw [hkind]
    · next hkind => rw [hkind]
    · cases h
  missing {mark} h := by
    obtain ⟨hkind, -⟩ : mark.kind = .identifier ∧ mark.text = "" := by simpa [isMissing] using h
    rw [ink, hkind]
  leaf h text first second := by
    rcases h with rfl | rfl | rfl <;> rfl

namespace Drawing

open Markup

/-- The texts of the leaves of a tag in a drawing. -/
def texts (tag : LeafTag) (drawing : Drawing) : List String := textsOfList tag drawing.markup

variable (tag : LeafTag)

@[simp]
theorem textsOfList_nil : textsOfList tag [] = [] := rfl

@[simp]
theorem textsOfList_append (front rest : List Markup) :
    textsOfList tag (front ++ rest) = textsOfList tag front ++ textsOfList tag rest := by
  induction front with
  | nil => rfl
  | cons markup front ih => simp [textsOfList, ih]

@[simp]
theorem textsOfList_element (other : Tag) (attributes : List Attribute) (children : List Markup) :
    textsOfList tag [.element other attributes children] = textsOfList tag children := by
  simp [textsOfList, Markup.texts]

theorem textsOfList_cons (markup : Markup) (rest : List Markup) :
    textsOfList tag (markup :: rest) = textsOfList tag [markup] ++ textsOfList tag rest :=
  textsOfList_append tag [markup] rest

@[simp]
theorem texts_single_element (other : Tag) (attributes : List Attribute)
    (children : List Markup) :
    (single (.element other attributes children)).texts tag = textsOfList tag children :=
  textsOfList_element tag other attributes children

@[simp]
theorem texts_place (mode : RowMode) (drawing : Drawing) :
    textsOfList tag (drawing.place mode) = drawing.texts tag := by
  unfold place
  split
  · rfl
  · split
    · exact textsOfList_element tag .mrow [] drawing.markup
    · rfl
  · exact textsOfList_element tag .mrow [] drawing.markup

@[simp]
theorem texts_placeMark (mode : RowMode) (drawing : Drawing) :
    textsOfList tag (drawing.placeMark mode) = drawing.texts tag :=
  texts_place tag _ drawing

/-- The texts of a drawing that may be missing. -/
def textsOf (drawing : Option Drawing) : List String :=
  drawing.elim [] (texts tag)

theorem texts_underOver (mode : RowMode) (base : Drawing) (lower upper : Option Drawing) :
    (underOver mode base lower upper).texts tag =
      base.texts tag ++ textsOf tag lower ++ textsOf tag upper := by
  have hchildren : textsOfList tag (base.place mode ++ lower.toList.flatMap (placeMark mode) ++
      upper.toList.flatMap (placeMark mode)) =
        base.texts tag ++ textsOf tag lower ++ textsOf tag upper := by
    cases lower <;> cases upper <;> simp [textsOf]
  rw [← hchildren]
  cases lower with
  | none =>
    cases upper with
    | none => simp [underOver, texts]
    | some upper => exact texts_single_element tag _ _ _
  | some lower => cases upper <;> exact texts_single_element tag _ _ _

theorem texts_scripted (mode : RowMode) (other : Tag) (base : Drawing)
    (lower upper : Option Drawing) :
    (scripted mode other base lower upper).texts tag =
      base.texts tag ++ textsOf tag lower ++ textsOf tag upper := by
  unfold scripted
  split
  · exact texts_underOver tag mode base lower upper
  · cases lower <;> cases upper <;> simp [textsOf]

theorem texts_fraction (mode : RowMode) (above below : Drawing) :
    (fraction mode above below).texts tag = above.texts tag ++ below.texts tag := by
  simp [fraction]

/-! ## Leaves and operators -/

section Operator

variable {tag} (htag : tag = .mn ∨ tag = .mtext)
include htag

theorem texts_ofText (text : String) : (ofText text).texts tag = [] := by
  unfold ofText
  rcases htag with rfl | rfl
  · split
    · split <;> rfl
    · rfl
  · split
    · split <;> rfl
    · rfl

theorem texts_ofGlyph (symbol : Symbol) (straightPhi : Bool) :
    Markup.texts tag (ofGlyph (symbol.appearance straightPhi)) = words tag (some symbol) := by
  rcases htag with rfl | rfl <;> cases symbol <;> rfl

theorem texts_ofSymbol (options : Options) (symbol : Option Symbol) (text : String) :
    (ofSymbol options symbol text).texts tag = words tag symbol := by
  unfold ofSymbol
  cases symbol with
  | none =>
    rw [Options.appearance?, Option.map_none]
    simp [texts_ofText htag, words]
  | some symbol =>
    rw [Options.appearance?, Option.map_some]
    have hglyph : ∀ drawing : Drawing, drawing.texts tag = words tag (some symbol) →
        ({ drawing with
          isAccent := (symbol.appearance options.straightPhi).isAccent
          hasLimits := (symbol.appearance options.straightPhi).hasLimits } : Drawing).texts tag =
            words tag (some symbol) :=
      fun _ h ↦ h
    apply hglyph
    split
    · next hempty =>
      have hrole : symbol.role ≠ .text := by
        rw [← symbol.role_appearance options.straightPhi]
        intro htext
        cases symbol <;> cases htext <;> cases hempty
      rw [texts_ofText htag, words_eq_nil hrole]
    · simpa [texts, single, textsOfList] using texts_ofGlyph htag symbol options.straightPhi

/-- Delimiters are operators. -/
theorem texts_fence (left right : String) (body : List Markup) :
    (fence left right body).texts tag = textsOfList tag body := by
  have hdelimiter : ∀ glyph : String,
      textsOfList tag (if glyph.isEmpty then [] else [Markup.leaf .mo glyph]) = [] := by
    intro glyph
    split
    · rfl
    · rcases htag with rfl | rfl <;> rfl
  unfold fence
  split
  · rfl
  · refine (texts_single_element tag .mrow [] _).trans ?_
    rw [textsOfList_append, textsOfList_append, hdelimiter, hdelimiter, List.nil_append,
      List.append_nil]

variable {options : Options} {operator : Operator} {symbol : Symbol}
  (hsymbol : operator.symbol = some symbol)
include hsymbol

/-- An operator shows its operand and no word of its own. -/
theorem texts_ofUnary (htakes : symbol.role.takesOne = true) {operand drawing : Drawing}
    (h : ofUnary options operator (.ok operand) = .ok drawing) :
    drawing.texts tag = operand.texts tag := by
  have hnone : words tag (some symbol) = [] := by
    apply words_eq_nil
    intro hrole
    rw [hrole] at htakes
    cases htakes
  have hmark : (ofSymbol options (some symbol) operator.text).texts tag = [] :=
    (texts_ofSymbol htag options (some symbol) operator.text).trans hnone
  simp only [ofUnary, hsymbol, Symbol.role_appearance] at h
  cases hrole : symbol.role with
  | identifier | operator =>
    rw [hrole] at h
    cases h
    have hglyph := (texts_ofGlyph htag symbol options.straightPhi).trans hnone
    simp [texts, mrow, single, textsOfList, hglyph]
  | wrap left right =>
    rw [hrole] at h
    cases h
    exact (texts_fence htag left right _).trans (texts_place tag .avoid operand)
  | accent side =>
    rw [hrole] at h
    have hover := texts_underOver tag options.rowMode operand none
      (some (ofSymbol options (some symbol) operator.text))
    have hunder := texts_underOver tag options.rowMode operand
      (some (ofSymbol options (some symbol) operator.text)) none
    simp only [textsOf, Option.elim, hmark, List.append_nil] at hover hunder
    cases side
    · cases h
      exact hover
    · cases h
      exact hunder
  | font | cancel | sqrt =>
    rw [hrole] at h
    cases h
    exact (texts_single_element tag _ _ _).trans (texts_place tag _ operand)
  | _ =>
    rw [hrole] at htakes
    cases htakes

omit htag

/-- Only a fraction shows its operands in their order; a root and a mark over or under the second
operand show that one first. -/
theorem texts_ofBinary (htakes : symbol.role.takesTwo = true) {color : Option Color}
    {first second drawing : Drawing}
    (h : ofBinary options operator color (.ok first) (.ok second) = .ok drawing) :
    drawing.texts tag =
      if symbol.role = .frac then first.texts tag ++ second.texts tag
      else second.texts tag ++ first.texts tag := by
  simp only [ofBinary, hsymbol, Symbol.role_appearance] at h
  rcases Role.eq_of_takesTwo htakes with hrole | hrole | hrole | hrole
  · rw [hrole] at h
    cases h
    simpa [hrole, textsOf] using texts_underOver tag options.rowMode second none (some first)
  · rw [hrole] at h
    cases h
    simpa [hrole, textsOf] using texts_underOver tag options.rowMode second (some first) none
  · rw [hrole] at h
    cases h
    simp [hrole]
  · rw [hrole] at h
    cases h
    simpa [hrole] using texts_fraction tag options.rowMode first second

theorem texts_ofInfix (hrole : symbol.role = .frac) {first second drawing : Drawing}
    (h : ofInfix options operator (.ok first) (.ok second) = .ok drawing) :
    drawing.texts tag = first.texts tag ++ second.texts tag := by
  simp only [ofInfix, hsymbol, Symbol.role_appearance, hrole] at h
  cases h
  exact texts_fraction tag options.rowMode first second

end Operator

end Drawing

/-! ## Formulas -/

/-- How the texts that are shown may be arranged compared with those of the marks. -/
structure Arranges (rel : List String → List String → Prop) : Prop where
  refl : ∀ texts, rel texts texts
  trans : ∀ {texts middle more}, rel texts middle → rel middle more → rel texts more
  append : ∀ {front front' rest rest'}, rel front front' → rel rest rest' →
    rel (front ++ rest) (front' ++ rest')

theorem arranges_eq : Arranges Eq where
  refl _ := rfl
  trans := Eq.trans
  append hfront hrest := congrArg₂ _ hfront hrest

theorem arranges_perm : Arranges List.Perm where
  refl := List.Perm.refl
  trans := List.Perm.trans
  append := List.Perm.append

/-- Two texts may be shown in either order. -/
def Swaps (rel : List String → List String → Prop) : Prop :=
  ∀ front rest : List String, rel (front ++ rest) (rest ++ front)

namespace Mark

def IsDelimiter (mark : Mark) : Prop :=
  mark.kind = .opening ∨ mark.kind = .closing ∨ mark.kind = .bar

/-- What the mark shows depends on its symbol only. -/
def IsSymbolic (mark : Mark) : Prop :=
  mark.kind ≠ .number ∧ mark.kind ≠ .text ∧
    (mark.kind ≠ .symbol → mark.symbol.bind Symbol.word? = none)

theorem IsDelimiter.ink_eq {mark : Mark} (h : mark.IsDelimiter) (tag : LeafTag) :
    mark.ink tag = [] := by
  unfold ink
  rcases h with hkind | hkind | hkind <;> rw [hkind]

theorem IsSymbolic.ink_eq {mark : Mark} (h : mark.IsSymbolic) (tag : LeafTag) :
    mark.ink tag = words tag mark.symbol := by
  obtain ⟨hnumber, htext, hword⟩ := h
  unfold ink
  split
  · next hkind => exact absurd hkind hnumber
  · next hkind => exact absurd hkind htext
  · rfl
  · next hsymbol => simp [words, hword hsymbol]

end Mark

namespace Formula

open Drawing Markup

/-- The marks of the formula itself are drawn as what they are, and its operands may be shown in the
order in which they are drawn. -/
def Legible (rel : List String → List String → Prop) : Formula → Prop
  | symbol mark => mark.IsSymbolic
  | bracketed left _ right | grouped left _ right =>
    (∀ mark ∈ left, mark.IsDelimiter) ∧ ∀ mark ∈ right, mark.IsDelimiter
  | matrix left _ right => left.IsDelimiter ∧ right.IsDelimiter
  | unary operator _ => ∃ symbol, operator.symbol = some symbol ∧ symbol.role.takesOne = true
  | binary operator _ _ => ∃ symbol, operator.symbol = some symbol ∧
      symbol.role.takesTwo = true ∧ (symbol.role = .frac ∨ Swaps rel)
  | infixOp operator _ _ => ∃ symbol, operator.symbol = some symbol ∧ symbol.role = .frac
  | _ => True

/-- Delimiters and operators show nothing themselves. -/
theorem ink_between {left right : Option Mark} (hleft : ∀ mark ∈ left, mark.IsDelimiter)
    (hright : ∀ mark ∈ right, mark.IsDelimiter) (tag : LeafTag) (inner : List Mark) :
    (left.toList ++ inner ++ right.toList).flatMap (Mark.ink tag) =
      inner.flatMap (Mark.ink tag) := by
  have hdelimiter : ∀ {mark : Option Mark}, (∀ delimiter ∈ mark, delimiter.IsDelimiter) →
      mark.toList.flatMap (Mark.ink tag) = [] := by
    intro mark h
    cases mark with
    | none => rfl
    | some mark => exact (List.flatMap_singleton _ mark).trans ((h mark rfl).ink_eq tag)
  rw [List.flatMap_append, List.flatMap_append, hdelimiter hleft, hdelimiter hright,
    List.nil_append, List.append_nil]

theorem ink_operator (operator : Operator) (arity : Arity) (tag : LeafTag) :
    (operator.mark arity).ink tag = [] := by
  cases arity <;> rfl

/-- The formula has a drawing with the texts of its marks. -/
def Shows (options : Options) (tag : LeafTag) (rel : List String → List String → Prop)
    (formula : Formula) : Prop :=
  ∃ drawing, formula.draw options = .ok drawing ∧
    rel (drawing.texts tag) (formula.marks.flatMap (Mark.ink tag))

variable {options : Options} {tag : LeafTag} {rel : List String → List String → Prop}

section Parts

variable (hrel : Arranges rel)
include hrel

theorem shows_drawItems {items : List Formula} (h : ∀ item ∈ items, item.Shows options tag rel) :
    ∃ markup, drawItems options items = .ok markup ∧
      rel (textsOfList tag markup) ((marksOfList items).flatMap (Mark.ink tag)) := by
  induction items with
  | nil => exact ⟨[], by rw [drawItems], hrel.refl []⟩
  | cons item rest ih =>
    rw [List.forall_mem_cons] at h
    obtain ⟨drawing, hdrawing, htexts⟩ := h.1
    obtain ⟨markup, hmarkup, hrest⟩ := ih h.2
    refine ⟨drawing.place .avoid ++ markup, ?_, ?_⟩
    · rw [drawItems, hdrawing, hmarkup]
      rfl
    · rw [textsOfList_append, texts_place, marksOfList_cons, List.flatMap_append]
      exact hrel.append htexts hrest

theorem shows_drawBody {body : Option Formula}
    (h : ∀ formula ∈ body, formula.Shows options tag rel) :
    ∃ markup, drawBody options body = .ok markup ∧
      rel (textsOfList tag markup) ((marksOfBody body).flatMap (Mark.ink tag)) := by
  cases body with
  | none => exact ⟨[], by rw [drawBody], hrel.refl []⟩
  | some formula =>
    obtain ⟨drawing, hdrawing, htexts⟩ := h formula rfl
    refine ⟨drawing.place .avoid, ?_, ?_⟩
    · rw [drawBody, hdrawing]
      rfl
    · rw [texts_place]
      exact htexts

theorem shows_drawCells {cells : List Formula} (h : ∀ cell ∈ cells, cell.Shows options tag rel) :
    ∃ markup, drawCells options cells = .ok markup ∧
      rel (textsOfList tag markup) ((marksOfList cells).flatMap (Mark.ink tag)) := by
  induction cells with
  | nil => exact ⟨[], by rw [drawCells], hrel.refl []⟩
  | cons cell rest ih =>
    rw [List.forall_mem_cons] at h
    obtain ⟨drawing, hdrawing, htexts⟩ := h.1
    obtain ⟨markup, hmarkup, hrest⟩ := ih h.2
    refine ⟨.element .mtd [] (drawing.place .avoid) :: markup, ?_, ?_⟩
    · rw [drawCells, hdrawing, hmarkup]
      rfl
    · rw [textsOfList_cons, textsOfList_element, texts_place, marksOfList_cons,
        List.flatMap_append]
      exact hrel.append htexts hrest

theorem shows_drawRows {rows : List (List Formula)}
    (h : ∀ cells ∈ rows, ∀ cell ∈ cells, cell.Shows options tag rel) :
    ∃ markup, drawRows options rows = .ok markup ∧
      rel (textsOfList tag markup) ((marksOfRows rows).flatMap (Mark.ink tag)) := by
  induction rows with
  | nil => exact ⟨[], by rw [drawRows], hrel.refl []⟩
  | cons cells rest ih =>
    rw [List.forall_mem_cons] at h
    obtain ⟨row, hrow, htexts⟩ := shows_drawCells hrel h.1
    obtain ⟨markup, hmarkup, hrest⟩ := ih h.2
    refine ⟨.element .mtr [] row :: markup, ?_, ?_⟩
    · rw [drawRows, hrow, hmarkup]
      rfl
    · rw [textsOfList_cons, textsOfList_element, marksOfRows_cons, List.flatMap_append]
      exact hrel.append htexts hrest

theorem shows_matrix (htag : tag = .mn ∨ tag = .mtext) {left right : Mark}
    (hleft : left.IsDelimiter) (hright : right.IsDelimiter) {rows : List (List Formula)}
    (h : ∀ cells ∈ rows, ∀ cell ∈ cells, cell.Shows options tag rel) :
    (matrix left rows right).Shows options tag rel := by
  obtain ⟨markup, hmarkup, htexts⟩ := shows_drawRows hrel h
  have hink := ink_between (Reading.forall_mem_some hleft) (Reading.forall_mem_some hright) tag
    (marksOfRows rows)
  refine ⟨_, by rw [draw, hmarkup]; rfl, ?_⟩
  rw [texts_fence htag, textsOfList_element, marks_matrix]
  exact hink ▸ htexts

theorem shows_binary {operator : Operator} {symbol : Symbol} {first second : Formula}
    (hsymbol : operator.symbol = some symbol) (htakes : symbol.role.takesTwo = true)
    (hswaps : symbol.role = .frac ∨ Swaps rel) (hfirst : first.Shows options tag rel)
    (hsecond : second.Shows options tag rel) :
    (binary operator first second).Shows options tag rel := by
  obtain ⟨left, hleft, hfirst⟩ := hfirst
  obtain ⟨right, hright, hsecond⟩ := hsecond
  have hall : ∀ other ∈ operator.symbol, other.role.takesTwo = true ∨
      other.role = .color ∧ first.color?.isSome = true := by
    rw [hsymbol]
    rintro _ ⟨⟩
    exact .inl htakes
  obtain ⟨whole, hwhole⟩ := Drawing.exists_ofBinary options hall left right
  refine ⟨whole, by rw [draw, hleft, hright, hwhole], ?_⟩
  rw [texts_ofBinary hsymbol htakes hwhole, marks_binary, List.cons_append, List.flatMap_cons,
    ink_operator, List.nil_append, List.flatMap_append]
  split
  · exact hrel.append hfirst hsecond
  · next hrole => exact hrel.trans (hrel.append hsecond hfirst) (hswaps.resolve_left hrole _ _)

theorem shows_infixOp {operator : Operator} {symbol : Symbol} {first second : Formula}
    (hsymbol : operator.symbol = some symbol) (hrole : symbol.role = .frac)
    (hfirst : first.Shows options tag rel) (hsecond : second.Shows options tag rel) :
    (infixOp operator first second).Shows options tag rel := by
  obtain ⟨left, hleft, hfirst⟩ := hfirst
  obtain ⟨right, hright, hsecond⟩ := hsecond
  have hall : ∀ other ∈ operator.symbol, other.role = .frac := by
    rw [hsymbol]
    rintro _ ⟨⟩
    exact hrole
  obtain ⟨whole, hwhole⟩ := Drawing.exists_ofInfix options hall left right
  refine ⟨whole, by rw [draw, hleft, hright, hwhole], ?_⟩
  rw [texts_ofInfix hsymbol hrole hwhole, marks_infixOp, List.flatMap_append, List.flatMap_cons,
    ink_operator, List.nil_append]
  exact hrel.append hfirst hsecond

omit hrel

theorem shows_unary (htag : tag = .mn ∨ tag = .mtext) {operator : Operator} {symbol : Symbol}
    {operand : Formula} (hsymbol : operator.symbol = some symbol)
    (htakes : symbol.role.takesOne = true) (h : operand.Shows options tag rel) :
    (unary operator operand).Shows options tag rel := by
  obtain ⟨drawing, hdrawing, htexts⟩ := h
  have hall : ∀ other ∈ operator.symbol, other.role.takesOne = true := by
    rw [hsymbol]
    rintro _ ⟨⟩
    exact htakes
  obtain ⟨whole, hwhole⟩ := Drawing.exists_ofUnary options hall drawing
  refine ⟨whole, by rw [draw, hdrawing, hwhole], ?_⟩
  rw [texts_ofUnary htag hsymbol htakes hwhole, marks_unary, List.flatMap_cons, ink_operator]
  exact htexts

end Parts

/-- A legible formula shows the texts of its marks. -/
theorem Everywhere.shows (hrel : Arranges rel) (htag : tag = .mn ∨ tag = .mtext)
    {formula : Formula} (h : Everywhere (Legible rel) formula) :
    formula.Shows options tag rel := by
  induction h with
  | @intro formula here within ih =>
    cases formula with
    | empty | color =>
      refine ⟨_, by rw [draw], ?_⟩
      exact hrel.refl []
    | number | text =>
      refine ⟨_, by rw [draw], ?_⟩
      rcases htag with rfl | rfl <;> exact hrel.refl _
    | identifier written =>
      refine ⟨_, by rw [draw], ?_⟩
      rw [texts_ofText htag]
      exact hrel.refl []
    | symbol mark =>
      refine ⟨_, by rw [draw], ?_⟩
      rw [texts_ofSymbol htag, marks_symbol, List.flatMap_singleton, here.ink_eq]
      exact hrel.refl _
    | sequence items =>
      have hitems : ∀ item ∈ items, item.Shows options tag rel := ih
      obtain ⟨markup, hmarkup, htexts⟩ := shows_drawItems hrel hitems
      refine ⟨_, by rw [draw, hmarkup]; rfl, ?_⟩
      exact htexts
    | bracketed left body right =>
      have hbody : ∀ inner ∈ body, inner.Shows options tag rel :=
        fun inner hmem ↦ ih inner (Option.mem_toList.mpr hmem)
      obtain ⟨markup, hmarkup, htexts⟩ := shows_drawBody hrel hbody
      refine ⟨_, by rw [draw, hmarkup]; rfl, ?_⟩
      rw [texts_fence htag, marks_bracketed, ink_between here.1 here.2]
      exact htexts
    | grouped left body right =>
      have hbody : ∀ inner ∈ body, inner.Shows options tag rel :=
        fun inner hmem ↦ ih inner (Option.mem_toList.mpr hmem)
      obtain ⟨markup, hmarkup, htexts⟩ := shows_drawBody hrel hbody
      refine ⟨_, by rw [draw, hmarkup]; rfl, ?_⟩
      rw [marks_grouped, ink_between here.1 here.2]
      exact htexts
    | matrix left rows right =>
      exact shows_matrix hrel htag here.1 here.2 fun cells hcells cell hcell ↦
        ih cell (List.mem_flatten_of_mem hcells hcell)
    | unary operator operand =>
      obtain ⟨symbol, hsymbol, htakes⟩ := here
      exact shows_unary htag hsymbol htakes (ih operand (by simp [parts]))
    | binary operator first second =>
      obtain ⟨symbol, hsymbol, htakes, hswaps⟩ := here
      exact shows_binary hrel hsymbol htakes hswaps (ih first (by simp [parts]))
        (ih second (by simp [parts]))
    | infixOp operator first second =>
      obtain ⟨symbol, hsymbol, hrole⟩ := here
      exact shows_infixOp hrel hsymbol hrole (ih first (by simp [parts]))
        (ih second (by simp [parts]))
    | sub base script =>
      obtain ⟨below, hbelow, htexts⟩ := ih base (by simp [parts])
      obtain ⟨lower, hlower, hscript⟩ := ih script (by simp [parts])
      refine ⟨_, by rw [draw, hbelow, hlower]; rfl, ?_⟩
      rw [texts_scripted, marks_sub, List.flatMap_append]
      simpa [textsOf] using hrel.append htexts hscript
    | sup base script =>
      obtain ⟨below, hbelow, htexts⟩ := ih base (by simp [parts])
      obtain ⟨upper, hupper, hscript⟩ := ih script (by simp [parts])
      refine ⟨_, by rw [draw, hbelow, hupper]; rfl, ?_⟩
      rw [texts_scripted, marks_sup, List.flatMap_append]
      simpa [textsOf] using hrel.append htexts hscript
    | subSup base lower upper =>
      obtain ⟨middle, hmiddle, htexts⟩ := ih base (by simp [parts])
      obtain ⟨below, hbelow, hlower⟩ := ih lower (by simp [parts])
      obtain ⟨above, habove, hupper⟩ := ih upper (by simp [parts])
      refine ⟨_, by rw [draw, hmiddle, hbelow, habove]; rfl, ?_⟩
      rw [texts_scripted, marks_subSup, List.flatMap_append, List.flatMap_append]
      exact hrel.append (hrel.append htexts hlower) hupper

end Formula

end FormulaMarkup
