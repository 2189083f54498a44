import FormulaMarkup.Proofs.Drawing.Total

/-!
# Drawings with a fixed number of children

Some elements must have a fixed number of children (`Tag.childCount?`). A drawing either is such an
element, with a slot for each of its children (`Drawing.Holds`), or it only surrounds the drawings
of its parts with elements that may have any number of them (`Drawing.Frames`). The operations on
drawings are sorted here into these two, whatever the row mode is.

What is asked of the elements with a fixed number of children is left open (`Tag.Counts`). It may be
what they lack (`Tag.Lacks`): if any number is tolerated the elements do not have too many children,
and if only none is they have them all.
-/

namespace FormulaMarkup

/-- The number of children of an element that must have a fixed number of them. -/
def Tag.childCount? : Tag → Option Nat
  | mfrac | mroot | msub | msup | munder | mover => some 2
  | msubsup | munderover => some 3
  | math | mrow | msqrt | mtable | mtr | mtd | mstyle | menclose => none

/-- Are the children behind the first one marks over or under it? -/
def Tag.hasMarks : Tag → Bool
  | munder | mover | munderover => true
  | _ => false

/-- The property asks something only of elements that must have a fixed number of children. -/
def Tag.Counts (property : Tag → List Markup → Prop) : Prop :=
  ∀ tag children, tag.childCount? = none → property tag children

/-- An element that must have a fixed number of children lacks a tolerated number of them. -/
def Tag.Lacks (tolerated : Nat → Prop) (tag : Tag) (children : List Markup) : Prop :=
  ∀ count ∈ tag.childCount?, ∃ lacking, children.length + lacking = count ∧ tolerated lacking

/-- An element that must have a fixed number of children has all of them. -/
def Tag.IsComplete (tag : Tag) (children : List Markup) : Prop :=
  ∀ count ∈ tag.childCount?, children.length = count

theorem Tag.counts_lacks (tolerated : Nat → Prop) : Counts (Lacks tolerated) := by
  intro tag children htag
  simp [Lacks, htag]

theorem Tag.lacks_true_iff (tag : Tag) (children : List Markup) :
    tag.Lacks (fun _ ↦ True) children ↔ ∀ count ∈ tag.childCount?, children.length ≤ count := by
  refine forall_congr' fun count ↦ forall_congr' fun _ ↦ ?_
  constructor
  · rintro ⟨lacking, rfl, -⟩
    exact Nat.le_add_right _ lacking
  · exact fun h ↦ ⟨count - children.length, Nat.add_sub_cancel' h, trivial⟩

theorem Tag.lacks_zero_iff (tag : Tag) (children : List Markup) :
    tag.Lacks (· = 0) children ↔ tag.IsComplete children := by
  simp [Lacks, IsComplete]

namespace Markup

/-- The property holds of the name and the children of each element at every depth. -/
inductive Elements (property : Tag → List Markup → Prop) : Markup → Prop
  | leaf {tag text} : Elements property (leaf tag text)
  | element {tag attributes children} (here : property tag children)
      (within : ∀ child ∈ children, Elements property child) :
      Elements property (element tag attributes children)

variable {property weaker : Tag → List Markup → Prop} {tag : Tag} {attributes : List Attribute}
  {children : List Markup}

theorem elements_element_iff : (element tag attributes children).Elements property ↔
    property tag children ∧ ∀ child ∈ children, child.Elements property := by
  constructor
  · intro h
    cases h with
    | element here within => exact ⟨here, within⟩
  · exact fun h ↦ .element h.1 h.2

theorem Elements.mono (hweaker : ∀ tag children, property tag children → weaker tag children)
    {markup : Markup} (h : markup.Elements property) : markup.Elements weaker := by
  induction h with
  | leaf => exact .leaf
  | element here within ih => exact .element (hweaker _ _ here) ih

theorem elements_congr (hsame : ∀ tag children, property tag children ↔ weaker tag children)
    (markup : Markup) : markup.Elements property ↔ markup.Elements weaker :=
  ⟨.mono fun tag children ↦ (hsame tag children).mp,
    .mono fun tag children ↦ (hsame tag children).mpr⟩

end Markup

/-- A symbol that wraps its operand has a bracket to do so. -/
theorem Symbol.left_ne_empty_of_wrap {symbol : Symbol} {left right : String}
    (h : symbol.role = .wrap left right) : left.isEmpty = false := by
  cases symbol <;> cases h <;> rfl

/-! ## What is around the drawings of the parts -/

namespace Drawing

/-- The property holds of the elements of the drawing. -/
def Elements (property : Tag → List Markup → Prop) (drawing : Drawing) : Prop :=
  ∀ markup ∈ drawing.markup, markup.Elements property

/-- The elements of the drawing lack tolerated numbers of children. -/
def Lacks (tolerated : Nat → Prop) : Drawing → Prop := Elements (Tag.Lacks tolerated)

/-- Around the drawings of the parts there are no elements with a fixed number of children. -/
def Frames (markup : List Markup) (parts : List Drawing) : Prop :=
  ∀ property, Tag.Counts property →
    ((∀ item ∈ markup, item.Elements property) ↔ ∀ part ∈ parts, part.Elements property)

/-- The children of an element in whose slots the drawings are, first its base. -/
def slotted (mode : RowMode) (tag : Tag) : List Drawing → List Markup
  | [] => []
  | base :: rest =>
    base.place mode ++ rest.flatMap (if tag.hasMarks then placeMark mode else place mode)

/-- The drawing is one element, which must have a child for each of the slots. -/
def Holds (mode : RowMode) (drawing : Drawing) (slots : List Drawing) : Prop :=
  ∃ tag attributes, tag.childCount? = some slots.length ∧ drawing.isRun = false ∧
    drawing.markup = [.element tag attributes (slotted mode tag slots)]

variable {options : Options} {operator : Operator} {symbol : Symbol} {tag : Tag} {mode : RowMode}
  {drawing operand first second : Drawing} {parts slots : List Drawing} {markup : List Markup}

theorem frames_nil : Frames [] [] := by simp [Frames]

theorem frames_leaf (tag : LeafTag) (text : String) : Frames [.leaf tag text] [] := by
  intro property _
  rw [List.forall_mem_singleton]
  exact iff_of_true .leaf (by simp)

theorem Frames.append {more : List Markup} {rest : List Drawing} (h : Frames markup parts)
    (hmore : Frames more rest) : Frames (markup ++ more) (parts ++ rest) := by
  intro property hcounts
  rw [List.forall_mem_append, List.forall_mem_append, h property hcounts, hmore property hcounts]

theorem Frames.element (h : Frames markup parts) (htag : tag.childCount? = none)
    (attributes : List Attribute) : Frames [.element tag attributes markup] parts := by
  intro property hcounts
  rw [List.forall_mem_singleton, Markup.elements_element_iff,
    and_iff_right (hcounts tag markup htag), h property hcounts]

theorem exists_ofGlyph (appearance : Appearance) :
    ∃ tag, ofGlyph appearance = .leaf tag appearance.glyph := by
  unfold ofGlyph
  split <;> exact ⟨_, rfl⟩

theorem frames_place (mode : RowMode) (drawing : Drawing) :
    Frames (drawing.place mode) [drawing] := by
  have hmarkup : Frames drawing.markup [drawing] := by
    intro property _
    rw [List.forall_mem_singleton]
    rfl
  unfold place
  split
  · exact hmarkup
  · split
    · exact hmarkup.element rfl []
    · exact hmarkup
  · exact hmarkup.element rfl []

theorem frames_flatMap {placed : Drawing → List Markup} (h : ∀ part, Frames (placed part) [part])
    (parts : List Drawing) : Frames (parts.flatMap placed) parts := by
  induction parts with
  | nil => exact frames_nil
  | cons part rest ih => exact (h part).append ih

theorem frames_places (parts : List Drawing) : Frames (parts.flatMap (place .avoid)) parts :=
  frames_flatMap (frames_place .avoid) parts

theorem frames_slotted (mode : RowMode) (tag : Tag) (slots : List Drawing) :
    Frames (slotted mode tag slots) slots := by
  cases slots with
  | nil => exact frames_nil
  | cons base rest =>
    apply (frames_place mode base).append
    split
    · exact frames_flatMap (fun mark ↦ frames_place _ mark) rest
    · exact frames_flatMap (frames_place mode) rest

/-- Where rows are avoided, marks are placed like other slots. -/
theorem slotted_avoid (tag : Tag) (slots : List Drawing) :
    slotted .avoid tag slots = slots.flatMap (place .avoid) := by
  have hmark : placeMark .avoid = place .avoid := by
    funext mark
    rw [placeMark, ite_self]
  cases slots with
  | nil => rfl
  | cons base rest => rw [slotted, hmark, ite_self, List.flatMap_cons]

theorem Frames.fence (h : Frames markup parts) (left right : String) :
    Frames (fence left right markup).markup parts := by
  have hdelimiter : ∀ glyph : String,
      Frames (if glyph.isEmpty then [] else [Markup.leaf .mo glyph]) [] := by
    intro glyph
    split
    · exact frames_nil
    · exact frames_leaf .mo glyph
  unfold Drawing.fence
  split
  · exact h
  · have hbody := ((hdelimiter left).append h).append (hdelimiter right)
    rw [List.nil_append, List.append_nil] at hbody
    exact hbody.element rfl []

theorem length_place_fence (left right : String) (markup : List Markup) :
    ((fence left right markup).place .avoid).length =
      if left.isEmpty && right.isEmpty then markup.length else 1 := by
  unfold fence
  split <;> rfl

theorem Holds.length_place (h : drawing.Holds mode slots) :
    (drawing.place .avoid).length = 1 := by
  obtain ⟨tag, attributes, -, hrun, hmarkup⟩ := h
  simp [place, hrun, hmarkup]

/-- The element lacks as many children as there are slots in which nothing is drawn. -/
theorem Holds.lacks_iff (h : drawing.Holds .avoid slots) {tolerated : Nat → Prop} {blanks : Nat}
    (hblanks : (slots.flatMap (place .avoid)).length + blanks = slots.length) :
    drawing.Lacks tolerated ↔ tolerated blanks ∧ ∀ slot ∈ slots, slot.Lacks tolerated := by
  obtain ⟨tag, attributes, htag, -, hmarkup⟩ := h
  have here : Tag.Lacks tolerated tag (slotted .avoid tag slots) ↔ tolerated blanks := by
    simp only [Tag.Lacks, htag, Option.mem_some_iff, forall_eq', slotted_avoid]
    constructor
    · rintro ⟨lacking, hlacking, htolerated⟩
      obtain rfl : lacking = blanks := by omega
      exact htolerated
    · exact fun htolerated ↦ ⟨blanks, hblanks, htolerated⟩
  rw [Lacks, Elements, hmarkup, List.forall_mem_singleton, Markup.elements_element_iff, here,
    frames_slotted .avoid tag slots _ (Tag.counts_lacks tolerated)]

theorem holds_single {children : List Markup} (htag : tag.childCount? = some slots.length)
    (hchildren : children = slotted mode tag slots) (attributes : List Attribute) :
    (single (.element tag attributes children)).Holds mode slots :=
  ⟨tag, attributes, htag, rfl, by rw [single, hchildren]⟩

theorem holds_underOver (mode : RowMode) (base : Drawing) {lower upper : Option Drawing}
    (h : lower.isSome = true ∨ upper.isSome = true) :
    (underOver mode base lower upper).Holds mode (base :: (lower.toList ++ upper.toList)) := by
  cases lower with
  | none =>
    cases upper with
    | none => simp at h
    | some upper => exact holds_single rfl (by simp [slotted, Tag.hasMarks]) _
  | some lower =>
    cases upper with
    | none => exact holds_single rfl (by simp [slotted, Tag.hasMarks]) _
    | some upper => exact holds_single rfl (by simp [slotted, Tag.hasMarks]) _

theorem holds_scripted (mode : RowMode) (base : Drawing) {lower upper : Option Drawing}
    (h : lower.isSome = true ∨ upper.isSome = true)
    (htag : tag.childCount? = some (base :: (lower.toList ++ upper.toList)).length)
    (hmarks : tag.hasMarks = false) :
    (scripted mode tag base lower upper).Holds mode (base :: (lower.toList ++ upper.toList)) := by
  unfold scripted
  split
  · exact holds_underOver mode base h
  · exact holds_single htag (by simp [slotted, hmarks]) []

/-- Accents and limits of the drawing as a whole are not seen in it. -/
theorem Holds.annotated (h : drawing.Holds mode slots) (isAccent hasLimits : Bool) :
    { drawing with isAccent := isAccent, hasLimits := hasLimits }.Holds mode slots := h

/-- The drawing is one leaf. -/
def IsLeaf (drawing : Drawing) : Prop :=
  drawing.isRun = false ∧ ∃ tag text, drawing.markup = [.leaf tag text]

theorem isLeaf_single (tag : LeafTag) (text : String) : (single (.leaf tag text)).IsLeaf :=
  ⟨rfl, tag, text, rfl⟩

theorem isLeaf_ofText (text : String) : (ofText text).IsLeaf := by
  unfold ofText
  split
  · split <;> exact isLeaf_single _ _
  · exact isLeaf_single _ _

theorem isLeaf_ofSymbol (options : Options) (symbol : Option Symbol) (text : String) :
    (ofSymbol options symbol text).IsLeaf := by
  unfold ofSymbol
  split
  · next appearance _ =>
    cases hglyph : appearance.glyph.isEmpty with
    | true => exact isLeaf_ofText text
    | false =>
      obtain ⟨tag, hleaf⟩ := exists_ofGlyph appearance
      exact ⟨rfl, tag, _, congrArg ([·]) hleaf⟩
  · exact isLeaf_ofText text

theorem IsLeaf.frames (h : drawing.IsLeaf) : Frames drawing.markup [] := by
  obtain ⟨-, tag, text, hmarkup⟩ := h
  rw [hmarkup]
  exact frames_leaf tag text

theorem IsLeaf.length_place (h : drawing.IsLeaf) : (drawing.place .avoid).length = 1 := by
  obtain ⟨hrun, tag, text, hmarkup⟩ := h
  simp [place, hrun, hmarkup]

/-! ## Operators -/

variable (hsymbol : operator.symbol = some symbol)
include hsymbol

theorem holds_ofUnary {side : Side} (hrole : symbol.role = .accent side)
    (h : ofUnary options operator (.ok operand) = .ok drawing) :
    drawing.Holds options.rowMode [operand, ofSymbol options operator.symbol operator.text] := by
  simp only [ofUnary, hsymbol, Symbol.role_appearance, hrole] at h
  rw [hsymbol]
  cases side
  all_goals
    cases h
    exact (holds_underOver options.rowMode operand (by simp)).annotated _ _

/-- Without an accent, there is one element around the operand. -/
theorem frames_ofUnary (hrole : ∀ side, symbol.role ≠ .accent side)
    (h : ofUnary options operator (.ok operand) = .ok drawing) :
    (drawing.place .avoid).length = 1 ∧ Frames drawing.markup [operand] := by
  simp only [ofUnary, hsymbol, Symbol.role_appearance] at h
  cases hsymbolRole : symbol.role with
  | identifier | operator =>
    rw [hsymbolRole] at h
    cases h
    obtain ⟨tag, hleaf⟩ := exists_ofGlyph (symbol.appearance options.straightPhi)
    rw [hleaf]
    have hglyph := frames_leaf tag (symbol.appearance options.straightPhi).glyph
    exact ⟨rfl, (hglyph.append (frames_place options.rowMode operand)).element rfl []⟩
  | wrap left right =>
    rw [hsymbolRole] at h
    cases h
    refine ⟨?_, (frames_place .avoid operand).fence left right⟩
    change ((fence left right (operand.place .avoid)).place .avoid).length = 1
    rw [length_place_fence, symbol.left_ne_empty_of_wrap hsymbolRole, Bool.false_and]
    rfl
  | font | cancel | sqrt =>
    rw [hsymbolRole] at h
    cases h
    exact ⟨rfl, (frames_place _ operand).element rfl _⟩
  | accent side => exact absurd hsymbolRole (hrole side)
  | _ =>
    rw [hsymbolRole] at h
    cases h

theorem holds_ofBinary {color : Option Color} (hrole : symbol.role ≠ .color)
    (h : ofBinary options operator color (.ok first) (.ok second) = .ok drawing) :
    drawing.Holds options.rowMode
      (if symbol.role = .frac then [first, second] else [second, first]) := by
  simp only [ofBinary, hsymbol, Symbol.role_appearance] at h
  cases hsymbolRole : symbol.role with
  | root | frac =>
    rw [hsymbolRole] at h
    cases h
    exact holds_single rfl (by simp [slotted, Tag.hasMarks]) []
  | color => exact absurd hsymbolRole hrole
  | operator | identifier | text | opening | closing | bar | accent | font | wrap | cancel | sqrt =>
    rw [hsymbolRole] at h
    cases h
  | _ =>
    -- the first operand is a mark over or under the second
    rw [hsymbolRole] at h
    cases h
    exact holds_underOver options.rowMode second (by simp)

/-- Only a first operand that is a color colors the second. -/
theorem frames_ofBinary {color : Option Color} (hrole : symbol.role = .color)
    (h : ofBinary options operator color (.ok first) (.ok second) = .ok drawing) :
    color.isSome = true ∧ (drawing.place .avoid).length = 1 ∧
      Frames drawing.markup [second] := by
  simp only [ofBinary, hsymbol, Symbol.role_appearance, hrole] at h
  cases color with
  | none => cases h
  | some color =>
    cases h
    exact ⟨rfl, rfl, (frames_place .avoid second).element rfl _⟩

theorem length_place_ofUnary (h : ofUnary options operator (.ok operand) = .ok drawing) :
    (drawing.place .avoid).length = 1 := by
  by_cases haccent : ∃ side, symbol.role = .accent side
  · obtain ⟨side, hrole⟩ := haccent
    exact (holds_ofUnary hsymbol hrole h).length_place
  · exact (frames_ofUnary hsymbol (not_exists.mp haccent) h).1

theorem length_place_ofBinary {color : Option Color}
    (h : ofBinary options operator color (.ok first) (.ok second) = .ok drawing) :
    (drawing.place .avoid).length = 1 := by
  by_cases hrole : symbol.role = .color
  · exact (frames_ofBinary hsymbol hrole h).2.1
  · exact (holds_ofBinary hsymbol hrole h).length_place

theorem holds_ofInfix (h : ofInfix options operator (.ok first) (.ok second) = .ok drawing) :
    drawing.Holds options.rowMode [first, second] := by
  simp only [ofInfix, hsymbol, Symbol.role_appearance] at h
  cases hsymbolRole : symbol.role with
  | frac =>
    rw [hsymbolRole] at h
    cases h
    exact holds_single rfl (by simp [slotted, Tag.hasMarks]) []
  | _ =>
    rw [hsymbolRole] at h
    cases h

end Drawing

end FormulaMarkup
