import FormulaMarkup.Proofs.Formula.Everywhere

/-!
# What may stand where in a formula

Each part of a formula has a place in it. `Suits stream place formula` says what the formula must be
like to stand at the place when the tokens of `stream` were read, and `Regular` that this holds at
every depth. A regular formula stays regular when it is moved to another place (`Regular.move`), to
that of an operand or a script with its redundant brackets dropped (`Regular.asOperand`), and when a
row of a matrix is taken apart into cells (`Matrix.regular_cellsOf`).
-/

namespace FormulaMarkup

/-- Where a formula stands. -/
inductive Place where
  /-- not in another formula -/
  | whole
  /-- in a sequence -/
  | item
  /-- in brackets -/
  | body
  /-- in a row of a matrix -/
  | cell
  /-- behind a unary or a binary operator -/
  | operand
  /-- over or under a fraction bar -/
  | term
  /-- before a script -/
  | base
  | script
deriving DecidableEq

/-- Are redundant brackets dropped here? -/
def Place.groups : Place → Bool
  | .operand | .term | .script => true
  | _ => false

/-- Does a formula stand here as it was read? -/
def Place.isPlain : Place → Bool
  | .whole | .item | .body | .base => true
  | _ => false

namespace Formula

/-- The parts of a formula with their places. -/
def placed : Formula → List (Place × Formula)
  | sequence items => items.map (.item, ·)
  | bracketed _ body _ => body.toList.map (.body, ·)
  | grouped _ body _ => body.toList.map (.body, ·)
  | matrix _ rows _ => rows.flatten.map (.cell, ·)
  | unary _ operand => [(.operand, operand)]
  | binary _ first second => [(.operand, first), (.operand, second)]
  | infixOp _ first second => [(.term, first), (.term, second)]
  | sub base script => [(.base, base), (.script, script)]
  | sup base script => [(.base, base), (.script, script)]
  | subSup base lower upper => [(.base, base), (.script, lower), (.script, upper)]
  | empty | number _ | text _ | identifier _ | symbol _ | color _ => []

/-- Each part has a place, so nothing in a formula is left out. -/
theorem map_snd_placed (formula : Formula) : formula.placed.map (·.2) = formula.parts := by
  cases formula <;> simp [placed, parts, Function.comp_def]

def isColor : Formula → Bool
  | color _ => true
  | _ => false

/-- Delimiters that can stand together: an opening and a closing one, two bars, or an opening one
whose closing one is missing. -/
inductive Fenced : Option Mark → Option Mark → Prop
  | closed {left right : Mark} (hleft : left.kind = .opening) (hright : right.kind = .closing) :
      Fenced (some left) (some right)
  | bars {left right : Mark} (hleft : left.kind = .bar) (hright : right.kind = .bar) :
      Fenced (some left) (some right)
  | unclosed {left : Mark} (hleft : left.kind = .opening) : Fenced (some left) none

end Formula

/-- The operator is that of the token, which has the kind of the arity, and each operand is a color
where its conversion asks for one and nowhere else. -/
def Token.Applies (token : Token) (arity : Arity) (operator : Operator)
    (operands : List (Option Conversion × Formula)) : Prop :=
  token.kind = arity.kind ∧ token.operator = operator ∧
    ∀ operand ∈ operands, operand.2.isColor = true ↔ operand.1 = some .toColor

namespace Formula

/-- What the formula itself, but not yet its parts, must be like to stand at a place when the tokens
of a stream were read. -/
def Suits (stream : List Token) (place : Place) : Formula → Prop
  | empty => place = .cell
  | number _ | text _ | symbol _ => True
  | identifier written => written = "" → place = .operand
  | sequence items => place ≠ .item ∧ 2 ≤ items.length
  | bracketed left body right =>
    -- else the brackets would have been dropped, or the body have become a matrix
    Fenced left right ∧ (place.groups = true → droppable left right = false) ∧
      (left.isSome = true → right.isSome = true →
        ∀ formula ∈ body, Matrix.rowBodies? formula.items = none)
  | grouped left _ right => place.groups = true ∧ Fenced left right
  | matrix _ rows _ => rows ≠ [] ∧ ∀ cells ∈ rows, cells ≠ []
  | unary operator operand =>
    ∃ token ∈ stream, token.Applies .unary operator
      [((token.conversions.getD {}).operand, operand)]
  | binary operator first second =>
    ∃ token ∈ stream, token.Applies .binary operator
      [((token.conversions.getD {}).first, first), ((token.conversions.getD {}).second, second)]
  | infixOp operator first second =>
    operator.symbol = some .frac ∧
      ∃ token ∈ stream, token.Applies .infixOp operator [(none, first), (none, second)]
  | sub _ _ | sup _ _ | subSup _ _ _ => True
  | color _ => place = .operand

/-- Each part of the formula, at every depth, suits its place. -/
inductive Regular (stream : List Token) : Place → Formula → Prop
  | intro {place formula} (here : formula.Suits stream place)
      (within : ∀ part ∈ formula.placed, Regular stream part.1 part.2) :
      Regular stream place formula

variable {stream : List Token} {place other : Place} {formula : Formula}

theorem Regular.here (h : Regular stream place formula) : formula.Suits stream place := by
  cases h with
  | intro here within => exact here

theorem Regular.of_mem_placed (h : Regular stream place formula) {part : Place × Formula}
    (hpart : part ∈ formula.placed) : Regular stream part.1 part.2 := by
  cases h with
  | intro here within => exact within part hpart

/-- A leaf is regular where it suits. -/
theorem regular_of_placed_eq_nil (here : formula.Suits stream place)
    (hplaced : formula.placed = []) : Regular stream place formula := by
  apply Regular.intro here
  rw [hplaced]
  intro part hmem
  cases hmem

theorem regular_empty : Regular stream .cell empty :=
  regular_of_placed_eq_nil (Eq.refl Place.cell) rfl

theorem Regular.item {items : List Formula} (h : Regular stream place (sequence items)) :
    ∀ item ∈ items, Regular stream .item item :=
  fun _ hmem ↦ h.of_mem_placed (List.mem_map_of_mem hmem)

theorem Regular.body {left right : Option Mark} {body : Option Formula}
    (h : Regular stream place (bracketed left body right)) :
    ∀ inner ∈ body, Regular stream .body inner :=
  fun _ hmem ↦ h.of_mem_placed (List.mem_map_of_mem (Option.mem_toList.mpr hmem))

theorem regular_sequence {items : List Formula} (hplace : place ≠ .item)
    (hlength : 2 ≤ items.length) (h : ∀ item ∈ items, Regular stream .item item) :
    Regular stream place (sequence items) := by
  refine .intro ⟨hplace, hlength⟩ fun part hpart ↦ ?_
  obtain ⟨item, hmem, rfl⟩ := List.mem_map.mp hpart
  exact h item hmem

theorem regular_bracketed {left right : Option Mark} {body : Option Formula}
    (here : (bracketed left body right).Suits stream place)
    (h : ∀ inner ∈ body, Regular stream .body inner) :
    Regular stream place (bracketed left body right) := by
  apply Regular.intro here
  intro part hpart
  obtain ⟨inner, hmem, rfl⟩ := List.mem_map.mp hpart
  exact h inner (Option.mem_toList.mp hmem)

/-! ## Moving to another place -/

theorem Suits.move (h : formula.Suits stream place) (hplain : place.isPlain = true)
    (hitem : other = .item → ∀ items, formula ≠ sequence items)
    (hgroups : other.groups = true → ∀ left body right, formula ≠ bracketed left body right) :
    formula.Suits stream other := by
  cases formula with
  | empty | color =>
    cases h
    cases hplain
  | identifier text =>
    intro hempty
    cases h hempty
    cases hplain
  | sequence items => exact ⟨fun heq ↦ hitem heq items rfl, h.2⟩
  | bracketed left body right =>
    exact ⟨h.1, fun hother ↦ absurd rfl (hgroups hother left body right), h.2.2⟩
  | grouped =>
    have hgrouped : place.groups = true := h.1
    cases place <;> cases hplain <;> cases hgrouped
  | _ => exact h

theorem Regular.move (h : Regular stream place formula) (hplain : place.isPlain = true)
    (hitem : other = .item → ∀ items, formula ≠ sequence items)
    (hgroups : other.groups = true → ∀ left body right, formula ≠ bracketed left body right) :
    Regular stream other formula :=
  .intro (h.here.move hplain hitem hgroups) fun _ ↦ h.of_mem_placed

theorem Regular.to_body (h : Regular stream .whole formula) : Regular stream .body formula :=
  h.move rfl (by rintro ⟨⟩) (by rintro ⟨⟩)

theorem Regular.to_base (h : Regular stream .whole formula) : Regular stream .base formula :=
  h.move rfl (by rintro ⟨⟩) (by rintro ⟨⟩)

theorem Regular.to_cell (h : Regular stream place formula) (hplain : place.isPlain = true) :
    Regular stream .cell formula :=
  h.move hplain (by rintro ⟨⟩) (by rintro ⟨⟩)

/-- Brackets that an operand or a script drops are not dropped twice, and others are kept. -/
theorem Regular.asOperand (h : Regular stream .whole formula) (hgroups : place.groups = true) :
    Regular stream place formula.asOperand := by
  have hitem : place ≠ .item := by
    rintro rfl
    cases hgroups
  cases formula with
  | bracketed left body right =>
    obtain ⟨hfenced, -, hrows⟩ := h.here
    rw [Formula.asOperand]
    split
    · exact .intro ⟨hgroups, hfenced⟩ fun _ ↦ h.of_mem_placed
    · next hkept =>
      have hdroppable : droppable left right = false := Bool.eq_false_iff.mpr hkept
      exact .intro ⟨hfenced, fun _ ↦ hdroppable, hrows⟩ fun _ ↦ h.of_mem_placed
  | _ => exact h.move rfl (fun heq ↦ absurd heq hitem) (by rintro - _ _ _ ⟨⟩)

theorem Regular.isColor_asOperand (h : Regular stream .whole formula) :
    formula.asOperand.isColor = false := by
  cases formula with
  | bracketed left body right =>
    rw [Formula.asOperand]
    split <;> rfl
  | color color =>
    have hoperand : Place.whole = Place.operand := h.here
    cases hoperand
  | _ => rfl

theorem Regular.items_ne_nil (h : Regular stream place formula) : formula.items ≠ [] := by
  cases formula with
  | sequence items =>
    rintro rfl
    exact absurd h.here.2 (by decide)
  | _ => exact List.cons_ne_nil _ _

theorem Regular.items (h : Regular stream .whole formula) :
    ∀ item ∈ formula.items, Regular stream .item item := by
  cases formula with
  | sequence items => exact h.item
  | _ => exact List.forall_mem_singleton.mpr (h.move rfl (by rintro - _ ⟨⟩) (by rintro ⟨⟩))

theorem Regular.concat {left right : Formula} (hleft : Regular stream .whole left)
    (hright : Regular stream .whole right) : Regular stream .whole (left.concat right) := by
  rw [concat_eq]
  apply regular_sequence (by decide)
  · rw [List.length_append]
    have hleft := List.length_pos_iff.mpr hleft.items_ne_nil
    have hright := List.length_pos_iff.mpr hright.items_ne_nil
    omega
  · exact List.forall_mem_append.mpr ⟨hleft.items, hright.items⟩

theorem Regular.followedBy {first : Formula} {more : Option Formula}
    (hfirst : Regular stream .whole first)
    (hmore : ∀ formula ∈ more, Regular stream .whole formula) :
    Regular stream .whole (first.followedBy more) := by
  cases more with
  | none => exact hfirst
  | some more => exact hfirst.concat (hmore more rfl)

theorem Regular.withScripts {base : Formula} {lower upper : Option Formula}
    (hbase : Regular stream .whole base) (hlower : ∀ formula ∈ lower, Regular stream .whole formula)
    (hupper : ∀ formula ∈ upper, Regular stream .whole formula) :
    Regular stream .whole (base.withScripts lower upper) := by
  have hscript : ∀ script : Formula, Regular stream .whole script →
      Regular stream .script script.asOperand := fun _ h ↦ h.asOperand rfl
  cases lower with
  | none =>
    cases upper with
    | none => exact hbase
    | some upper =>
      change Regular stream .whole (sup base upper.asOperand)
      refine .intro trivial ?_
      simp only [placed, List.forall_mem_cons]
      exact ⟨hbase.to_base, hscript upper (hupper upper rfl), by simp⟩
  | some lower =>
    cases upper with
    | none =>
      change Regular stream .whole (sub base lower.asOperand)
      refine .intro trivial ?_
      simp only [placed, List.forall_mem_cons]
      exact ⟨hbase.to_base, hscript lower (hlower lower rfl), by simp⟩
    | some upper =>
      change Regular stream .whole (subSup base lower.asOperand upper.asOperand)
      refine .intro trivial ?_
      simp only [placed, List.forall_mem_cons]
      exact ⟨hbase.to_base, hscript lower (hlower lower rfl), hscript upper (hupper upper rfl),
        by simp⟩

end Formula

open Formula

namespace Matrix

variable {stream : List Token} {place : Place}

theorem rowBodies?_ne_nil {formulas : List Formula} {bodies : List (Option Formula)}
    (h : rowBodies? formulas = some bodies) : bodies ≠ [] := by
  fun_induction rowBodies? formulas with
  | case1 => cases h
  | case2 row =>
    obtain ⟨body, -, rfl⟩ := Option.map_eq_some_iff.mp h
    exact List.cons_ne_nil _ _
  | case3 row separator rows hseparator ih =>
    obtain ⟨body, -, h⟩ := Option.bind_eq_some_iff.mp h
    obtain ⟨later, -, h⟩ := Option.bind_eq_some_iff.mp h
    cases h
    exact List.cons_ne_nil _ _
  | case4 => cases h

theorem cellsOf_ne_nil (body : Option Formula) : cellsOf body ≠ [] := by
  unfold cellsOf
  split
  · exact List.cons_ne_nil _ _
  · next items => exact List.map_eq_nil_iff.not.mpr (splitAtSeparators_ne_nil items)
  · exact List.cons_ne_nil _ _

theorem regular_cellOf {run : List Formula} (h : ∀ formula ∈ run, Regular stream .item formula) :
    Regular stream .cell (cellOf run) := by
  match run with
  | [] => exact regular_empty
  | [formula] => exact (h formula List.mem_cons_self).to_cell rfl
  | first :: second :: rest =>
    exact regular_sequence (by decide) (Nat.le_add_left 2 rest.length) h

theorem regular_cellsOf {body : Option Formula} (h : ∀ inner ∈ body, Regular stream .body inner) :
    ∀ cell ∈ cellsOf body, Regular stream .cell cell := by
  unfold cellsOf
  split
  · exact List.forall_mem_singleton.mpr regular_empty
  · next items =>
    intro cell hmem
    obtain ⟨run, hrun, rfl⟩ := List.mem_map.mp hmem
    apply regular_cellOf
    intro formula hformula
    exact (h _ rfl).item formula (mem_of_mem_splitAtSeparators hrun hformula)
  · exact List.forall_mem_singleton.mpr ((h _ rfl).to_cell rfl)

/-- A body that has the form of a matrix becomes one, so a body in brackets does not have it. -/
theorem regular_enclose {left right : Mark} {body : Option Formula}
    (hfenced : Fenced (some left) (some right)) (h : ∀ inner ∈ body, Regular stream .whole inner) :
    Regular stream .whole (enclose left body right) := by
  unfold enclose
  split
  · next bodies hbodies =>
    obtain ⟨formula, rfl, hrows⟩ := Option.bind_eq_some_iff.mp hbodies
    have hcells : ∀ cells ∈ bodies.map cellsOf, cells ≠ [] := by
      rw [List.forall_mem_map]
      exact fun body _ ↦ cellsOf_ne_nil body
    refine .intro ⟨List.map_eq_nil_iff.not.mpr (rowBodies?_ne_nil hrows), hcells⟩
      fun part hpart ↦ ?_
    obtain ⟨cell, hmem, rfl⟩ := List.mem_map.mp hpart
    obtain ⟨cells, hcells, hcell⟩ := List.mem_flatten.mp hmem
    obtain ⟨body, hbody, rfl⟩ := List.mem_map.mp hcells
    obtain ⟨left, right, hrow⟩ := exists_bracketed_mem_of_rowBodies? hrows body hbody
    exact regular_cellsOf ((h formula rfl).items _ hrow).body cell hcell
  · next hrows =>
    apply regular_bracketed _ fun inner hmem ↦ (h inner hmem).to_body
    refine ⟨hfenced, by rintro ⟨⟩, fun _ _ formula hmem ↦ ?_⟩
    exact Option.bind_eq_none_iff.mp hrows formula hmem

end Matrix

end FormulaMarkup
