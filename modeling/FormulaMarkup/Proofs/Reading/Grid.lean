import Mathlib.Data.List.Forall2
import FormulaMarkup.Proofs.Reading.Grammar

/-!
# Written matrices

Rows in plain brackets with commas between them, and brackets or bars around them all, are read as
the matrix of these rows, whose cells are what the commas of a row separate
(`Lexer.formula_eq_matrix`).

The reader knows neither rows nor cells. It reads the pieces between two brackets as one flat
sequence with the commas in it, in which a piece that is alone stands for itself (`Pieces.reads`).
The form of a matrix is found afterwards, in the items of that sequence: a row never looks like a
matrix itself (`enclose_eq_bracketed`), its items are split into its cells (`exists_rowItems`), and
the rows are the bodies of the brackets among the items (`exists_bodies`).
-/

namespace FormulaMarkup

namespace Grid

open Reading Grammar

/-- The comma between two cells or two rows. -/
def IsComma (token : Token) : Prop := token.kind = .identifier ∧ token.text = ","

/-- Pieces of a stream with their values, and a comma between each two of them. -/
inductive Separated {α : Type} (piece : List Token → α → Prop) : List Token → List α → Prop
  | one {tokens value} (hpiece : piece tokens value) : Separated piece tokens [value]
  | more {tokens value comma rest values} (hpiece : piece tokens value) (hcomma : IsComma comma)
      (hrest : Separated piece rest values) :
      Separated piece (tokens ++ comma :: rest) (value :: values)

/-- A number, a text, a symbol or an identifier that is no comma, and its formula. -/
def IsLeaf (token : Token) (formula : Formula) : Prop :=
  (token.kind = .number ∨ token.kind = .text ∨ token.kind = .symbol ∨
    token.kind = .identifier ∧ token.text ≠ ",") ∧ token.leaf? = some formula

/-- A single leaf stands for itself in its cell. -/
inductive WrittenCell : List Token → Formula → Prop
  | leaf {token formula} (hleaf : IsLeaf token formula) : WrittenCell [token] formula
  | sequence {tokens formulas} (hlength : 2 ≤ tokens.length)
      (hleaves : List.Forall₂ IsLeaf tokens formulas) : WrittenCell tokens (.sequence formulas)

/-- Plain round or plain square brackets. -/
def IsRowPair (left right : Token) : Prop :=
  left.mark = ⟨some .leftParen, "(", .opening⟩ ∧ right.mark = ⟨some .rightParen, ")", .closing⟩ ∨
    left.mark = ⟨some .leftBracket, "[", .opening⟩ ∧
      right.mark = ⟨some .rightBracket, "]", .closing⟩

/-- The tokens of a row and its cells. -/
inductive WrittenRow : List Token → List Formula → Prop
  | intro {left tokens right cells} (hpair : IsRowPair left right)
      (hcells : Separated WrittenCell tokens cells) :
      WrittenRow (left :: tokens ++ [right]) cells

/-! ## Pieces between two brackets -/

/-- Tokens that are read as one formula wherever they stand, also between bars. -/
structure Piece (tokens : List Token) (formula : Formula) : Prop where
  isRead : IsRead .simple tokens formula
  starts : ∀ rest, Starts (ahead (tokens ++ rest)) ∧ (ahead (tokens ++ rest)).kind ≠ .bar
  alone : formula.items = [formula]

inductive Pieces : List Token → List Formula → Prop
  | nil : Pieces [] []
  | cons {tokens formula rest formulas} (hpiece : Piece tokens formula)
      (hrest : Pieces rest formulas) : Pieces (tokens ++ rest) (formula :: formulas)

variable {tokens rest : List Token} {formula : Formula} {formulas : List Formula}
  {left right : Token}

theorem Piece.single (h : Piece tokens formula) : Pieces tokens [formula] := by
  have hcons := Pieces.cons h .nil
  rwa [List.append_nil] at hcons

theorem Pieces.append {more : List Formula} (h : Pieces tokens formulas)
    (hmore : Pieces rest more) : Pieces (tokens ++ rest) (formulas ++ more) := by
  induction h with
  | nil => exact hmore
  | cons hpiece _ ih =>
    rw [List.append_assoc]
    exact .cons hpiece ih

theorem Pieces.items_eq (h : Pieces tokens formulas) :
    ∀ formula ∈ formulas, formula.items = [formula] := by
  induction h with
  | nil => simp
  | cons hpiece _ ih => exact List.forall_mem_cons.mpr ⟨hpiece.alone, ih⟩

theorem Pieces.starts (h : Pieces tokens formulas) (hne : formulas ≠ []) (rest : List Token) :
    Starts (ahead (tokens ++ rest)) ∧ (ahead (tokens ++ rest)).kind ≠ .bar := by
  cases h with
  | nil => exact absurd rfl hne
  | cons hpiece =>
    rw [List.append_assoc]
    exact hpiece.starts _

/-- Pieces in brackets or between bars are read as their flat sequence, up to what closes these or
to the end of the stream. -/
theorem Pieces.reads {closer : TokenKind} {later : List Token} (h : Pieces tokens formulas)
    (hne : formulas ≠ []) (hcloser : closer = .closing ∨ closer = .bar)
    (hlater : later = [] ∨ (ahead later).kind = closer) :
    Reads .expression (some closer) (tokens ++ later) (Formula.ofItems? formulas) later := by
  induction h with
  | nil => exact absurd rfl hne
  | @cons tokens formula rest formulas hpiece hrest ih =>
    rw [List.append_assoc, ← followedBy_ofItems? hpiece.alone hrest.items_eq]
    have hscripted := isRead_bare hpiece.isRead (some closer)
    by_cases hlast : formulas = []
    · subst hlast
      cases hrest
      rcases hlater with rfl | hkind
      · exact .last (hscripted [] ⟨rfl, rfl, rfl⟩) rfl
      · have hother : (ahead later).kind ≠ .infixOp ∧ (ahead later).kind ≠ .endOfInput := by
          rcases hcloser with rfl | rfl <;> rw [hkind] <;> decide
        exact .closed (hscripted _ (quiet_of_kind_ne hother.1 hother.2))
          (Token.isInfix_eq_false hother.1 _) hother.2 (congrArg some hkind)
    · obtain ⟨⟨hother, hclosing, hend⟩, hbar⟩ := hrest.starts hlast later
      refine .item (hscripted _ (quiet_of_kind_ne hother hend)) (Token.isInfix_eq_false hother _)
        hend ?_ (ih hlast)
      intro hcloses
      cases hcloses
      exact hcloser.elim hclosing hbar

/-- Pieces in brackets or between bars are enclosed by them. -/
theorem Pieces.isRead_enclose (h : Pieces tokens formulas) (hne : formulas ≠ [])
    (hopens : left.Opens) (hcloses : right.kind = Reader.closerOf left) :
    IsRead .simple (left :: tokens ++ [right])
      (Matrix.enclose left.mark (Formula.ofItems? formulas) right.mark) := by
  intro closer rest
  have hcloser : Reader.closerOf left = .closing ∨ Reader.closerOf left = .bar := by
    unfold Reader.closerOf
    split
    · exact .inl rfl
    · exact .inr rfl
  obtain ⟨⟨-, hclosing, hend⟩, hbar⟩ := h.starts hne (right :: rest)
  have hreads : Reads .expression (some (Reader.closerOf left)) (tokens ++ right :: rest)
      (Formula.ofItems? formulas) (right :: rest) := h.reads hne hcloser (.inr hcloses)
  rw [← glanced_of_kind_ahead hend] at hreads
  have hfull : (ahead (tokens ++ right :: rest)).kind ≠ Reader.closerOf left := by
    intro heq
    rw [heq] at hclosing hbar
    exact hcloser.elim hclosing hbar
  have happend : left :: tokens ++ [right] ++ rest = left :: (tokens ++ right :: rest) := by simp
  rw [happend]
  exact .bracket hopens hfull hreads hcloses

/-! ## Finding the matrix among the items -/

open FormulaMarkup.Matrix

/-- What is neither a separator nor a row nor a sequence of further items. -/
structure InCell (formula : Formula) : Prop where
  isSeparator_eq : isSeparator formula = false
  rowBody?_eq : rowBody? formula = none
  cellsOf_eq : cellsOf (some formula) = [formula]

theorem itemsOf_ofItems? (h : ∀ formula ∈ formulas, formula.items = [formula]) :
    itemsOf (Formula.ofItems? formulas) = formulas := by
  match formulas with
  | [] => rfl
  | [formula] => exact h formula List.mem_cons_self
  | first :: second :: rest => rfl

/-- What brackets enclose is a matrix if the items between them have the form of one. -/
theorem bind_rowBodies? (body : Option Formula) :
    (body.bind fun formula ↦ rowBodies? formula.items) = rowBodies? (itemsOf body) := by
  cases body <;> rfl

theorem Pieces.enclose_eq_matrix {bodies : List (Option Formula)} (h : Pieces tokens formulas)
    (hbodies : rowBodies? formulas = some bodies) (left right : Mark) :
    enclose left (Formula.ofItems? formulas) right = .matrix left (bodies.map cellsOf) right := by
  rw [enclose, bind_rowBodies?, itemsOf_ofItems? h.items_eq, hbodies]

theorem Pieces.enclose_eq_bracketed (h : Pieces tokens formulas)
    (hbodies : rowBodies? formulas = none) (left right : Mark) :
    enclose left (Formula.ofItems? formulas) right =
      .bracketed (some left) (Formula.ofItems? formulas) (some right) := by
  rw [enclose, bind_rowBodies?, itemsOf_ofItems? h.items_eq, hbodies]

theorem rowBodies?_eq_none (h : rowBody? formula = none) (rest : List Formula) :
    rowBodies? (formula :: rest) = none := by
  match rest with
  | [] =>
    rw [rowBodies?, h]
    rfl
  | separator :: rest =>
    rw [rowBodies?, h]
    split <;> rfl

/-- Up to the first separator the items are one run. -/
theorem splitAtSeparators_append {rest : List Formula} {run : List Formula}
    {runs : List (List Formula)}
    (h : ∀ formula ∈ formulas, isSeparator formula = false)
    (hrest : splitAtSeparators rest = run :: runs) :
    splitAtSeparators (formulas ++ rest) = (formulas ++ run) :: runs := by
  induction formulas with
  | nil => exact hrest
  | cons formula formulas ih =>
    obtain ⟨hformula, hformulas⟩ := List.forall_mem_cons.mp h
    rw [List.cons_append, splitAtSeparators, hformula, ih hformulas]
    rfl

/-- A body that begins with no separator is split into the cells of its row. -/
theorem cellsOf_ofItems? (h : InCell formula) (rest : List Formula) :
    cellsOf (Formula.ofItems? (formula :: rest)) =
      (splitAtSeparators (formula :: rest)).map cellOf := by
  cases rest with
  | nil =>
    have hsplit : splitAtSeparators [formula] = [[formula]] := by
      rw [splitAtSeparators, h.isSeparator_eq]
      rfl
    rw [hsplit]
    exact h.cellsOf_eq
  | cons second rest => rfl

/-! ## Cells, rows and matrices -/

/-- A token that stands for itself is read as its formula wherever it stands. -/
theorem piece_leaf {token : Token} (hkind : token.kind ≠ .infixOp)
    (hleaf : token.leaf? = some formula) : Piece [token] formula where
  isRead := isRead_leaf hleaf
  starts rest := by
    rw [List.singleton_append, ahead_cons, Starts]
    refine ⟨⟨hkind, ?_, ?_⟩, ?_⟩ <;>
      · intro hother
        rw [Token.leaf?, hother] at hleaf
        cases hleaf
  alone := by
    unfold Token.leaf? at hleaf
    split at hleaf <;> cases hleaf <;> rfl

theorem IsLeaf.piece {token : Token} (h : IsLeaf token formula) : Piece [token] formula := by
  refine piece_leaf ?_ h.2
  rcases h.1 with hkind | hkind | hkind | ⟨hkind, -⟩ <;> simp [hkind]

theorem IsLeaf.inCell {token : Token} (h : IsLeaf token formula) : InCell formula := by
  obtain ⟨hkind, hleaf⟩ := h
  unfold Token.leaf? at hleaf
  split at hleaf
  · cases hleaf
    exact ⟨rfl, rfl, rfl⟩
  · cases hleaf
    exact ⟨rfl, rfl, rfl⟩
  · next hidentifier =>
    cases hleaf
    have htext : token.text ≠ "," := by simpa [hidentifier] using hkind
    exact ⟨decide_eq_false htext, rfl, rfl⟩
  · cases hleaf
    exact ⟨rfl, rfl, rfl⟩
  · cases hleaf
    exact ⟨rfl, rfl, rfl⟩
  · cases hleaf

theorem IsComma.piece {comma : Token} (h : IsComma comma) : Piece [comma] (.identifier ",") :=
  piece_leaf (by simp [h.1]) (by simp [Token.leaf?, h.1, h.2])

theorem pieces_leaves (h : List.Forall₂ IsLeaf tokens formulas) :
    Pieces tokens formulas ∧ ∀ formula ∈ formulas, InCell formula := by
  induction h with
  | nil => exact ⟨.nil, by simp⟩
  | cons hleaf _ ih =>
    exact ⟨.cons hleaf.piece ih.1, List.forall_mem_cons.mpr ⟨hleaf.inCell, ih.2⟩⟩

/-- The items of a cell. -/
theorem WrittenCell.exists_leaves (h : WrittenCell tokens formula) :
    ∃ leaf leaves, Pieces tokens (leaf :: leaves) ∧ (∀ item ∈ leaf :: leaves, InCell item) ∧
      cellOf (leaf :: leaves) = formula := by
  cases h with
  | leaf hleaf =>
    exact ⟨formula, [], hleaf.piece.single, List.forall_mem_singleton.mpr hleaf.inCell, rfl⟩
  | @sequence _ formulas hlength hleaves =>
    obtain ⟨hpieces, hcell⟩ := pieces_leaves hleaves
    rw [hleaves.length_eq] at hlength
    obtain ⟨first, rest, rfl⟩ := List.exists_cons_of_length_pos (Nat.zero_lt_of_lt hlength)
    obtain ⟨second, rest, rfl⟩ := List.exists_cons_of_length_pos (Nat.lt_of_succ_lt_succ hlength)
    exact ⟨first, second :: rest, hpieces, hcell, rfl⟩

/-- The items between the brackets of a row. They are split into its cells. -/
theorem exists_rowItems {cells : List Formula} (h : Separated WrittenCell tokens cells) :
    ∃ leaf items, Pieces tokens (leaf :: items) ∧ InCell leaf ∧
      (splitAtSeparators (leaf :: items)).map cellOf = cells := by
  induction h with
  | one hcell =>
    obtain ⟨leaf, leaves, hpieces, hleaves, rfl⟩ := hcell.exists_leaves
    have hsplit := splitAtSeparators_append (fun item hmem ↦ (hleaves item hmem).isSeparator_eq)
      (rfl : splitAtSeparators [] = [[]])
    rw [List.append_nil] at hsplit
    refine ⟨leaf, leaves, hpieces, hleaves leaf List.mem_cons_self, ?_⟩
    rw [hsplit]
    rfl
  | @more tokens cell comma rest cells hcell hcomma _ ih =>
    obtain ⟨leaf, leaves, hpieces, hleaves, rfl⟩ := hcell.exists_leaves
    obtain ⟨first, items, hrest, -, rfl⟩ := ih
    have hseparator : splitAtSeparators (.identifier "," :: first :: items) =
        [] :: splitAtSeparators (first :: items) := rfl
    have hsplit := splitAtSeparators_append (fun item hmem ↦ (hleaves item hmem).isSeparator_eq)
      hseparator
    rw [List.append_nil] at hsplit
    refine ⟨leaf, leaves ++ .identifier "," :: first :: items,
      hpieces.append (.cons hcomma.piece hrest), hleaves leaf List.mem_cons_self, ?_⟩
    rw [← List.cons_append, hsplit]
    rfl

theorem IsRowPair.isRowFence (h : IsRowPair left right) :
    isRowFence left.mark right.mark = true := by
  rcases h with ⟨hleft, hright⟩ | ⟨hleft, hright⟩
  · rw [hleft, hright]
    rfl
  · rw [hleft, hright]
    rfl

theorem IsRowPair.kind_eq (h : IsRowPair left right) :
    left.kind = .opening ∧ right.kind = .closing := by
  rcases h with ⟨hleft, hright⟩ | ⟨hleft, hright⟩
  · exact ⟨congrArg Mark.kind hleft, congrArg Mark.kind hright⟩
  · exact ⟨congrArg Mark.kind hleft, congrArg Mark.kind hright⟩

/-- A row is read as its brackets, and its cells are found in their body. -/
theorem WrittenRow.exists_row {cells : List Formula} (h : WrittenRow tokens cells) :
    ∃ row body, Piece tokens row ∧ rowBody? row = some body ∧ cellsOf body = cells := by
  cases h with
  | @intro left tokens right _ hpair hcells =>
    obtain ⟨leaf, items, hpieces, hleaf, rfl⟩ := exists_rowItems hcells
    obtain ⟨hopening, hclosing⟩ := hpair.kind_eq
    have hcloser : Reader.closerOf left = .closing := if_pos hopening
    have hread := hpieces.isRead_enclose (List.cons_ne_nil _ _) (.inl hopening)
      (hclosing.trans hcloser.symm)
    rw [hpieces.enclose_eq_bracketed (rowBodies?_eq_none hleaf.rowBody?_eq items)] at hread
    have hstarts : ∀ rest, Starts (ahead (left :: tokens ++ [right] ++ rest)) ∧
        (ahead (left :: tokens ++ [right] ++ rest)).kind ≠ .bar := by
      intro rest
      rw [List.cons_append, List.cons_append, ahead_cons, Starts, hopening]
      decide
    refine ⟨_, _, ⟨hread, hstarts, rfl⟩, ?_, cellsOf_ofItems? hleaf items⟩
    rw [rowBody?, if_pos hpair.isRowFence]

/-- The items between the outer brackets are the rows of a matrix. -/
theorem exists_bodies {rows : List (List Formula)} (h : Separated WrittenRow tokens rows) :
    ∃ items bodies, Pieces tokens items ∧ items ≠ [] ∧ rowBodies? items = some bodies ∧
      bodies.map cellsOf = rows := by
  induction h with
  | one hrow =>
    obtain ⟨row, body, hpiece, hbody, rfl⟩ := hrow.exists_row
    refine ⟨[row], [body], hpiece.single, List.cons_ne_nil _ _, ?_, rfl⟩
    rw [rowBodies?, hbody]
    rfl
  | more hrow hcomma _ ih =>
    obtain ⟨row, body, hpiece, hbody, rfl⟩ := hrow.exists_row
    obtain ⟨items, bodies, hpieces, -, hbodies, rfl⟩ := ih
    refine ⟨row :: .identifier "," :: items, body :: bodies,
      .cons hpiece (.cons hcomma.piece hpieces), List.cons_ne_nil _ _, ?_, rfl⟩
    rw [rowBodies?, hbody, hbodies]
    rfl

/-- A pair of brackets of any spelling, or two bars. -/
def IsFence (left right : Token) : Prop :=
  left.kind = .opening ∧ right.kind = .closing ∨ left.kind = .bar ∧ right.kind = .bar

theorem IsFence.closes (h : IsFence left right) :
    left.Opens ∧ right.kind = Reader.closerOf left := by
  rcases h with ⟨hleft, hright⟩ | ⟨hleft, hright⟩
  · exact ⟨.inl hleft, by rw [Reader.closerOf, if_pos hleft, hright]⟩
  · exact ⟨.inr hleft, by rw [Reader.closerOf, hleft, hright]; rfl⟩

end Grid

namespace Lexer

open Grid

/-- A written matrix is read as the matrix of its rows, each with its own cells. -/
theorem formula_eq_matrix {μ : Type} [Lexicon μ Entry] {lexer : Lexer μ} {left right : Token}
    {tokens : List Token} {rows : List (List Formula)} (hfence : IsFence left right)
    (hrows : Separated WrittenRow tokens rows)
    (hstream : lexer.stream = left :: tokens ++ [right]) :
    lexer.formula = .ok (some (.matrix left.mark rows right.mark)) := by
  obtain ⟨items, bodies, hpieces, hne, hbodies, rfl⟩ := exists_bodies hrows
  obtain ⟨hopens, hcloses⟩ := hfence.closes
  have hread := hpieces.isRead_enclose hne hopens hcloses none []
  rw [List.append_nil, ← hstream, hpieces.enclose_eq_matrix hbodies] at hread
  exact formula_of_reads (.last (.bare hread rfl rfl) rfl)

/-- Plain brackets of both shapes and a bar. -/
def rowFences : Entries Entry :=
  [("(", ⟨some .leftParen, .opening, none⟩), (")", ⟨some .rightParen, .closing, none⟩),
   ("[", ⟨some .leftBracket, .opening, none⟩), ("]", ⟨some .rightBracket, .closing, none⟩),
   ("|", ⟨some .verticalBar, .bar, none⟩)]

/-- Two rows between bars, the second of which has a single cell with a single leaf. -/
theorem formula_eq_matrix_jagged :
    (ofString rowFences "|[1,a b],(c)|").formula = .ok (some (.matrix
      ⟨some .verticalBar, "|", .bar⟩
      [[.number "1", .sequence [.identifier "a", .identifier "b"]], [.identifier "c"]]
      ⟨some .verticalBar, "|", .bar⟩)) := by
  let bar : Token := .ofEntry "|" ⟨some .verticalBar, .bar, none⟩
  let bracket : Token := .ofEntry "[" ⟨some .leftBracket, .opening, none⟩
  let bracket' : Token := .ofEntry "]" ⟨some .rightBracket, .closing, none⟩
  let paren : Token := .ofEntry "(" ⟨some .leftParen, .opening, none⟩
  let paren' : Token := .ofEntry ")" ⟨some .rightParen, .closing, none⟩
  let comma : Token := .plain .identifier ","
  let one : Token := .plain .number "1"
  let a : Token := .plain .identifier "a"
  let b : Token := .plain .identifier "b"
  let c : Token := .plain .identifier "c"
  have hends : Lexicon.NeverEnds rowFences := Entries.gives (by decide)
  have hcomma : IsComma comma := ⟨rfl, rfl⟩
  have hone : IsLeaf one (.number "1") := ⟨.inl rfl, rfl⟩
  have ha : IsLeaf a (.identifier "a") := ⟨.inr (.inr (.inr ⟨rfl, by decide⟩)), rfl⟩
  have hb : IsLeaf b (.identifier "b") := ⟨.inr (.inr (.inr ⟨rfl, by decide⟩)), rfl⟩
  have hc : IsLeaf c (.identifier "c") := ⟨.inr (.inr (.inr ⟨rfl, by decide⟩)), rfl⟩
  have hcell : WrittenCell [a, b] (.sequence [.identifier "a", .identifier "b"]) :=
    .sequence (le_refl 2) (.cons ha (.cons hb .nil))
  have hfirst := @WrittenRow.intro bracket [one, comma, a, b] bracket' _ (.inr ⟨rfl, rfl⟩)
    (.more (.leaf hone) hcomma (.one hcell))
  have hsecond := @WrittenRow.intro paren [c] paren' _ (.inl ⟨rfl, rfl⟩) (.one (.leaf hc))
  have hstream := Lexer.tokens_eq_stream hends "|[1,a b],(c)|"
  exact @formula_eq_matrix _ _ _ bar bar _ _ (.inr ⟨rfl, rfl⟩)
    (.more hfirst hcomma (.one hsecond)) (hstream.symm.trans rfl)

end Lexer

end FormulaMarkup
