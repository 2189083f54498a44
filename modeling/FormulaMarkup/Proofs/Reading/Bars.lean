import FormulaMarkup.Proofs.Reading.Grid

/-!
# Bars in pairs

The same bar opens and closes. Among leaves, the first bar opens and the second one closes it, the
third opens again, and so on: `Bars.items` cuts the tokens at their bars and takes these two at a
time. What is between the two is the body of one bracket. A last bar that finds no partner is a
symbol, and the leaves behind it stand in the row that it stands in.

That is how leaves and bars are read (`Lexer.formula_eq_bars`). The reader does not count bars. It
opens a bracket at each bar that it meets, and only the end of the input tells it that this was too
early. Then the body that it has read by now is put behind the symbol.
-/

namespace FormulaMarkup

namespace Bars

open Reading Grammar Grid

/-- A token that stands for itself and is no operator. -/
def IsPlain (token : Token) : Prop :=
  token.kind = .number ∨ token.kind = .text ∨ token.kind = .identifier ∨ token.kind = .symbol

/-- The formulas of the leaves among the tokens. -/
def leaves (tokens : List Token) : List Formula := tokens.filterMap Token.leaf?

/-- The tokens before the first bar, and each bar with the tokens behind it. -/
def splitAtBars : List Token → List Token × List (Token × List Token)
  | [] => ([], [])
  | token :: rest =>
    if token.kind = .bar then ([], (token, (splitAtBars rest).1) :: (splitAtBars rest).2)
    else (token :: (splitAtBars rest).1, (splitAtBars rest).2)

/-- Takes bars two at a time, each with the leaves behind it. -/
def pairUp : List (Token × List Token) → List Formula
  | [] => []
  | [(bar, behind)] => .symbol bar.mark :: leaves behind
  | (left, between) :: (right, behind) :: bars =>
    .bracketed (some left.mark) (Formula.ofItems? (leaves between)) (some right.mark) ::
      leaves behind ++ pairUp bars

/-- The formulas next to each other that leaves and bars mean. -/
def items (tokens : List Token) : List Formula :=
  leaves (splitAtBars tokens).1 ++ pairUp (splitAtBars tokens).2

/-- The tokens that were cut apart. -/
def joined (bars : List (Token × List Token)) : List Token :=
  bars.flatMap fun bar ↦ bar.1 :: bar.2

/-! ## Cutting at bars -/

theorem splitAtBars_joined (tokens : List Token) :
    (splitAtBars tokens).1 ++ joined (splitAtBars tokens).2 = tokens := by
  induction tokens with
  | nil => rfl
  | cons token rest ih =>
    rw [splitAtBars]
    split
    · exact congrArg (token :: ·) ih
    · exact congrArg (token :: ·) ih

/-- A bar and the leaves behind it. -/
def IsRun (bar : Token × List Token) : Prop :=
  bar.1.kind = .bar ∧ ∀ token ∈ bar.2, IsPlain token

theorem runs_splitAtBars {tokens : List Token}
    (h : ∀ token ∈ tokens, IsPlain token ∨ token.kind = .bar) :
    (∀ token ∈ (splitAtBars tokens).1, IsPlain token) ∧
      ∀ bar ∈ (splitAtBars tokens).2, IsRun bar := by
  induction tokens with
  | nil => simp [splitAtBars]
  | cons token rest ih =>
    obtain ⟨htoken, hrest⟩ := List.forall_mem_cons.mp h
    obtain ⟨hfront, hbars⟩ := ih hrest
    rw [splitAtBars]
    split
    · next hbar => exact ⟨List.forall_mem_nil _, List.forall_mem_cons.mpr ⟨⟨hbar, hfront⟩, hbars⟩⟩
    · next hbar => exact ⟨List.forall_mem_cons.mpr ⟨htoken.resolve_right hbar, hfront⟩, hbars⟩

/-! ## Leaves -/

variable {token left right : Token} {tokens rest : List Token}

theorem IsPlain.exists_leaf (h : IsPlain token) :
    ∃ formula, token.leaf? = some formula ∧ Matrix.rowBody? formula = none ∧
      Piece [token] formula := by
  have hkind : token.kind ≠ .infixOp := by
    rcases h with hkind | hkind | hkind | hkind <;> simp [hkind]
  have hleaf : ∃ formula, token.leaf? = some formula ∧ Matrix.rowBody? formula = none := by
    unfold Token.leaf?
    rcases h with hkind | hkind | hkind | hkind <;> rw [hkind] <;> exact ⟨_, rfl, rfl⟩
  obtain ⟨formula, hleaf, hrow⟩ := hleaf
  exact ⟨formula, hleaf, hrow, piece_leaf hkind hleaf⟩

theorem leaves_cons {formula : Formula} (h : token.leaf? = some formula) (rest : List Token) :
    leaves (token :: rest) = formula :: leaves rest :=
  List.filterMap_cons_some h

theorem pieces_leaves (h : ∀ token ∈ tokens, IsPlain token) : Pieces tokens (leaves tokens) := by
  induction tokens with
  | nil => exact .nil
  | cons token rest ih =>
    obtain ⟨htoken, hrest⟩ := List.forall_mem_cons.mp h
    obtain ⟨formula, hleaf, -, hpiece⟩ := htoken.exists_leaf
    rw [leaves_cons hleaf]
    exact .cons hpiece (ih hrest)

/-- Leaves between bars are their body, and never look like the rows of a matrix. -/
theorem isRead_between (hleft : left.kind = .bar) (hright : right.kind = .bar)
    (h : ∀ token ∈ tokens, IsPlain token) :
    IsRead .simple (left :: tokens ++ [right])
      (.bracketed (some left.mark) (Formula.ofItems? (leaves tokens)) (some right.mark)) := by
  have hcloses : right.kind = Reader.closerOf left := by rw [hright, Reader.closerOf, hleft]; rfl
  have hpieces := pieces_leaves h
  cases tokens with
  | nil => exact fun _ _ ↦ .emptyBracket (.inr hleft) hcloses
  | cons token rest =>
    obtain ⟨formula, hleaf, hrow, -⟩ := (h token List.mem_cons_self).exists_leaf
    rw [leaves_cons hleaf] at hpieces ⊢
    rw [← hpieces.enclose_eq_bracketed (rowBodies?_eq_none hrow _)]
    exact hpieces.isRead_enclose (List.cons_ne_nil _ _) (.inr hleft) hcloses

/-! ## Reading to the end -/

/-- At the top, the stream is read to its end as these items. -/
structure ReadsAs (tokens : List Token) (items : List Formula) : Prop where
  goesOn : GoesOn none tokens (Formula.ofItems? items) []
  alone : ∀ item ∈ items, item.items = [item]

theorem readsAs_nil : ReadsAs [] [] where
  goesOn := .inl ⟨.inl rfl, rfl, rfl⟩
  alone := List.forall_mem_nil _

/-- One more formula is read before what is read behind it. -/
theorem ReadsAs.cons {formula : Formula} {items : List Formula} (h : ReadsAs rest items)
    (hread : IsRead .simple tokens formula) (hstarts : Starts (ahead (tokens ++ rest)))
    (halone : formula.items = [formula]) : ReadsAs (tokens ++ rest) (formula :: items) where
  goesOn := by
    have hmore := isRead_plain (isRead_bare hread) none rest _ [] (by simp) h.goesOn
    rw [followedBy_ofItems? halone h.alone] at hmore
    exact .inr ⟨hstarts, hmore⟩
  alone := List.forall_mem_cons.mpr ⟨halone, h.alone⟩

theorem ReadsAs.append {formulas items : List Formula} (h : ReadsAs rest items)
    (hpieces : Pieces tokens formulas) : ReadsAs (tokens ++ rest) (formulas ++ items) := by
  induction hpieces with
  | nil => exact h
  | cons hpiece _ ih =>
    rw [List.append_assoc]
    exact ih.cons hpiece.isRead (hpiece.starts _).1 hpiece.alone

theorem starts_bar (h : left.kind = .bar) : Starts left := by
  rw [Starts, h]
  decide

/-- Behind a bar without its partner there are leaves up to the end. -/
theorem readsAs_unclosed (hleft : left.kind = .bar) (h : ∀ token ∈ tokens, IsPlain token) :
    ReadsAs (left :: tokens) (.symbol left.mark :: leaves tokens) := by
  have hcloser : Reader.closerOf left = .bar := by rw [Reader.closerOf, hleft]; rfl
  have hpieces := pieces_leaves h
  have hbody : (ahead tokens).kind ≠ .bar ∧
      Reads .expression (some .bar) (glanced tokens) (Formula.ofItems? (leaves tokens)) [] := by
    cases tokens with
    | nil => exact ⟨by decide, .nothing (.absent (.ended rfl))⟩
    | cons token rest =>
      obtain ⟨formula, hleaf, -, hpiece⟩ := (h token List.mem_cons_self).exists_leaf
      have hend : (ahead (token :: rest)).kind ≠ .endOfInput := (hpiece.starts rest).1.2.2
      have hne : leaves (token :: rest) ≠ [] := by
        rw [leaves_cons hleaf]
        exact List.cons_ne_nil _ _
      have hreads := hpieces.reads hne (.inr rfl) (.inl rfl)
      rw [List.append_nil] at hreads
      rw [glanced_of_kind_ahead hend]
      exact ⟨(hpiece.starts rest).2, hreads⟩
  have hsimple : Reads .simple none (left :: tokens)
      (some (Reader.unclosed left (Formula.ofItems? (leaves tokens)))) [] := by
    rw [← hcloser] at hbody
    exact .unclosed (.inr hleft) hbody.1 hbody.2 (by rw [hcloser]; decide)
  refine ⟨.inr ⟨starts_bar hleft, ?_⟩, List.forall_mem_cons.mpr ⟨rfl, hpieces.items_eq⟩⟩
  rw [unclosed_eq, if_pos hleft] at hsimple
  rw [← followedBy_ofItems? rfl hpieces.items_eq]
  exact .last (.bare hsimple rfl rfl) rfl

theorem readsAs_pairUp {bars : List (Token × List Token)} (h : ∀ bar ∈ bars, IsRun bar) :
    ReadsAs (joined bars) (pairUp bars) := by
  -- the recursion of the pairs: two bars at a time, since one alone reads up to the end
  induction bars using pairUp.induct with
  | case1 => exact readsAs_nil
  | case2 bar behind =>
    obtain ⟨hbar, hbehind⟩ := h _ List.mem_cons_self
    have hreads := readsAs_unclosed hbar hbehind
    rwa [← List.append_nil (bar :: behind)] at hreads
  | case3 left between right behind bars ih =>
    rw [List.forall_mem_cons, List.forall_mem_cons] at h
    obtain ⟨⟨hleft, hbetween⟩, ⟨hright, hbehind⟩, hbars⟩ := h
    have hrest := (ih hbars).append (pieces_leaves hbehind)
    have hjoined : joined ((left, between) :: (right, behind) :: bars) =
        (left :: between ++ [right]) ++ (behind ++ joined bars) := by
      simp [joined]
    rw [hjoined, pairUp]
    exact hrest.cons (isRead_between hleft hright hbetween) (starts_bar hleft) rfl

end Bars

namespace Lexer

open Bars

/-- Leaves and bars are read as the leaves outside and one bracket for every two bars. -/
theorem formula_eq_bars {μ : Type} [Lexicon μ Entry] {lexer : Lexer μ} {tokens : List Token}
    (hplain : ∀ token ∈ tokens, IsPlain token ∨ token.kind = .bar)
    (hstream : lexer.stream = tokens) :
    lexer.formula = .ok (Formula.ofItems? (Bars.items tokens)) := by
  obtain ⟨hfront, hbars⟩ := runs_splitAtBars hplain
  have hreads := (readsAs_pairUp hbars).append (pieces_leaves hfront)
  rw [splitAtBars_joined, ← hstream] at hreads
  rw [Bars.items, ← hstream]
  exact formula_of_reads hreads.goesOn.reads

/-- A bar that has no symbol. -/
def strokes : Entries Entry := [("|", ⟨none, .bar, none⟩)]

/-- Five bars: two with leaves between, two with nothing, and one that is left over. -/
theorem formula_eq_bars_five :
    let tokens := (ofString strokes "a|b 1||| , |c").tokens
    (∀ token ∈ tokens, IsPlain token ∨ token.kind = .bar) ∧
      (ofString strokes "a|b 1||| , |c").stream = tokens ∧
      (ofString strokes "a|b 1||| , |c").formula = .ok (some (.sequence
        [.identifier "a",
         .bracketed (some ⟨none, "|", .bar⟩) (some (.sequence [.identifier "b", .number "1"]))
           (some ⟨none, "|", .bar⟩),
         .bracketed (some ⟨none, "|", .bar⟩) none (some ⟨none, "|", .bar⟩),
         .identifier ",", .symbol ⟨none, "|", .bar⟩, .identifier "c"])) := by
  intro tokens
  have hends : Lexicon.NeverEnds strokes := Entries.gives (by decide)
  have hall : tokens.all (fun token ↦ token.kind = .bar ∨ token.kind = .identifier ∨
      token.kind = .number) = true := rfl
  have hplain : ∀ token ∈ tokens, IsPlain token ∨ token.kind = .bar := by
    intro token hmem
    rcases of_decide_eq_true (List.all_eq_true.mp hall token hmem) with hbar | hkind | hkind
    · exact .inr hbar
    · exact .inl (.inr (.inr (.inl hkind)))
    · exact .inl (.inl hkind)
  have hstream := (tokens_eq_stream hends "a|b 1||| , |c").symm
  exact ⟨hplain, hstream, formula_eq_bars hplain hstream⟩

end Lexer

end FormulaMarkup
