import FormulaMarkup.Formula.Basic

/-!
# Induction on formulas

A property holds of every formula if it holds of each formula whose parts all have it, where the
parts of a sequence, of a body and of the rows of a matrix are given by membership.
-/

namespace FormulaMarkup.Formula

@[induction_eliminator]
theorem induction {motive : Formula → Prop}
    (empty : motive empty)
    (number : ∀ text, motive (number text))
    (text : ∀ text, motive (.text text))
    (identifier : ∀ text, motive (identifier text))
    (symbol : ∀ mark, motive (symbol mark))
    (sequence : ∀ items, (∀ formula ∈ items, motive formula) → motive (sequence items))
    (bracketed : ∀ left body right, (∀ formula ∈ body, motive formula) →
      motive (bracketed left body right))
    (grouped : ∀ left body right, (∀ formula ∈ body, motive formula) →
      motive (grouped left body right))
    (matrix : ∀ left rows right, (∀ cells ∈ rows, ∀ formula ∈ cells, motive formula) →
      motive (matrix left rows right))
    (unary : ∀ operator operand, motive operand → motive (unary operator operand))
    (binary : ∀ operator first second, motive first → motive second →
      motive (binary operator first second))
    (infixOp : ∀ operator first second, motive first → motive second →
      motive (infixOp operator first second))
    (sub : ∀ base script, motive base → motive script → motive (sub base script))
    (sup : ∀ base script, motive base → motive script → motive (sup base script))
    (subSup : ∀ base lower upper, motive base → motive lower → motive upper →
      motive (subSup base lower upper))
    (color : ∀ color, motive (.color color))
    (formula : Formula) : motive formula :=
  @Formula.rec motive (fun items ↦ ∀ formula ∈ items, motive formula)
    (fun body ↦ ∀ formula ∈ body, motive formula)
    (fun rows ↦ ∀ cells ∈ rows, ∀ formula ∈ cells, motive formula)
    empty number text identifier symbol sequence bracketed grouped matrix unary binary infixOp
    sub sup subSup color
    (fun _ h ↦ nomatch h)
    (fun _ _ head tail ↦ List.forall_mem_cons.mpr ⟨head, tail⟩)
    (fun _ h ↦ nomatch h)
    (fun _ h _ hmem ↦ Option.mem_some.mp hmem ▸ h)
    (fun _ h ↦ nomatch h)
    (fun _ _ head tail ↦ List.forall_mem_cons.mpr ⟨head, tail⟩)
    formula

end FormulaMarkup.Formula
