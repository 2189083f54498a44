import FormulaMarkup.Formula.Basic

/-!
# Formulas put next to each other

Two formulas are put next to each other by their kinds, and many of them by going through them once.
Both come to the items of all formulas in their order (`concat_eq`, `collect_eq`), so it does not
matter how many formulas are put together two at a time: every way gives what collecting them
gives (`Grouping.whole_eq_collect`). A sequence that is made so has no sequence as an item unless
one of the formulas has.
-/

namespace FormulaMarkup.Formula

/-- A way to put formulas next to each other two at a time. -/
inductive Grouping where
  | single (formula : Formula)
  | joined (left right : Grouping)

namespace Grouping

/-- The formulas from left to right. -/
def formulas : Grouping → List Formula
  | single formula => [formula]
  | joined left right => left.formulas ++ right.formulas

/-- What the formulas are put together to. -/
def whole : Grouping → Formula
  | single formula => formula
  | joined left right => left.whole.concat right.whole

theorem items_whole (grouping : Grouping) :
    grouping.whole.items = grouping.formulas.flatMap items := by
  induction grouping with
  | single formula => simp [whole, formulas]
  | joined left right ihleft ihright =>
    rw [whole, items_concat, ihleft, ihright, formulas, List.flatMap_append]

/-- Two formulas or more come to the same, whichever of them are put together first. -/
theorem whole_eq_collect {grouping : Grouping} (h : 2 ≤ grouping.formulas.length) :
    grouping.whole = collect grouping.formulas := by
  cases grouping with
  | single formula => exact absurd h (by simp [formulas])
  | joined left right =>
    rw [whole, concat_eq, items_whole, items_whole, formulas, collect_eq, List.flatMap_append]

theorem exists_formulas_eq {list : List Formula} (h : list ≠ []) :
    ∃ grouping : Grouping, grouping.formulas = list := by
  induction list with
  | nil => exact absurd rfl h
  | cons first rest ih =>
    by_cases hrest : rest = []
    · exact ⟨single first, by rw [hrest, formulas]⟩
    · obtain ⟨grouping, hgrouping⟩ := ih hrest
      exact ⟨joined (single first) grouping, by rw [formulas, formulas, hgrouping]; rfl⟩

end Grouping

/-! ## Flat sequences -/

/-- If the formula is a sequence, none of its items is one. -/
def IsUnnested (formula : Formula) : Prop :=
  ∀ items, formula = sequence items → ∀ item ∈ items, ∀ inner, item ≠ sequence inner

theorem isUnnested_iff {formula : Formula} :
    formula.IsUnnested ↔ ∀ item ∈ formula.items, ∀ inner, item ≠ sequence inner := by
  cases formula <;> simp [IsUnnested, items]

theorem IsUnnested.concat {left right : Formula} (hleft : left.IsUnnested)
    (hright : right.IsUnnested) : (left.concat right).IsUnnested := by
  rw [isUnnested_iff] at hleft hright ⊢
  rw [items_concat]
  exact List.forall_mem_append.mpr ⟨hleft, hright⟩

theorem isUnnested_collect {formulas : List Formula}
    (h : ∀ formula ∈ formulas, formula.IsUnnested) : (collect formulas).IsUnnested := by
  rw [isUnnested_iff, collect_eq]
  intro item hmem
  obtain ⟨formula, hformula, hitem⟩ := List.mem_flatMap.mp hmem
  exact isUnnested_iff.mp (h formula hformula) item hitem

/-- Putting formulas next to each other keeps their items in order, is associative, and gives the
same for two formulas or more in every grouping and collected at once. No sequence comes to stand
in a sequence. -/
theorem concat_collect_flat :
    (∀ a b : Formula, a.concat b = sequence (a.items ++ b.items)) ∧
      (∀ a b c : Formula, (a.concat b).concat c = a.concat (b.concat c)) ∧
      (∀ list : List Formula, 2 ≤ list.length →
        (∃ grouping : Grouping, grouping.formulas = list) ∧
          ∀ grouping : Grouping, grouping.formulas = list → grouping.whole = collect list) ∧
      (∀ a b : Formula, a.IsUnnested → b.IsUnnested → (a.concat b).IsUnnested) ∧
      ∀ list : List Formula, (∀ formula ∈ list, formula.IsUnnested) →
        (collect list).IsUnnested := by
  refine ⟨concat_eq, concat_assoc, fun list hlength ↦ ⟨?_, ?_⟩, fun _ _ ↦ IsUnnested.concat,
    fun _ ↦ isUnnested_collect⟩
  · exact Grouping.exists_formulas_eq (List.ne_nil_of_length_pos (Nat.zero_lt_of_lt hlength))
  · rintro grouping rfl
    exact Grouping.whole_eq_collect hlength

/-- A sequence of two, an empty one and a number. -/
def mixed : List Formula :=
  [sequence [identifier "x", identifier "y"], sequence [], number "1"]

theorem concat_collect_flat_mixed :
    2 ≤ mixed.length ∧
      (∀ grouping : Grouping, grouping.formulas = mixed →
        grouping.whole = sequence [identifier "x", identifier "y", number "1"]) ∧
      (∀ formula ∈ mixed, formula.IsUnnested) ∧ (collect mixed).IsUnnested ∧
      ((number "1").concat (collect mixed)).IsUnnested := by
  have hlength : 2 ≤ mixed.length := by decide
  have hmixed : ∀ formula ∈ mixed, formula.IsUnnested := by
    simp [mixed, isUnnested_iff, items]
  have hone : (number "1").IsUnnested := by rintro items ⟨⟩
  obtain ⟨-, -, hgroupings, hconcat, hcollect⟩ := concat_collect_flat
  exact ⟨hlength, (hgroupings mixed hlength).2, hmixed, hcollect mixed hmixed,
    hconcat _ _ hone (hcollect mixed hmixed)⟩

end FormulaMarkup.Formula
