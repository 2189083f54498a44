/-!
# Properties of characters by ranges

A property of characters is held as the ascending list of its maximal ranges of code points. The
lookup stops at the first range that starts behind the code point, so that the common characters,
which come first, cost little.
-/

namespace FormulaMarkup.Unicode

/-- Is the code point in one of the ascending, inclusive ranges? -/
def covers : List (Nat × Nat) → Nat → Bool
  | [], _ => false
  | (first, last) :: ranges, point =>
    if point < first then false else decide (point ≤ last) || covers ranges point

theorem exists_mem_of_covers {ranges : List (Nat × Nat)} {point : Nat}
    (h : covers ranges point = true) : ∃ range ∈ ranges, range.1 ≤ point ∧ point ≤ range.2 := by
  induction ranges with
  | nil => simp [covers] at h
  | cons range ranges ih =>
    obtain ⟨first, last⟩ := range
    simp only [covers] at h
    split at h
    · simp at h
    · rcases Bool.or_eq_true _ _ ▸ h with hlast | hrest
      · exact ⟨(first, last), List.mem_cons_self, by omega, by simpa using hlast⟩
      · obtain ⟨found, hmem, hfound⟩ := ih hrest
        exact ⟨found, List.mem_cons_of_mem _ hmem, hfound⟩

end FormulaMarkup.Unicode
