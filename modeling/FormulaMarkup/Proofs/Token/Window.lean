import Mathlib.Data.List.Chain
import FormulaMarkup.Proofs.Lexicon.Trie
import FormulaMarkup.Token.Lexer

/-!
# The window hides no spelling

A spelling is looked for in a window only, which ends early at a blank or a numeral. A key in which
such characters stand behind a backslash, and which is no longer than the window, is at the front
of the window whenever it is at the front of the text (`Scan.isPrefix_window`). So a lexicon of such
keys answers to the window as to the whole text (`Lexicon.Means.longest?_window`). All standard
spellings are of this form.
-/

namespace FormulaMarkup

namespace Scan

/-- A character that ends a spelling stands in the key only directly behind a backslash. -/
structure IsSpelling (key : List Char) : Prop where
  head : ∀ c ∈ key.head?, endsSpelling c = false
  chain : key.IsChain fun before c ↦ endsSpelling c = true → before = '\\'

instance (key : List Char) : Decidable (IsSpelling key) :=
  decidable_of_iff ((key.head?.all fun c ↦ !endsSpelling c) = true ∧
      key.IsChain fun before c ↦ endsSpelling c = true → before = '\\') <| by
    simp only [Option.all_eq_true, Bool.not_eq_true']
    exact ⟨fun h ↦ ⟨h.1, h.2⟩, fun h ↦ ⟨h.head, h.chain⟩⟩

theorem IsSpelling.tail {c : Char} {key : List Char} (h : IsSpelling (c :: key))
    (hhead : c = '\\' → ∀ next ∈ key.head?, endsSpelling next = false) : IsSpelling key := by
  obtain ⟨hnext, hchain⟩ := List.isChain_cons.mp h.chain
  refine ⟨fun next hmem ↦ ?_, hchain⟩
  by_contra hends
  rw [Bool.not_eq_false] at hends
  have hbackslash := hnext next hmem hends
  rw [hhead hbackslash next hmem] at hends
  cases hends

theorem endsSpelling_backslash : endsSpelling '\\' = false := by decide

theorem isPrefix_window {key cs : List Char} {room : Nat} (hkey : IsSpelling key)
    (hfits : key <+: cs) (hlength : key.length ≤ room) : key <+: window cs room := by
  fun_induction window cs room generalizing key with
  | case1 cs =>
    rw [List.length_eq_zero_iff.mp (Nat.le_zero.mp hlength)]
  | case2 room => exact hfits
  | case3 next cs room hends ih =>
    -- the backslash takes the character behind it along, so what follows starts anew
    rcases key with - | ⟨c, - | ⟨d, key⟩⟩
    · exact List.nil_prefix
    · obtain ⟨rfl, -⟩ := List.cons_prefix_cons.mp hfits
      exact List.cons_prefix_cons.mpr ⟨rfl, List.nil_prefix⟩
    · simp only [List.cons_prefix_cons] at hfits ⊢
      obtain ⟨rfl, rfl, hfits⟩ := hfits
      have hne : d ≠ '\\' := by
        rintro rfl
        rw [endsSpelling_backslash] at hends
        cases hends
      have hlater : IsSpelling key := by
        obtain ⟨hnext, hchain⟩ := List.isChain_cons.mp hkey.chain.tail
        exact ⟨fun c hmem ↦ Bool.eq_false_iff.mpr fun hc ↦ hne (hnext c hmem hc), hchain⟩
      have hroom : key.length ≤ room - 1 := by
        simp only [List.length_cons] at hlength
        omega
      exact ⟨rfl, rfl, ih hlater hfits hroom⟩
  | case4 next cs room hends ih =>
    cases key with
    | nil => exact List.nil_prefix
    | cons c key =>
      obtain ⟨rfl, hrest⟩ := List.cons_prefix_cons.mp hfits
      have hlater : IsSpelling key := by
        apply hkey.tail
        intro _ c hmem
        obtain ⟨key, rfl⟩ := List.head?_eq_some_iff.mp hmem
        rw [(List.cons_prefix_cons.mp hrest).1]
        exact Bool.eq_false_iff.mpr hends
      exact List.cons_prefix_cons.mpr ⟨rfl, ih hlater hrest (Nat.le_of_succ_le_succ hlength)⟩
  | case5 c cs room _ hends =>
    cases key with
    | nil => exact List.nil_prefix
    | cons d key =>
      obtain ⟨rfl, -⟩ := List.cons_prefix_cons.mp hfits
      rw [hkey.head d rfl] at hends
      cases hends
  | case6 c cs room hlast hends ih =>
    cases key with
    | nil => exact List.nil_prefix
    | cons d key =>
      obtain ⟨rfl, hrest⟩ := List.cons_prefix_cons.mp hfits
      have hlater : IsSpelling key := by
        apply hkey.tail
        -- a backslash comes here only as the last character
        rintro rfl next hmem
        obtain ⟨key, rfl⟩ := List.head?_eq_some_iff.mp hmem
        obtain ⟨cs, rfl, -⟩ := List.cons_prefix_iff.mp hrest
        exact absurd rfl (hlast next cs rfl)
      exact List.cons_prefix_cons.mpr ⟨rfl, ih hlater hrest (Nat.le_of_succ_le_succ hlength)⟩

end Scan

/-- If all keys are spellings that fit into the window, it may stand for the whole text. -/
theorem Lexicon.Means.longest?_window {μ α : Type} [Lexicon μ α] {lexicon : μ}
    {entries : Entries α} (h : Means lexicon entries) {room : Nat}
    (hkeys : ∀ entry ∈ entries, Scan.IsSpelling entry.1.toList ∧ entry.1.toList.length ≤ room)
    (text : List Char) : longest? lexicon (Scan.window text room) = longest? lexicon text := by
  have hanswers : entries.Answers text (longest? lexicon (Scan.window text room)) := by
    apply (h.answers _).of_isPrefix (Scan.window_isPrefix text room)
    intro entry hmem hfits
    exact Scan.isPrefix_window (hkeys entry hmem).1 hfits (hkeys entry hmem).2
  exact hanswers.unique (h.answers text)

/-! ## The standard spellings -/

namespace Symbol

theorem isSpelling_table : ∀ entry ∈ table,
    Scan.IsSpelling entry.1.toList ∧ entry.1.toList.length ≤ maxSpelling := by
  decide +kernel

theorem ne_empty_table : ∀ entry ∈ table, entry.1 ≠ "" := by
  decide +kernel

theorem toList_ne_nil_of_mem_table {entry : String × Entry} (h : entry ∈ table) :
    entry.1.toList ≠ [] := by
  simpa using ne_empty_table entry h

variable (τ : Type) [KeyTree τ Entry] [LawfulKeyTree τ]

theorem means_standardIn : Lexicon.Means (standardIn τ) table := TreeLexicon.means_ofEntries τ table

theorem longest?_standardIn_window (text : List Char) :
    Lexicon.longest? (standardIn τ) (Scan.window text maxSpelling) =
      Lexicon.longest? (standardIn τ) text :=
  (means_standardIn τ).longest?_window isSpelling_table text

end Symbol

end FormulaMarkup
