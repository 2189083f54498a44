import FormulaMarkup.Proofs.Token.Window

/-!
# How far the window reaches

The window is the longest spelling at the front of the text, where there is room for it. Where there
is not, the window fills its room, and one more character comes with it if a backslash at the end of
the room takes that character along (`Scan.IsLongestSpelling.window_eq`). Since each key that is a
spelling and fits is in the window, the longest key of the window is that of the text
(`Scan.window_maxSpelling`).
-/

namespace FormulaMarkup.Scan

/-- The longest front of the text in which a character that ends a spelling stands only directly
behind a backslash. -/
structure IsLongestSpelling (text front : List Char) : Prop where
  isPrefix : front <+: text
  isSpelling : IsSpelling front
  length_le : ∀ other, other <+: text → IsSpelling other → other.length ≤ front.length

/-- Does the room end between a backslash and a character that the backslash takes along? -/
def SplitsEscape (text : List Char) (room : Nat) : Prop :=
  room ≠ 0 ∧ text[room - 1]? = some '\\' ∧ text[room]?.any endsSpelling = true

instance (text : List Char) (room : Nat) : Decidable (SplitsEscape text room) :=
  inferInstanceAs (Decidable (_ ∧ _ ∧ _))

/-! ## Spellings -/

theorem isSpelling_nil : IsSpelling [] := ⟨by simp, .nil⟩

theorem IsSpelling.of_isPrefix {front key : List Char} (h : IsSpelling key)
    (hfront : front <+: key) : IsSpelling front := by
  refine ⟨fun c hmem ↦ ?_, h.chain.prefix hfront⟩
  obtain ⟨rest, rfl⟩ := List.head?_eq_some_iff.mp hmem
  obtain ⟨more, rfl⟩ := hfront
  exact h.head c rfl

theorem IsSpelling.cons {c : Char} {key : List Char} (h : IsSpelling key)
    (hc : endsSpelling c = false) : IsSpelling (c :: key) := by
  refine ⟨by simpa using hc, List.isChain_cons.mpr ⟨fun d hmem hends ↦ ?_, h.chain⟩⟩
  rw [h.head d hmem] at hends
  cases hends

/-- Behind a backslash any character may stand. -/
theorem IsSpelling.escaped {key : List Char} (h : IsSpelling key) (c : Char) :
    IsSpelling ('\\' :: c :: key) := by
  refine ⟨by simp [endsSpelling_backslash], .cons_cons (fun _ ↦ rfl) ?_⟩
  refine List.isChain_cons.mpr ⟨fun d hmem hends ↦ ?_, h.chain⟩
  rw [h.head d hmem] at hends
  cases hends

theorem isSpelling_window (text : List Char) (room : Nat) : IsSpelling (window text room) := by
  fun_induction window text room with
  | case1 | case2 | case5 => exact isSpelling_nil
  | case3 next cs room hends ih => exact ih.escaped next
  | case4 next cs room hends ih => exact ih.cons endsSpelling_backslash
  | case6 c cs room _ hends ih => exact ih.cons (Bool.eq_false_iff.mpr hends)

theorem exists_isLongestSpelling (text : List Char) :
    ∃ front, IsLongestSpelling text front := by
  refine ⟨window text text.length, window_isPrefix _ _, isSpelling_window _ _, ?_⟩
  intro other hother hspelling
  exact (isPrefix_window hspelling hother hother.length_le).length_le

/-! ## The end of the room -/

theorem not_splitsEscape_zero (text : List Char) : ¬ SplitsEscape text 0 := fun h ↦ h.1 rfl

theorem splitsEscape_one {c : Char} {text : List Char} : SplitsEscape (c :: text) 1 ↔
    c = '\\' ∧ text.head?.any endsSpelling = true := by
  simp [SplitsEscape, List.head?_eq_getElem?]

theorem splitsEscape_cons {c : Char} {text : List Char} {room : Nat}
    (h : ¬ SplitsEscape (c :: text) 1) :
    SplitsEscape (c :: text) (room + 1) ↔ SplitsEscape text room := by
  cases room with
  | zero => exact iff_of_false h (not_splitsEscape_zero text)
  | succ room => simp [SplitsEscape]

/-- A window that fills its room has one more character exactly if the room splits an escape. -/
theorem length_window_of_le {text : List Char} {room : Nat}
    (h : room ≤ (window text room).length) :
    (window text room).length = if SplitsEscape text room then room + 1 else room := by
  have hstep : ∀ {c cs} {room : Nat}, ¬ SplitsEscape (c :: cs) 1 →
      (if SplitsEscape (c :: cs) (room + 1) then room + 1 + 1 else room + 1) =
        (if SplitsEscape cs room then room + 1 else room) + 1 := by
    intro c cs room hne
    simp only [splitsEscape_cons hne]
    split <;> rfl
  fun_induction window text room with
  | case1 text => rw [if_neg (not_splitsEscape_zero text), List.length_nil]
  | case2 room hroom => exact absurd (Nat.le_zero.mp h) hroom
  | case3 next cs room hends ih =>
    cases room with
    | zero =>
      rw [if_pos (splitsEscape_one.mpr ⟨rfl, by simpa using hends⟩)]
      simp [window]
    | succ room =>
      -- what the backslash takes along is no backslash itself
      have hne : ¬ SplitsEscape (next :: cs) 1 := by
        rintro hsplits
        rw [(splitsEscape_one.mp hsplits).1, endsSpelling_backslash] at hends
        cases hends
      have hshift : SplitsEscape ('\\' :: next :: cs) (room + 1 + 1) ↔
          SplitsEscape (next :: cs) (room + 1) := by simp [SplitsEscape]
      rw [List.length_cons, List.length_cons, ih (by simpa using h)]
      simp only [hshift, splitsEscape_cons hne, Nat.add_sub_cancel]
      split <;> rfl
  | case4 next cs room hends ih =>
    have hne : ¬ SplitsEscape ('\\' :: next :: cs) 1 := by
      rintro hsplits
      exact hends (by simpa using (splitsEscape_one.mp hsplits).2)
    rw [List.length_cons, ih (Nat.le_of_succ_le_succ h), hstep hne]
  | case5 c cs room _ _ => exact absurd h (Nat.not_succ_le_zero room)
  | case6 c cs room hlast hends ih =>
    have hne : ¬ SplitsEscape (c :: cs) 1 := by
      rintro hsplits
      obtain ⟨rfl, hnext⟩ := splitsEscape_one.mp hsplits
      cases cs with
      | nil => cases hnext
      | cons next cs => exact hlast next cs rfl rfl
    rw [List.length_cons, ih (Nat.le_of_succ_le_succ h), hstep hne]

/-! ## The whole window -/

theorem IsLongestSpelling.window_eq {text front : List Char} (h : IsLongestSpelling text front)
    (room : Nat) : window text room =
      if front.length ≤ room then front
      else text.take (if SplitsEscape text room then room + 1 else room) := by
  have hwindow := window_isPrefix text room
  split
  · next hle =>
    have hfront := isPrefix_window h.isSpelling h.isPrefix hle
    exact (hfront.eq_of_length_le (h.length_le _ hwindow (isSpelling_window text room))).symm
  · next hgt =>
    -- what the room holds of the longest spelling is a spelling that fits
    have hpart : front.take room <+: window text room := by
      apply isPrefix_window (h.isSpelling.of_isPrefix (List.take_prefix room front))
      · exact (List.take_prefix room front).trans h.isPrefix
      · exact List.length_take_le room front
    have hroom : room ≤ (window text room).length := by
      have hle := hpart.length_le
      rw [List.length_take] at hle
      omega
    rw [List.prefix_iff_eq_take.mp hwindow, length_window_of_le hroom]

/-- The window is the longest spelling at the front of the text if this has at most 21 characters.
Else it is 21 characters, or 22 if a backslash at the end takes the last one along. A lexicon whose
keys are spellings of at most 21 characters answers to the window as to the text. -/
theorem window_maxSpelling (text : List Char) :
    (∃ front, IsLongestSpelling text front) ∧
      (∀ front, IsLongestSpelling text front →
        window text Symbol.maxSpelling =
          if front.length ≤ 21 then front
          else if text[20]? = some '\\' ∧ text[21]?.any endsSpelling = true then text.take 22
          else text.take 21) ∧
      ∀ {μ α : Type} [Lexicon μ α] (lexicon : μ) (entries : Entries α),
        Lexicon.Means lexicon entries →
        (∀ entry ∈ entries, IsSpelling entry.1.toList ∧ entry.1.toList.length ≤ 21) →
        Lexicon.longest? lexicon (window text Symbol.maxSpelling) =
          Lexicon.longest? lexicon text := by
  refine ⟨exists_isLongestSpelling text, fun front hfront ↦ ?_, ?_⟩
  · have hsplits : SplitsEscape text Symbol.maxSpelling ↔
        text[20]? = some '\\' ∧ text[21]?.any endsSpelling = true :=
      and_iff_right (by decide)
    rw [hfront.window_eq, apply_ite text.take]
    simp only [hsplits]
    rfl
  · intro μ α _ lexicon entries hmeans hkeys
    exact hmeans.longest?_window hkeys text

/-- Twenty letters, and a backslash with a blank on the border of the window. -/
def bordering : List Char := "aaaaaaaaaaaaaaaaaaaa\\ b".toList

/-- A key as long as the room that ends with a backslash, an escape, and a letter. -/
def escapes : Entries Nat := [("aaaaaaaaaaaaaaaaaaaa\\", 0), ("\\ ", 1), ("a", 2)]

theorem window_maxSpelling_bordering :
    IsLongestSpelling bordering bordering ∧
      window bordering Symbol.maxSpelling = "aaaaaaaaaaaaaaaaaaaa\\ ".toList ∧
      Lexicon.Means escapes escapes ∧
      (∀ entry ∈ escapes, IsSpelling entry.1.toList ∧ entry.1.toList.length ≤ 21) ∧
      Lexicon.longest? escapes (window bordering Symbol.maxSpelling) =
        Lexicon.longest? escapes bordering := by
  have hlongest : IsLongestSpelling bordering bordering :=
    ⟨List.prefix_rfl, by decide +kernel, fun _ hother _ ↦ hother.length_le⟩
  have hkeys : ∀ entry ∈ escapes, IsSpelling entry.1.toList ∧ entry.1.toList.length ≤ 21 := by
    decide +kernel
  obtain ⟨-, hwindow, hlookup⟩ := window_maxSpelling bordering
  have hmeans : Lexicon.Means escapes escapes := Entries.means escapes
  refine ⟨hlongest, ?_, hmeans, hkeys, hlookup escapes escapes hmeans hkeys⟩
  rw [hwindow bordering hlongest, if_neg (by decide), if_pos (by decide +kernel)]
  rfl

end FormulaMarkup.Scan
