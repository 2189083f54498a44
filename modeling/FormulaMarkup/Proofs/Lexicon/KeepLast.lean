import FormulaMarkup.Proofs.Lexicon.Meaning

/-!
# Sorting entries and keeping the last of each key

A sort that keeps the order of entries of one key does not change which value of a key is the last.
In sorted entries those of one key are neighbours, so `keepLast` leaves the last of each key and no
other entry.
-/

namespace FormulaMarkup

variable {κ α : Type}

/-- An order of entries that is decided by their keys. -/
structure OrdersKeys (le : κ × α → κ × α → Bool) : Prop where
  trans : ∀ a b c, le a b = true → le b c = true → le a c = true
  total : ∀ a b, (le a b || le b a) = true
  antisymm : ∀ a b, le a b = true → le b a = true → a.1 = b.1
  of_eq : ∀ a b, a.1 = b.1 → le a b = true

variable {le : κ × α → κ × α → Bool} {entries : List (κ × α)} {key : κ} {value : α}

theorem isLast_filter [DecidableEq κ] :
    IsLast (entries.filter fun entry ↦ entry.1 = key) key value ↔ IsLast entries key value := by
  induction entries using List.reverseRecOn with
  | nil => rfl
  | append_singleton entries entry ih =>
    rw [List.filter_append, isLast_concat, ← ih]
    by_cases heq : entry.1 = key
    · rw [List.filter_singleton, decide_eq_true heq, cond_true, isLast_concat]
    · rw [List.filter_singleton, decide_eq_false heq, cond_false, List.append_nil]
      simp [Prod.ext_iff, heq]

theorem OrdersKeys.filter_mergeSort [DecidableEq κ] (h : OrdersKeys le) (entries : List (κ × α))
    (key : κ) : ((entries.mergeSort le).filter fun entry ↦ entry.1 = key) =
      entries.filter fun entry ↦ entry.1 = key := by
  have hpairwise : (entries.filter fun entry ↦ entry.1 = key).Pairwise fun a b ↦ le a b = true := by
    apply List.pairwise_of_forall_mem_list
    intro a ha b hb
    have hkey := of_decide_eq_true (List.mem_filter.mp ha).2
    exact h.of_eq a b (hkey.trans (of_decide_eq_true (List.mem_filter.mp hb).2).symm)
  have hsublist := (List.sublist_mergeSort h.trans h.total hpairwise List.filter_sublist).filter
    fun entry ↦ decide (entry.1 = key)
  rw [List.filter_filter] at hsublist
  simp only [Bool.and_self] at hsublist
  exact (hsublist.eq_of_length
    ((List.mergeSort_perm entries le).filter _).length_eq.symm).symm

theorem OrdersKeys.isLast_mergeSort [DecidableEq κ] (h : OrdersKeys le) :
    IsLast (entries.mergeSort le) key value ↔ IsLast entries key value := by
  rw [← isLast_filter, h.filter_mergeSort, isLast_filter]

/-- In sorted entries a key that differs from the next one does not come again. -/
theorem OrdersKeys.ne_of_ne_next (h : OrdersKeys le) {entry next : κ × α}
    {rest : List (κ × α)} (hsorted : (entry :: next :: rest).Pairwise fun a b ↦ le a b = true)
    (hne : entry.1 ≠ next.1) : ∀ other ∈ next :: rest, other.1 ≠ entry.1 := by
  obtain ⟨hentry, htail⟩ := List.pairwise_cons.mp hsorted
  have hnext := (List.pairwise_cons.mp htail).1
  intro other hmem heq
  rcases List.mem_cons.mp hmem with rfl | hmem
  · exact hne heq.symm
  · apply hne
    apply h.antisymm _ _ (hentry next List.mem_cons_self)
    exact h.trans _ _ _ (hnext other hmem) (h.of_eq _ _ heq)

section KeepLast

variable [DecidableEq κ]

theorem keepLast_sublist (entries : List (κ × α)) :
    (keepLast entries).Sublist entries := by
  fun_induction keepLast entries with
  | case1 => exact List.Sublist.refl _
  | case2 => exact List.Sublist.refl _
  | case3 entry next rest heq ih => exact ih.cons entry
  | case4 entry next rest hne ih => exact ih.cons_cons entry

theorem OrdersKeys.mem_keepLast_iff (h : OrdersKeys le)
    (hsorted : entries.Pairwise fun a b ↦ le a b = true) :
    (key, value) ∈ keepLast entries ↔ IsLast entries key value := by
  fun_induction keepLast entries with
  | case1 => simp [not_isLast_nil]
  | case2 entry =>
    rw [List.mem_singleton, isLast_cons]
    simp [not_isLast_nil, eq_comm]
  | case3 entry next rest heq ih =>
    rw [ih hsorted.of_cons, isLast_cons entry, or_iff_left]
    rintro ⟨rfl, hother⟩
    exact hother next List.mem_cons_self heq.symm
  | case4 entry next rest hne ih =>
    rw [List.mem_cons, ih hsorted.of_cons, isLast_cons entry, or_comm,
      eq_comm (b := entry)]
    apply or_congr_right
    rw [iff_self_and]
    rintro rfl
    exact h.ne_of_ne_next hsorted hne

theorem OrdersKeys.pairwise_keepLast (h : OrdersKeys le)
    (hsorted : entries.Pairwise fun a b ↦ le a b = true) :
    (keepLast entries).Pairwise fun a b ↦ le a b = true ∧ a.1 ≠ b.1 := by
  fun_induction keepLast entries with
  | case1 => exact List.Pairwise.nil
  | case2 entry => exact List.pairwise_singleton _ _
  | case3 entry next rest heq ih => exact ih hsorted.of_cons
  | case4 entry next rest hne ih =>
    refine List.pairwise_cons.mpr ⟨?_, ih hsorted.of_cons⟩
    intro other hmem
    have hother := (keepLast_sublist (next :: rest)).subset hmem
    exact ⟨(List.pairwise_cons.mp hsorted).1 other hother,
      (h.ne_of_ne_next hsorted hne other hother).symm⟩

end KeepLast

/-! ## Sorted entries without two of one key -/

theorem OrdersKeys.pairwise_mergeSort (h : OrdersKeys le) (entries : List (κ × α)) :
    (entries.mergeSort le).Pairwise fun a b ↦ le a b = true :=
  List.pairwise_mergeSort h.trans h.total entries

theorem OrdersKeys.mem_keepLast_mergeSort_iff [DecidableEq κ] (h : OrdersKeys le) :
    (key, value) ∈ keepLast (entries.mergeSort le) ↔ IsLast entries key value := by
  rw [h.mem_keepLast_iff (h.pairwise_mergeSort entries), h.isLast_mergeSort]

end FormulaMarkup
