import FormulaMarkup.Lexicon.Sorted
import FormulaMarkup.Proofs.Lexicon.KeepLast

/-!
# Sorted keys answer as their entries mean

The entries of a sorted lexicon hold each key once, with its last value (`mem_entries_ofEntries`),
and a longer key comes before a shorter one. So the first key at the front of a text is the longest.
-/

namespace FormulaMarkup.Sorted

variable {α : Type}

theorem inOrder_iff {a b : String × α} : inOrder a b = true ↔
    b.1.utf8ByteSize < a.1.utf8ByteSize ∨ a.1.utf8ByteSize = b.1.utf8ByteSize ∧
      Utf8.bytes a.1.toList ≤ Utf8.bytes b.1.toList := by
  unfold inOrder
  split
  · next heq => simp [heq]
  · next hne => simp [hne]

theorem ordersKeys_inOrder : OrdersKeys (inOrder : String × α → String × α → Bool) where
  trans a b c hab hbc := by
    rw [inOrder_iff] at hab hbc ⊢
    rcases hab with hab | ⟨hab, hbytes⟩
    · rcases hbc with hbc | ⟨hbc, -⟩
      · exact .inl (hbc.trans hab)
      · exact .inl (hbc ▸ hab)
    · rcases hbc with hbc | ⟨hbc, hbytes'⟩
      · exact .inl (hab ▸ hbc)
      · exact .inr ⟨hab.trans hbc, List.le_trans hbytes hbytes'⟩
  total a b := by
    rw [Bool.or_eq_true, inOrder_iff, inOrder_iff]
    rcases Nat.lt_trichotomy a.1.utf8ByteSize b.1.utf8ByteSize with hlt | heq | hgt
    · exact .inr (.inl hlt)
    · exact (List.le_total (Utf8.bytes a.1.toList) (Utf8.bytes b.1.toList)).imp
        (fun hle ↦ .inr ⟨heq, hle⟩) fun hge ↦ .inr ⟨heq.symm, hge⟩
    · exact .inl (.inl hgt)
  antisymm a b hab hba := by
    rw [inOrder_iff] at hab hba
    rcases hab with hab | ⟨heq, hle⟩
    · rcases hba with hba | ⟨hba, -⟩ <;> omega
    · rcases hba with hba | ⟨-, hge⟩
      · omega
      · exact Utf8.bytes_toList_injective (List.le_antisymm hle hge)
  of_eq a b heq := by
    rw [inOrder_iff, heq]
    exact .inr ⟨rfl, List.le_refl _⟩

variable {entries : Entries α}

/-- The lexicon holds the last value of each key, and no other. -/
theorem mem_entries_ofEntries {key : String} {value : α} :
    (key, value) ∈ (ofEntries entries).entries ↔ IsLast entries key value :=
  ordersKeys_inOrder.mem_keepLast_mergeSort_iff

theorem pairwise_entries_ofEntries (entries : Entries α) :
    (ofEntries entries).entries.Pairwise fun a b ↦ inOrder a b = true ∧ a.1 ≠ b.1 :=
  ordersKeys_inOrder.pairwise_keepLast (ordersKeys_inOrder.pairwise_mergeSort entries)

theorem size_le_of_inOrder {a b : String × α} (h : inOrder a b = true) :
    b.1.utf8ByteSize ≤ a.1.utf8ByteSize := by
  rcases inOrder_iff.mp h with hlt | ⟨heq, -⟩
  · exact hlt.le
  · exact heq.ge

theorem answers_longest? (entries : Entries α) (text : List Char) :
    entries.Answers text ((ofEntries entries).longest? text) := by
  have hheld : ∀ entry ∈ entries, ∃ value, (entry.1, value) ∈ (ofEntries entries).entries :=
    fun entry hmem ↦ (exists_isLast_of_mem hmem).imp fun _ ↦ mem_entries_ofEntries.mpr
  cases hanswer : (ofEntries entries).longest? text with
  | none =>
    intro entry hmem hfits
    obtain ⟨value, hvalue⟩ := hheld entry hmem
    have hnone := List.findSome?_eq_none_iff.mp hanswer _ hvalue
    simp [List.isPrefixOf_iff_prefix.mpr hfits] at hnone
  | some hit =>
    obtain ⟨before, ⟨key, value⟩, after, hsplit, hfound, hbefore⟩ :=
      List.findSome?_eq_some_iff.mp hanswer
    split at hfound
    · next hfront =>
      cases hfound
      have hmem : (key, value) ∈ (ofEntries entries).entries := by simp [hsplit]
      refine ⟨key, List.isPrefixOf_iff_prefix.mp hfront, rfl, mem_entries_ofEntries.mp hmem, ?_⟩
      intro entry hentry hfits
      obtain ⟨last, hlast⟩ := hheld entry hentry
      have hsorted := pairwise_entries_ofEntries entries
      rw [hsplit] at hlast hsorted
      -- what stands before the first fitting key does not fit, and what stands behind is not longer
      rcases List.mem_append.mp hlast with hlast | hlast
      · have hnone := hbefore _ hlast
        simp [List.isPrefixOf_iff_prefix.mpr hfits] at hnone
      · rcases List.mem_cons.mp hlast with heq | hlast
        · exact (congrArg (·.1.utf8ByteSize) heq).le
        · have htail := (List.pairwise_append.mp hsorted).2.1
          exact size_le_of_inOrder ((List.pairwise_cons.mp htail).1 _ hlast).1
    · cases hfound

theorem means_ofEntries (entries : Entries α) : Lexicon.Means (ofEntries entries) entries :=
  .of_answers (answers_longest? entries)

end FormulaMarkup.Sorted
