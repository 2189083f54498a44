import FormulaMarkup.Proofs.Lexicon.Meaning

/-!
# Longest keys among byte strings

Some lexicons look at the bytes of a text, also between the bytes of one character. For these the
longest key is said on byte strings (`FrontAnswers`). If the byte strings are those of the keys of a
table, the answer is the one that the table gives to the text (`Entries.Answers.of_bytes`).
-/

namespace FormulaMarkup

variable {α : Type}

/-- The hit is the longest known byte string at the front of the bytes, with what is known of it. -/
def IsLongestFront (get? : List UInt8 → Option α) (bytes : List UInt8) (hit : Hit α) : Prop :=
  ∃ key, key <+: bytes ∧ hit.size = key.length ∧ get? key = some hit.value ∧
    ∀ other, other <+: bytes → get? other ≠ none → other.length ≤ key.length

/-- The answer to the bytes of a text. -/
def FrontAnswers (get? : List UInt8 → Option α) (bytes : List UInt8) : Option (Hit α) → Prop
  | some hit => IsLongestFront get? bytes hit
  | none => ∀ key, key <+: bytes → get? key = none

variable {get? : List UInt8 → Option α} {bytes : List UInt8} {answer : Option (Hit α)}

/-- Bytes that are known as a whole are their own longest front. -/
theorem frontAnswers_self {value : α} (h : get? bytes = some value) :
    FrontAnswers get? bytes (some ⟨bytes.length, value⟩) :=
  ⟨bytes, List.prefix_rfl, rfl, h, fun _ hother _ ↦ hother.length_le⟩

/-- To no bytes the empty byte string answers, if it is known. -/
theorem frontAnswers_nil (get? : List UInt8 → Option α) :
    FrontAnswers get? [] ((get? []).map fun value ↦ ⟨0, value⟩) := by
  cases hvalue : get? [] with
  | some value => exact frontAnswers_self hvalue
  | none =>
    intro key hfits
    rw [List.prefix_nil.mp hfits]
    exact hvalue

/-- An answer to a front is one to all bytes if no longer front is known. -/
theorem FrontAnswers.of_isPrefix {front : List UInt8} (h : FrontAnswers get? front answer)
    (hfront : front <+: bytes) (hkeys : ∀ key, key <+: bytes → get? key ≠ none → key <+: front) :
    FrontAnswers get? bytes answer := by
  cases answer with
  | none =>
    intro key hfits
    by_contra hne
    exact hne (h key (hkeys key hfits hne))
  | some hit =>
    obtain ⟨key, hkey, hsize, hvalue, hlongest⟩ := h
    exact ⟨key, hkey.trans hfront, hsize, hvalue,
      fun other hfits hne ↦ hlongest other (hkeys other hfits hne) hne⟩

/-- A front that is not known itself does not change the answer. -/
theorem FrontAnswers.concat {byte : UInt8} (h : FrontAnswers get? bytes answer)
    (hnone : get? (bytes ++ [byte]) = none) : FrontAnswers get? (bytes ++ [byte]) answer := by
  apply h.of_isPrefix (List.prefix_append bytes [byte])
  intro key hfits hne
  refine (List.prefix_concat_iff.mp hfits).resolve_left ?_
  rintro rfl
  exact hne hnone

/-- If nothing known starts with a front, the answer to this front is one to all that follows. -/
theorem FrontAnswers.append (h : FrontAnswers get? bytes answer) (rest : List UInt8)
    (hnone : ∀ key, bytes <+: key → get? key = none) :
    FrontAnswers get? (bytes ++ rest) answer := by
  apply h.of_isPrefix (List.prefix_append bytes rest)
  intro key hfits hne
  rcases List.prefix_or_prefix_of_prefix hfits (List.prefix_append bytes rest) with hkey | hkey
  · exact hkey
  · exact absurd (hnone key hkey) hne

/-- The entries, by the bytes of their keys. -/
def Entries.keyed (entries : Entries α) : List (List UInt8 × α) :=
  entries.map fun entry ↦ (Utf8.bytes entry.1.toList, entry.2)

variable {entries : Entries α}

theorem Entries.isLast_keyed {key : String} {value : α} :
    IsLast entries.keyed (Utf8.bytes key.toList) value ↔ IsLast entries key value :=
  isLast_map Utf8.bytes_toList_injective

theorem Entries.exists_of_isLast_keyed {key : List UInt8} {value : α}
    (h : IsLast entries.keyed key value) :
    ∃ name : String, key = Utf8.bytes name.toList ∧ IsLast entries name value := by
  obtain ⟨entry, -, heq⟩ := List.mem_map.mp h.mem
  obtain ⟨rfl, rfl⟩ := Prod.mk.inj heq
  exact ⟨entry.1, rfl, isLast_keyed.mp h⟩

/-- Where the byte strings of the keys are known with their last values, the answer to the bytes of
a text is the answer to the text. -/
theorem Entries.Answers.of_bytes {text : List Char}
    (hget : ∀ key value, get? key = some value ↔ IsLast entries.keyed key value)
    (h : FrontAnswers get? (Utf8.bytes text) answer) : entries.Answers text answer := by
  have hknown : ∀ entry ∈ entries, get? (Utf8.bytes entry.1.toList) ≠ none := by
    intro entry hmem
    obtain ⟨value, hlast⟩ := exists_isLast_of_mem hmem
    rw [(hget _ _).mpr (isLast_keyed.mpr hlast)]
    exact Option.some_ne_none value
  cases answer with
  | none =>
    intro entry hmem hfits
    exact hknown entry hmem (h _ (Utf8.bytes_isPrefix_iff.mpr hfits))
  | some hit =>
    obtain ⟨key, hkey, hsize, hvalue, hlongest⟩ := h
    obtain ⟨name, rfl, hlast⟩ := exists_of_isLast_keyed ((hget _ _).mp hvalue)
    rw [Utf8.length_bytes, Utf8.size_toList] at hsize
    refine ⟨name, Utf8.bytes_isPrefix_iff.mp hkey, hsize, hlast, ?_⟩
    intro entry hmem hfits
    have hle := hlongest _ (Utf8.bytes_isPrefix_iff.mpr hfits) (hknown entry hmem)
    simpa only [Utf8.length_bytes, Utf8.size_toList] using hle

end FormulaMarkup
