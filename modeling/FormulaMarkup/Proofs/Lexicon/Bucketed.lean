import FormulaMarkup.Lexicon.Bucketed
import FormulaMarkup.Proofs.Lexicon.Meaning

/-!
# Keys in buckets answer as their entries mean

Each key stands in the bucket of its size, with its last value (`stored?_ofEntries_eq_some_iff`). A
front of a text that is a key is found when its bucket is probed, and the probes go from large to
small, so the first hit is the longest key. The way of hashing is arbitrary throughout.
-/

namespace FormulaMarkup.Bucketed

variable {digest : String → UInt64} {α : Type}

/-- The value that the bucket of a size holds for a key, be it of this size or not. -/
def stored? (lexicon : Bucketed digest α) (size : Nat) (key : String) : Option α :=
  lexicon.buckets[size]?.bind (·[(⟨key⟩ : HashedKey digest)]?)

/-- Buckets that are added hold nothing. -/
theorem bind_getElem?_append_replicate (buckets : Array (Std.HashMap (HashedKey digest) α))
    (missing size : Nat) (key : HashedKey digest) :
    (buckets ++ Array.replicate missing ∅)[size]?.bind (·[key]?) =
      buckets[size]?.bind (·[key]?) := by
  by_cases hlt : size < buckets.size
  · rw [Array.getElem?_append_left hlt]
  · rw [Array.getElem?_append_right (Nat.not_lt.mp hlt), Array.getElem?_replicate,
      Array.getElem?_eq_none (Nat.not_lt.mp hlt)]
    split <;> simp

/-- An insertion changes one key in one bucket. -/
theorem stored?_insert (lexicon : Bucketed digest α) (key : String) (value : α) (size : Nat)
    (other : String) : (lexicon.insert key value).stored? size other =
      if key.utf8ByteSize = size ∧ key = other then some value else lexicon.stored? size other := by
  split
  · next heq =>
    obtain ⟨rfl, rfl⟩ := heq
    have hlt : key.utf8ByteSize <
        (lexicon.buckets ++ Array.replicate (key.utf8ByteSize + 1 - lexicon.buckets.size)
          (∅ : Std.HashMap (HashedKey digest) α)).size := by
      rw [Array.size_append, Array.size_replicate]
      omega
    simp [stored?, insert, Array.getElem?_modify, Array.getElem?_eq_getElem hlt]
  · next hne =>
    rw [stored?, stored?, insert, Array.getElem?_modify,
      ← bind_getElem?_append_replicate _ (key.utf8ByteSize + 1 - lexicon.buckets.size)]
    split
    · next hsize =>
      have hkey : key ≠ other := fun heq ↦ hne ⟨hsize, heq⟩
      rw [Option.bind_map]
      apply Option.bind_congr
      intro bucket _
      simp [Std.HashMap.getElem?_insert, hkey]
    · rfl

variable {entries : Entries α}

theorem ofEntries_concat (entries : Entries α) (entry : String × α) :
    (ofEntries (entries ++ [entry]) : Bucketed digest α) =
      (ofEntries entries).insert entry.1 entry.2 := by
  rw [ofEntries, List.foldl_append, List.foldl_cons, List.foldl_nil]
  rfl

/-- A bucket holds the keys of its size with their last values. -/
theorem stored?_ofEntries_eq_some_iff (digest : String → UInt64) {size : Nat} {key : String}
    {value : α} :
    (ofEntries entries : Bucketed digest α).stored? size key = some value ↔
      key.utf8ByteSize = size ∧ IsLast entries key value := by
  induction entries using List.reverseRecOn with
  | nil => exact iff_of_false nofun fun h ↦ not_isLast_nil h.2
  | append_singleton entries entry ih =>
    rw [ofEntries_concat, stored?_insert, isLast_concat]
    by_cases hkey : entry.1 = key
    · subst hkey
      by_cases hsize : entry.1.utf8ByteSize = size
      · simp [hsize, Prod.ext_iff]
      · simp [hsize, ih]
    · simp [hkey, ih, Prod.ext_iff]

theorem size_le_maxKeySize (digest : String → UInt64) {key : String} {value : α}
    (h : IsLast entries key value) :
    key.utf8ByteSize ≤ (ofEntries entries : Bucketed digest α).maxKeySize := by
  obtain ⟨bucket, hbucket, -⟩ :=
    Option.bind_eq_some_iff.mp ((stored?_ofEntries_eq_some_iff digest).mpr ⟨rfl, h⟩)
  exact Nat.le_sub_one_of_lt (Array.getElem?_eq_some_iff.mp hbucket).1

/-! ## Probes -/

theorem isLast_of_keyOfSize?_eq_some {text : List Char} {size : Nat} {hit : Hit α}
    (h : (ofEntries entries : Bucketed digest α).keyOfSize? text size = some hit) :
    ∃ key : String, key.toList <+: text ∧ key.utf8ByteSize = size ∧ hit.size = size ∧
      IsLast entries key hit.value := by
  obtain ⟨front, hfront, h⟩ := Option.bind_eq_some_iff.mp h
  obtain ⟨bucket, hbucket, h⟩ := Option.bind_eq_some_iff.mp h
  obtain ⟨value, hvalue, h⟩ := Option.bind_eq_some_iff.mp h
  cases h
  obtain ⟨hsize, hrest⟩ := Utf8.eq_append_of_take? hfront
  obtain ⟨key, rfl⟩ : ∃ key : String, front = key.toList :=
    ⟨String.ofList front, String.toList_ofList.symm⟩
  rw [Utf8.size_toList] at hsize
  rw [String.ofList_toList] at hvalue
  have hstored : (ofEntries entries : Bucketed digest α).stored? key.utf8ByteSize key =
      some value := by
    rw [stored?, hsize, hbucket]
    exact hvalue
  have hlast := ((stored?_ofEntries_eq_some_iff digest).mp hstored).2
  exact ⟨key, hrest.imp fun rest ↦ Eq.symm, hsize, rfl, hlast⟩

theorem keyOfSize?_of_isLast (digest : String → UInt64) {text : List Char} {key : String}
    {value : α} (hfits : key.toList <+: text) (hlast : IsLast entries key value) :
    (ofEntries entries : Bucketed digest α).keyOfSize? text key.utf8ByteSize =
      some ⟨key.utf8ByteSize, value⟩ := by
  obtain ⟨rest, rfl⟩ := hfits
  obtain ⟨bucket, hbucket, hvalue⟩ :=
    Option.bind_eq_some_iff.mp ((stored?_ofEntries_eq_some_iff digest).mpr ⟨rfl, hlast⟩)
  have hfront : Utf8.take? key.utf8ByteSize (key.toList ++ rest) = some key.toList := by
    rw [← Utf8.size_toList, Utf8.take?_size]
  rw [keyOfSize?, hfront, Option.bind_eq_bind, Option.bind_some, hbucket, Option.bind_eq_bind,
    Option.bind_some, String.ofList_toList, hvalue]
  rfl

/-- A probe without an answer says that no key has this size. -/
theorem ne_of_keyOfSize?_eq_none {text : List Char} {size : Nat}
    (h : (ofEntries entries : Bucketed digest α).keyOfSize? text size = none) :
    ∀ entry ∈ entries, entry.1.toList <+: text → entry.1.utf8ByteSize ≠ size := by
  rintro entry hmem hfits rfl
  obtain ⟨value, hlast⟩ := exists_isLast_of_mem hmem
  rw [keyOfSize?_of_isLast digest hfits hlast] at h
  cases h

/-- A probe answers the front of its size, as no key at the front of the text can be longer. -/
theorem answers_of_keyOfSize?_eq_some {text : List Char} {size : Nat} {hit : Hit α}
    (h : (ofEntries entries : Bucketed digest α).keyOfSize? text size = some hit) :
    entries.Answers (Utf8.splitAt size text).1 (some hit) := by
  obtain ⟨key, hfits, rfl, hhit, hlast⟩ := isLast_of_keyOfSize?_eq_some h
  refine ⟨key, Utf8.isPrefix_splitAt_iff.mpr ⟨hfits, (Utf8.size_toList key).le⟩, hhit, hlast, ?_⟩
  intro entry hmem hentry
  rw [← Utf8.size_toList]
  exact (Utf8.isPrefix_splitAt_iff.mp hentry).2

/-- Down from a size, the probes answer the longest front of this size. -/
theorem answers_longestUpTo? (digest : String → UInt64) (entries : Entries α) (text : List Char)
    (size : Nat) : entries.Answers (Utf8.splitAt size text).1
      ((ofEntries entries : Bucketed digest α).longestUpTo? text size) := by
  induction size with
  | zero =>
    rw [longestUpTo?]
    cases hprobe : (ofEntries entries : Bucketed digest α).keyOfSize? text 0 with
    | some hit => exact answers_of_keyOfSize?_eq_some hprobe
    | none =>
      intro entry hmem hfits
      obtain ⟨hfits, hle⟩ := Utf8.isPrefix_splitAt_iff.mp hfits
      rw [Utf8.size_toList] at hle
      exact ne_of_keyOfSize?_eq_none hprobe entry hmem hfits (Nat.le_zero.mp hle)
  | succ size ih =>
    rw [longestUpTo?]
    cases hprobe : (ofEntries entries : Bucketed digest α).keyOfSize? text (size + 1) with
    | some hit => exact answers_of_keyOfSize?_eq_some hprobe
    | none =>
      apply ih.of_isPrefix
      · rw [Utf8.isPrefix_splitAt_iff]
        exact ⟨Utf8.splitAt_isPrefix size text,
          (Utf8.size_splitAt_le size text).trans (Nat.le_succ size)⟩
      · intro entry hmem hfits
        obtain ⟨hfits, hle⟩ := Utf8.isPrefix_splitAt_iff.mp hfits
        have hne := ne_of_keyOfSize?_eq_none hprobe entry hmem hfits
        rw [← Utf8.size_toList] at hne
        exact Utf8.isPrefix_splitAt_iff.mpr ⟨hfits, Nat.le_of_lt_succ (lt_of_le_of_ne hle hne)⟩

theorem means_ofEntries (digest : String → UInt64) (entries : Entries α) :
    Lexicon.Means (ofEntries entries : Bucketed digest α) entries := by
  apply Lexicon.Means.of_answers
  intro text
  apply (answers_longestUpTo? digest entries text _).of_isPrefix (Utf8.splitAt_isPrefix _ text)
  intro entry hmem hfits
  obtain ⟨value, hlast⟩ := exists_isLast_of_mem hmem
  have hbucket := size_le_maxKeySize digest hlast
  refine Utf8.isPrefix_splitAt_iff.mpr ⟨hfits, le_min ?_ ?_⟩
  · obtain ⟨rest, hrest⟩ := hfits
    rw [← hrest, Utf8.size_append]
    exact Nat.le_add_right _ _
  · rwa [Utf8.size_toList]

end FormulaMarkup.Bucketed
