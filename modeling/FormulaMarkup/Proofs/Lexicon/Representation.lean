import FormulaMarkup.Proofs.Lexicon.Bucketed
import FormulaMarkup.Proofs.Lexicon.Sorted

/-!
# What sorted keys and buckets hold

Lexicons that answer alike may hold different things. Here is said what is held: sorted keys stand
in a strict order, and each bucket has the keys of its size and no other (`Sorted.Represents`,
`Bucketed.Represents`). In both, each key that was given is held once, with its last value, and
`Lexicon.represents_sorted_and_bucketed` says that every list of entries comes to this.

What a bucket holds is known from the insertions (`Bucketed.stored?_ofEntries_eq_some_iff`). How
many buckets there are is known from them too: each adds buckets up to the size of its key
(`Bucketed.size_insert`).
-/

namespace FormulaMarkup

variable {α : Type}

theorem exists_isLast_iff {entries : Entries α} {key : String} :
    (∃ value, IsLast entries key value) ↔ ∃ value, (key, value) ∈ entries := by
  constructor
  · rintro ⟨value, hlast⟩
    exact ⟨value, hlast.mem⟩
  · rintro ⟨value, hmem⟩
    exact exists_isLast_of_mem hmem

/-! ## Sorted keys -/

namespace Sorted

/-- Each key of the entries is held once, with its last value. The keys go down by their sizes, and
those of one size go up by their bytes. -/
structure Represents (lexicon : Sorted α) (entries : Entries α) : Prop where
  ordered : lexicon.entries.Pairwise fun a b ↦ b.1.utf8ByteSize < a.1.utf8ByteSize ∨
    a.1.utf8ByteSize = b.1.utf8ByteSize ∧ Utf8.bytes a.1.toList < Utf8.bytes b.1.toList
  nodup_keys : lexicon.keys.Nodup
  mem_keys_iff : ∀ key, key ∈ lexicon.keys ↔ ∃ value, (key, value) ∈ entries
  mem_entries_iff : ∀ key value, (key, value) ∈ lexicon.entries ↔ IsLast entries key value

/-- Of two entries with different keys one comes strictly before the other. -/
theorem lt_of_inOrder {a b : String × α} (h : inOrder a b = true) (hne : a.1 ≠ b.1) :
    b.1.utf8ByteSize < a.1.utf8ByteSize ∨
      a.1.utf8ByteSize = b.1.utf8ByteSize ∧ Utf8.bytes a.1.toList < Utf8.bytes b.1.toList := by
  refine (inOrder_iff.mp h).imp_right (And.imp_right fun hle ↦ ?_)
  by_contra hlt
  exact hne (Utf8.bytes_toList_injective (List.le_antisymm hle (List.not_lt.mp hlt)))

theorem represents_ofEntries (entries : Entries α) : (ofEntries entries).Represents entries where
  ordered := (pairwise_entries_ofEntries entries).imp fun h ↦ lt_of_inOrder h.1 h.2
  nodup_keys := List.pairwise_map.mpr ((pairwise_entries_ofEntries entries).imp And.right)
  mem_keys_iff key := by
    simp only [keys, List.mem_map, Prod.exists, exists_and_right, exists_eq_right,
      mem_entries_ofEntries, exists_isLast_iff]
  mem_entries_iff _ _ := mem_entries_ofEntries

end Sorted

/-! ## Buckets -/

namespace Bucketed

variable {digest : String → UInt64}

/-- Each bucket holds the keys of its size with their last values, there is one for each key, and
the last one is that of the longest key. -/
structure Represents (lexicon : Bucketed digest α) (entries : Entries α) : Prop where
  stored_iff : ∀ size bucket, lexicon.buckets[size]? = some bucket → ∀ key value,
    bucket[(⟨key⟩ : HashedKey digest)]? = some value ↔
      key.utf8ByteSize = size ∧ IsLast entries key value
  mem_iff : ∀ size bucket, lexicon.buckets[size]? = some bucket → ∀ key,
    (⟨key⟩ : HashedKey digest) ∈ bucket ↔
      key.utf8ByteSize = size ∧ ∃ value, (key, value) ∈ entries
  size_lt : ∀ entry ∈ entries, entry.1.utf8ByteSize < lexicon.buckets.size
  maxKeySize_eq : lexicon.maxKeySize = (entries.map fun entry ↦ entry.1.utf8ByteSize).max?.getD 0

theorem size_insert (lexicon : Bucketed digest α) (key : String) (value : α) :
    (lexicon.insert key value).buckets.size = max lexicon.buckets.size (key.utf8ByteSize + 1) := by
  rw [insert, Array.size_modify, Array.size_append, Array.size_replicate]
  omega

variable {entries : Entries α}

/-- There are as many buckets as the sizes of the keys ask for. -/
theorem size_ofEntries_le_iff {count : Nat} :
    (ofEntries entries : Bucketed digest α).buckets.size ≤ count ↔
      ∀ entry ∈ entries, entry.1.utf8ByteSize < count := by
  induction entries using List.reverseRecOn with
  | nil => simp [ofEntries, empty]
  | append_singleton entries entry ih =>
    rw [ofEntries_concat, size_insert, Nat.max_le, ih, List.forall_mem_append,
      List.forall_mem_singleton, Nat.succ_le_iff]

theorem maxKeySize_ofEntries (entries : Entries α) :
    (ofEntries entries : Bucketed digest α).maxKeySize =
      (entries.map fun entry ↦ entry.1.utf8ByteSize).max?.getD 0 := by
  cases hmax : (entries.map fun entry ↦ entry.1.utf8ByteSize).max? with
  | none =>
    obtain rfl := List.map_eq_nil_iff.mp (List.max?_eq_none_iff.mp hmax)
    rfl
  | some largest =>
    obtain ⟨hmem, hlargest⟩ := List.max?_eq_some_iff.mp hmax
    rw [List.forall_mem_map] at hlargest
    obtain ⟨entry, hentry, rfl⟩ := List.mem_map.mp hmem
    have hle : (ofEntries entries : Bucketed digest α).buckets.size ≤
        entry.1.utf8ByteSize + 1 :=
      size_ofEntries_le_iff.mpr fun other hother ↦ Nat.lt_succ_of_le (hlargest other hother)
    have hlt : entry.1.utf8ByteSize < (ofEntries entries : Bucketed digest α).buckets.size :=
      size_ofEntries_le_iff.mp le_rfl entry hentry
    rw [maxKeySize, Option.getD_some]
    omega

section Bucket

variable {size : Nat} {bucket : Std.HashMap (HashedKey digest) α}
  (hbucket : (ofEntries entries : Bucketed digest α).buckets[size]? = some bucket)

include hbucket

theorem getElem?_bucket_eq_some_iff {key : String} {value : α} :
    bucket[(⟨key⟩ : HashedKey digest)]? = some value ↔
      key.utf8ByteSize = size ∧ IsLast entries key value := by
  have hstored : (ofEntries entries : Bucketed digest α).stored? size key =
      bucket[(⟨key⟩ : HashedKey digest)]? := by
    rw [stored?, hbucket, Option.bind_some]
  rw [← hstored, stored?_ofEntries_eq_some_iff digest]

theorem mem_bucket_iff {key : String} : (⟨key⟩ : HashedKey digest) ∈ bucket ↔
    key.utf8ByteSize = size ∧ ∃ value, (key, value) ∈ entries := by
  rw [← Std.HashMap.isSome_getElem?_iff_mem, Option.isSome_iff_exists]
  simp only [getElem?_bucket_eq_some_iff hbucket, exists_and_left, exists_isLast_iff]

end Bucket

theorem represents_ofEntries (digest : String → UInt64) (entries : Entries α) :
    (ofEntries entries : Bucketed digest α).Represents entries where
  stored_iff _ _ hbucket _ _ := getElem?_bucket_eq_some_iff hbucket
  mem_iff _ _ hbucket _ := mem_bucket_iff hbucket
  size_lt := size_ofEntries_le_iff.mp le_rfl
  maxKeySize_eq := maxKeySize_ofEntries entries

end Bucketed

/-- However entries are given, sorted keys and buckets hold each key once and where it belongs, with
its last value. -/
theorem Lexicon.represents_sorted_and_bucketed (digest : String → UInt64) (entries : Entries α) :
    (Sorted.ofEntries entries).Represents entries ∧
      (Bucketed.ofEntries entries : Bucketed digest α).Represents entries :=
  ⟨Sorted.represents_ofEntries entries, Bucketed.represents_ofEntries digest entries⟩

end FormulaMarkup
