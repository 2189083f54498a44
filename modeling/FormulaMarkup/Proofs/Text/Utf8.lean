import Mathlib.Data.List.Infix
import FormulaMarkup.Text.Utf8

/-!
# Fronts of a text and of its bytes

No encoded character is the front of another one. So the bytes of a text begin with those of a key
exactly where the text begins with the key (`bytes_isPrefix_iff`), and a text is known by its bytes.
Two fronts of one text are compared by their sizes.
-/

namespace FormulaMarkup.Utf8

@[simp]
theorem bytes_nil : bytes [] = [] := rfl

theorem bytes_cons (c : Char) (cs : List Char) :
    bytes (c :: cs) = String.utf8EncodeChar c ++ bytes cs := rfl

@[simp]
theorem bytes_append (cs ds : List Char) : bytes (cs ++ ds) = bytes cs ++ bytes ds :=
  List.flatMap_append

theorem size_toList (s : String) : size s.toList = s.utf8ByteSize := by
  rw [← length_bytes, ← String.size_toByteArray, ← String.utf8Encode_toList]
  exact List.size_toByteArray.symm

/-- The first character can be read off the bytes. -/
theorem eq_of_encoded_append_eq {c d : Char} {front rest : List UInt8}
    (h : String.utf8EncodeChar c ++ front = String.utf8EncodeChar d ++ rest) : c = d := by
  have hdecoded := congrArg (fun bytes : List UInt8 ↦ bytes.toByteArray.utf8DecodeChar? 0) h
  simp only [List.toByteArray_append, ByteArray.utf8DecodeChar?_utf8EncodeChar_append] at hdecoded
  exact Option.some.inj hdecoded

theorem isPrefix_of_bytes_isPrefix {front text : List Char} (h : bytes front <+: bytes text) :
    front <+: text := by
  induction front generalizing text with
  | nil => exact List.nil_prefix
  | cons c front ih =>
    obtain ⟨rest, hrest⟩ := h
    cases text with
    | nil => simp [bytes_cons] at hrest
    | cons d text =>
      rw [bytes_cons, bytes_cons, List.append_assoc] at hrest
      obtain rfl := eq_of_encoded_append_eq hrest
      exact List.cons_prefix_cons.mpr ⟨rfl, ih ⟨rest, List.append_cancel_left hrest⟩⟩

theorem bytes_isPrefix_iff {front text : List Char} :
    bytes front <+: bytes text ↔ front <+: text := by
  constructor
  · exact isPrefix_of_bytes_isPrefix
  · rintro ⟨rest, rfl⟩
    exact ⟨bytes rest, (bytes_append front rest).symm⟩

theorem bytes_injective : Function.Injective bytes := by
  intro cs ds h
  have hle : cs <+: ds := isPrefix_of_bytes_isPrefix (h ▸ List.prefix_rfl)
  have hge : ds <+: cs := isPrefix_of_bytes_isPrefix (h ▸ List.prefix_rfl)
  exact hle.eq_of_length_le hge.length_le

/-- The keys of a table are told apart by their bytes. -/
theorem bytes_toList_injective : Function.Injective fun key : String ↦ bytes key.toList :=
  bytes_injective.comp fun _ _ h ↦ String.toList_inj.mp h

/-- Of two fronts of a text the one of the smaller size is the front of the other. -/
theorem isPrefix_of_size_le {front longer text : List Char} (hfront : front <+: text)
    (hlonger : longer <+: text) (hle : size front ≤ size longer) : front <+: longer := by
  rw [← bytes_isPrefix_iff] at hfront hlonger ⊢
  exact List.prefix_of_prefix_length_le hfront hlonger (by simpa using hle)

theorem eq_of_size_eq {front other text : List Char} (hfront : front <+: text)
    (hother : other <+: text) (heq : size front = size other) : front = other := by
  have hle := isPrefix_of_size_le hfront hother heq.le
  have hge := isPrefix_of_size_le hother hfront heq.ge
  exact hle.eq_of_length_le hge.length_le

theorem size_le_iff_length_le {front other text : List Char} (hfront : front <+: text)
    (hother : other <+: text) : size front ≤ size other ↔ front.length ≤ other.length := by
  constructor
  · exact fun hle ↦ (isPrefix_of_size_le hfront hother hle).length_le
  · intro hle
    obtain ⟨more, rfl⟩ := List.prefix_of_prefix_length_le hfront hother hle
    simp

theorem utf8ByteSize_le_iff {front other : String} {text : List Char}
    (hfront : front.toList <+: text) (hother : other.toList <+: text) :
    front.utf8ByteSize ≤ other.utf8ByteSize ↔ front.length ≤ other.length := by
  rw [← size_toList, ← size_toList, size_le_iff_length_le hfront hother, String.length_toList,
    String.length_toList]

/-! ## The longest front of a size -/

theorem splitAt_isPrefix (room : Nat) (text : List Char) : (splitAt room text).1 <+: text :=
  ⟨(splitAt room text).2, splitAt_append room text⟩

theorem size_splitAt_le (room : Nat) (text : List Char) : size (splitAt room text).1 ≤ room := by
  induction text generalizing room with
  | nil => simp [splitAt]
  | cons c text ih =>
    simp only [splitAt]
    split
    · next hfits =>
      have htail := ih (room - c.utf8Size)
      simp only [size_cons]
      omega
    · simp

theorem isPrefix_splitAt_iff {front text : List Char} {room : Nat} :
    front <+: (splitAt room text).1 ↔ front <+: text ∧ size front ≤ room := by
  constructor
  · rintro ⟨rest, hrest⟩
    have hle := size_splitAt_le room text
    rw [← hrest, size_append] at hle
    refine ⟨List.IsPrefix.trans ⟨rest, hrest⟩ (splitAt_isPrefix room text), by omega⟩
  · rintro ⟨hfront, hle⟩
    induction front generalizing room text with
    | nil => exact List.nil_prefix
    | cons c front ih =>
      obtain ⟨rest, rfl⟩ := hfront
      rw [size_cons] at hle
      simp only [List.cons_append, splitAt, if_pos (Nat.le_of_add_right_le hle)]
      exact List.cons_prefix_cons.mpr ⟨rfl, ih (List.prefix_append front rest) (by omega)⟩

/-! ## The bytes of one character -/

/-- A character is the byte of its number, or it is not ASCII, and neither is its first byte. -/
theorem encoded_eq_or (c : Char) :
    (∃ byte, String.utf8EncodeChar c = [byte] ∧ Char.ofUInt8 byte = c) ∨
      128 ≤ c.toNat ∧ ∃ byte rest, String.utf8EncodeChar c = byte :: rest ∧
        128 ≤ (Char.ofUInt8 byte).toNat := by
  have hnumber : ∀ n : Nat, n < 256 → (Char.ofUInt8 (UInt8.ofNat n)).toNat = n := by
    intro n hn
    change (UInt8.ofNat n).toUInt32.toNat = n
    simpa using hn
  have hlead : ∀ n : Nat, 128 ≤ n → n < 256 → 128 ≤ (Char.ofUInt8 (UInt8.ofNat n)).toNat := by
    intro n hle hn
    rwa [hnumber n hn]
  rcases Nat.lt_or_ge c.val.toNat 128 with hlt | hge
  · refine .inl ⟨UInt8.ofNat c.val.toNat, ?_, ?_⟩
    · simp only [String.utf8EncodeChar, if_pos (Nat.le_of_lt_succ hlt)]
    · exact Char.toNat_inj.mp (hnumber _ (hlt.trans (by decide)))
  · refine .inr ⟨hge, ?_⟩
    simp only [String.utf8EncodeChar, if_neg (Nat.not_le.mpr hge)]
    split
    · exact ⟨_, _, rfl, hlead _ (by omega) (by omega)⟩
    · split <;> exact ⟨_, _, rfl, hlead _ (by omega) (by omega)⟩

end FormulaMarkup.Utf8
