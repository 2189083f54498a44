import FormulaMarkup.Proofs.Markup.Contents

/-!
# References for the characters that are not ASCII

With `nonAscii`, such a character is written as a reference by its code, and without it as itself.
`Markup.decode` puts the characters of these references back and leaves all other text, the named
references too. It knows nothing of the markup that it goes through.

So what is written with `nonAscii` is ASCII, and decoding makes of it what is written without
(`Markup.encodes_chars`). A text that looks like such a reference is no exception, since its
ampersand is written as a named one. And where all references are resolved, the text itself comes
back (`Markup.escape_reversible`).
-/

namespace FormulaMarkup.Markup

open WellFormed

/-- The character of a reference by code, by what is between its ampersand and its end. -/
def coded? : List Char → Option Char
  | '#' :: 'x' :: digits =>
    let value := hexadecimalValue (digits.map Char.toUpper)
    if digits ≠ [] ∧ digits.all (isHexDigit ·.toUpper) ∧ value.isValidChar then
      some (Char.ofNat value)
    else none
  | _ => none

/-- Puts back the characters of references by code. Within a reference, `begun` is what was read of
it. It does not reach beyond another ampersand. -/
def decodeFrom : Option (List Char) → List Char → List Char
  | none, [] => []
  | some begun, [] => '&' :: begun
  | none, c :: rest => if c = '&' then decodeFrom (some []) rest else c :: decodeFrom none rest
  | some begun, c :: rest =>
    if c = '&' then '&' :: begun ++ decodeFrom (some []) rest
    else if c = ';' then
      ((coded? begun).elim ('&' :: begun ++ [';']) ([·])) ++ decodeFrom none rest
    else decodeFrom (some (begun ++ [c])) rest

def decode (cs : List Char) : List Char := decodeFrom none cs

@[simp]
theorem decode_nil : decode [] = [] := rfl

/-- What is written is ASCII, and it is decoded to this text, whatever stands behind it. -/
structure Encodes (written text : List Char) : Prop where
  isAscii : ∀ c ∈ written, c.toNat < 0x80
  decodes : ∀ rest, decode (written ++ rest) = text ++ decode rest

theorem encodes_nil : Encodes [] [] where
  isAscii := List.forall_mem_nil _
  decodes _ := rfl

theorem Encodes.append {written text more later : List Char} (h : Encodes written text)
    (hmore : Encodes more later) : Encodes (written ++ more) (text ++ later) where
  isAscii := List.forall_mem_append.mpr ⟨h.isAscii, hmore.isAscii⟩
  decodes rest := by rw [List.append_assoc, h.decodes, hmore.decodes, List.append_assoc]

theorem Encodes.decode_eq {written text : List Char} (h : Encodes written text) :
    decode written = text := by
  have hdecodes := h.decodes []
  rwa [List.append_nil, decode_nil, List.append_nil] at hdecodes

/-- ASCII without an ampersand is left as it is. -/
theorem encodes_self {cs : List Char} (h : ∀ c ∈ cs, c.toNat < 0x80 ∧ c ≠ '&') :
    Encodes cs cs where
  isAscii c hmem := (h c hmem).1
  decodes rest := by
    induction cs with
    | nil => rfl
    | cons c cs ih =>
      obtain ⟨hc, hcs⟩ := List.forall_mem_cons.mp h
      have hrest := ih hcs
      rw [decode] at hrest
      rw [decode, List.cons_append, decodeFrom, if_neg hc.2, hrest]
      rfl

/-! ## References -/

/-- A reference is read to its end. It is replaced if it is one by code. -/
theorem decodeFrom_reference {name : List Char} (hname : ∀ c ∈ name, c ≠ '&' ∧ c ≠ ';')
    (begun rest : List Char) :
    decodeFrom (some begun) (name ++ ';' :: rest) =
      (coded? (begun ++ name)).elim ('&' :: (begun ++ name) ++ [';']) ([·]) ++
        decodeFrom none rest := by
  induction name generalizing begun with
  | nil =>
    rw [List.nil_append, List.append_nil, decodeFrom, if_neg (by decide), if_pos rfl]
  | cons first name ih =>
    obtain ⟨hfirst, hname⟩ := List.forall_mem_cons.mp hname
    rw [List.cons_append, decodeFrom, if_neg hfirst.1, if_neg hfirst.2, ih hname,
      List.append_assoc, List.singleton_append]

theorem encodes_reference {name : List Char}
    (hname : ∀ c ∈ name, c.toNat < 0x80 ∧ c ≠ '&' ∧ c ≠ ';') :
    Encodes ('&' :: name ++ [';']) ((coded? name).elim ('&' :: name ++ [';']) ([·])) where
  isAscii := by
    rw [List.forall_mem_append, List.forall_mem_cons]
    exact ⟨⟨by decide, fun c hmem ↦ (hname c hmem).1⟩, by simp⟩
  decodes rest := by
    rw [decode, List.append_assoc, List.cons_append, decodeFrom, if_pos rfl]
    exact decodeFrom_reference (fun c hmem ↦ (hname c hmem).2) [] rest

/-- A named reference stays. -/
theorem encodes_named {name : List Char}
    (hname : ∀ c ∈ name, c.toNat < 0x80 ∧ c ≠ '&' ∧ c ≠ ';') (hcode : coded? name = none) :
    Encodes ('&' :: name ++ [';']) ('&' :: name ++ [';']) := by
  have hencodes := encodes_reference hname
  rwa [hcode] at hencodes

theorem le_of_isHexDigit {c : Char} (h : isHexDigit c = true) : c ≤ 'F' := by
  simp only [isHexDigit, Char.isDigit, Bool.or_eq_true, Bool.and_eq_true, decide_eq_true_eq] at h
  rcases h with ⟨-, hle⟩ | ⟨-, hle⟩
  · exact UInt32.le_trans hle (by decide)
  · exact hle

theorem toUpper_of_isHexDigit {c : Char} (h : isHexDigit c = true) : c.toUpper = c := by
  unfold Char.toUpper
  rw [dif_neg]
  rintro ⟨hlower, -⟩
  exact absurd (UInt32.le_trans hlower (le_of_isHexDigit h)) (by decide)

theorem coded?_hexadecimal (c : Char) : coded? ('#' :: 'x' :: hexadecimal c.toNat) = some c := by
  have hdigits := isHexDigit_of_mem_hexadecimal c.toNat
  have hupper : ∀ d ∈ hexadecimal c.toNat, d.toUpper = d :=
    fun d hmem ↦ toUpper_of_isHexDigit (hdigits d hmem)
  have hne : hexadecimal c.toNat ≠ [] := by simp [hexadecimal, Nat.toDigits_ne_nil]
  have hmap : (hexadecimal c.toNat).map Char.toUpper = hexadecimal c.toNat := by
    rw [List.map_congr_left hupper, List.map_id']
  have hall : (hexadecimal c.toNat).all (isHexDigit ·.toUpper) = true := by
    rw [List.all_eq_true]
    intro d hmem
    rw [hupper d hmem]
    exact hdigits d hmem
  rw [coded?, hmap, hexadecimalValue_hexadecimal, if_pos ⟨hne, hall, c.valid⟩, Char.ofNat_toNat]

theorem encodes_code (c : Char) :
    Encodes ('&' :: '#' :: 'x' :: hexadecimal c.toNat ++ [';']) [c] := by
  have hdigits : ∀ d ∈ hexadecimal c.toNat, d.toNat < 0x80 ∧ d ≠ '&' ∧ d ≠ ';' := by
    intro d hmem
    have hdigit := isHexDigit_of_mem_hexadecimal c.toNat d hmem
    have hle : d.toNat ≤ 'F'.toNat := UInt32.le_iff_toNat_le.mp (le_of_isHexDigit hdigit)
    refine ⟨Nat.lt_of_le_of_lt hle (by decide), (ne_of_isHexDigit hdigit).1, ?_⟩
    rintro rfl
    exact semicolon_notMem_hexadecimal c.toNat hmem
  have hname : ∀ d ∈ '#' :: 'x' :: hexadecimal c.toNat, d.toNat < 0x80 ∧ d ≠ '&' ∧ d ≠ ';' := by
    rw [List.forall_mem_cons, List.forall_mem_cons]
    exact ⟨by decide, by decide, hdigits⟩
  have hencodes := encodes_reference hname
  rwa [coded?_hexadecimal] at hencodes

/-! ## Texts -/

theorem encodes_escapeChar (quotes : Bool) (c : Char) :
    Encodes (escapeChar true quotes c) (escapeChar false quotes c) := by
  unfold escapeChar
  split
  · exact @encodes_named ['a', 'm', 'p'] (by simp) rfl
  · next hampersand =>
    split
    · exact @encodes_named ['l', 't'] (by simp) rfl
    · split
      · exact @encodes_named ['g', 't'] (by simp) rfl
      · split
        · exact @encodes_named ['q', 'u', 'o', 't'] (by simp) rfl
        · split
          · exact encodes_code c
          · next hascii =>
            have hlt : c.toNat < 0x80 := by simpa using hascii
            exact encodes_self (List.forall_mem_singleton.mpr ⟨hlt, hampersand⟩)

theorem encodes_escape (quotes : Bool) (text : List Char) :
    Encodes (escape true quotes text) (escape false quotes text) := by
  induction text with
  | nil => exact encodes_nil
  | cons c text ih =>
    rw [escape_cons, escape_cons]
    exact (encodes_escapeChar quotes c).append ih

/-- A text comes back from its escaped form, in which no character of markup stands for itself and,
where it is asked for, all is ASCII. -/
theorem escape_reversible (nonAscii quotes : Bool) :
    Function.LeftInverse unescape (escape nonAscii quotes) ∧
      Function.Injective (escape nonAscii quotes) ∧
      ∀ text, IsData quotes (escape nonAscii quotes text) ∧
        (nonAscii = true → ∀ c ∈ escape nonAscii quotes text, c.toNat < 0x80) := by
  have hinverse : Function.LeftInverse unescape (escape nonAscii quotes) :=
    unescape_escape nonAscii quotes
  refine ⟨hinverse, hinverse.injective, fun text ↦ ⟨isData_escape nonAscii quotes text, ?_⟩⟩
  rintro rfl
  exact (encodes_escape quotes text).isAscii

/-- A text in which a character of markup, a reference and a character that is not ASCII occur. -/
theorem escape_reversible_reference :
    let text := "<&#x3B1;\u03b1\">".toList
    escape true true text = "&lt;&amp;#x3B1;&#x3B1;&quot;&gt;".toList ∧
      unescape (escape true true text) = text ∧
      ∀ c ∈ escape true true text, c.toNat < 0x80 := by
  intro text
  obtain ⟨hinverse, -, hall⟩ := escape_reversible true true
  exact ⟨rfl, hinverse text, (hall text).2 rfl⟩

/-! ## Markup -/

/-- The characters of a name do not begin a reference. -/
theorem encodes_name {name : List Char} (h : IsName name) : Encodes name name := by
  apply encodes_self
  intro c hmem
  have halpha : (c.isUpper || c.isLower) = true := List.all_eq_true.mp h.2 c hmem
  constructor
  · rcases Bool.or_eq_true_iff.mp halpha with hupper | hlower
    · have hle : c ≤ 'Z' := (of_decide_eq_true hupper).2
      exact Nat.lt_of_le_of_lt (UInt32.le_iff_toNat_le.mp hle) (by decide)
    · have hle : c ≤ 'z' := of_decide_eq_true (Bool.and_eq_true_iff.mp hlower).2
      exact Nat.lt_of_le_of_lt (UInt32.le_iff_toNat_le.mp hle) (by decide)
  · rintro rfl
    cases halpha

theorem encodes_openTag {name : String} (h : IsName name.toList) :
    Encodes (openTag name) (openTag name) :=
  ((@encodes_self ['<'] (by simp)).append (encodes_name h)).append
    (@encodes_self ['>'] (by simp))

theorem encodes_closeTag {name : String} (h : IsName name.toList) :
    Encodes (closeTag name) (closeTag name) :=
  ((@encodes_self ['<', '/'] (by simp)).append (encodes_name h)).append
    (@encodes_self ['>'] (by simp))

theorem encodes_attributeChars (item : Attribute) :
    Encodes (attributeChars true item) (attributeChars false item) := by
  have hname := (@encodes_self [' '] (by simp)).append
    (encodes_name (isName_attributeName item.name))
  have hvalue := encodes_escape true item.value.toList
  exact ((hname.append (@encodes_self ['=', '"'] (by simp))).append hvalue).append
    (@encodes_self ['"'] (by simp))

theorem encodes_startTag (tag : Tag) (attributes : List Attribute) :
    Encodes (startTag true tag attributes) (startTag false tag attributes) := by
  have hattributes : Encodes (attributes.flatMap (attributeChars true))
      (attributes.flatMap (attributeChars false)) := by
    induction attributes with
    | nil => exact encodes_nil
    | cons item attributes ih => exact (encodes_attributeChars item).append ih
  have hname := (@encodes_self ['<'] (by simp)).append (encodes_name (isName_tag tag))
  exact (hname.append hattributes).append (@encodes_self ['>'] (by simp))

mutual

/-- Markup is written in ASCII with `nonAscii`, and decoded as it is written without. -/
theorem encodes_chars : ∀ markup : Markup, Encodes (markup.chars true) (markup.chars false)
  | leaf tag text =>
    ((encodes_openTag (isName_leafTag tag)).append (encodes_escape false text.toList)).append
      (encodes_closeTag (isName_leafTag tag))
  | element tag attributes children =>
    ((encodes_startTag tag attributes).append (encodes_charsOfList children)).append
      (encodes_closeTag (isName_tag tag))

theorem encodes_charsOfList :
    ∀ list : List Markup, Encodes (charsOfList true list) (charsOfList false list)
  | [] => encodes_nil
  | markup :: rest => (encodes_chars markup).append (encodes_charsOfList rest)

end

theorem decode_write (markup : Markup) :
    markup.write false = String.ofList (decode (markup.write true).toList) := by
  rw [write, write, String.toList_ofList, (encodes_chars markup).decode_eq]

end FormulaMarkup.Markup
