import FormulaMarkup.Formula.Source
import FormulaMarkup.Proofs.Color.Denotation
import FormulaMarkup.Proofs.Markup.Elements
import FormulaMarkup.Proofs.Text.Utf8

/-!
# Hexadecimal colors, read and written

The hexadecimal colors are the texts of a `#` and three or six hexadecimal digits
(`Rgb.exists_ofHex?_iff`). A component holds the number of its two digits, so these come back when
it is written: the six digit form of a color has the digits that it was read from, each twice if
there were three, in lower case (`Rgb.IsHex.hex_eq`). So the color that a formula is drawn in is
written as it was given, in the drawing and by the writer (`Formula.draw_hexColor`).

The digits may be read by characters or by bytes (`Rgb.ofHexBytes?_bytes`), because a character that
is not ASCII begins with a byte that is no digit.
-/

namespace FormulaMarkup

namespace Rgb

/-- The text is a `#` with these hexadecimal digits behind it, three or six in either case. -/
structure HasDigits (text written : List Char) : Prop where
  eq_cons : text = '#' :: written
  length : written.length = 3 ∨ written.length = 6
  isDigit : ∀ c ∈ written, c.toLower ∈ digits

/-- Six digits in lower case, in which three digits count twice each. -/
def sixDigits (written : List Char) : List Char :=
  (if written.length = 3 then written.flatMap fun c ↦ [c, c] else written).map Char.toLower

/-! ## Digits of a component -/

theorem exists_value?_iff {c : Char} : (∃ value, value? c = some value) ↔ c.toLower ∈ digits := by
  rw [← Option.ne_none_iff_exists', value?, ne_eq, List.idxOf?_eq_none_iff, not_not]

theorem digitChar_of_value? {c : Char} {value : Nat} (h : value? c = some value) :
    Nat.digitChar value = c.toLower := by
  have hall : ∀ place : Fin digits.length, Nat.digitChar place = digits[place] := by decide
  obtain ⟨hlt, heq, -⟩ := List.idxOf?_eq_some_iff.mp h
  exact (hall ⟨value, hlt⟩).trans heq

/-- Two digits write a number that a component can hold. -/
theorem exists_writes {high low : Char} (hhigh : high.toLower ∈ digits)
    (hlow : low.toLower ∈ digits) : ∃ component, Writes high low component := by
  obtain ⟨first, hfirst⟩ := exists_value?_iff.mpr hhigh
  obtain ⟨second, hsecond⟩ := exists_value?_iff.mpr hlow
  exact ⟨_, first, second, hfirst, hsecond, toNat_component (value?_lt hfirst) (value?_lt hsecond)⟩

theorem Writes.mem_digits {high low : Char} {component : UInt8} (h : Writes high low component) :
    high.toLower ∈ digits ∧ low.toLower ∈ digits := by
  obtain ⟨first, second, hfirst, hsecond, -⟩ := h
  exact ⟨exists_value?_iff.mp ⟨first, hfirst⟩, exists_value?_iff.mp ⟨second, hsecond⟩⟩

/-- A component is written with the digits that it was read from. -/
theorem Writes.hexDigits_eq {high low : Char} {component : UInt8} (h : Writes high low component) :
    hexDigits component = [high.toLower, low.toLower] := by
  obtain ⟨first, second, hfirst, hsecond, hvalue⟩ := h
  have hlt := value?_lt hsecond
  have hhigh : component.toNat / 16 = first := by omega
  have hlow : component.toNat % 16 = second := by omega
  rw [hexDigits, hhigh, hlow, digitChar_of_value? hfirst, digitChar_of_value? hsecond]

/-! ## Digits of a color -/

theorem HasDigits.exists_isHex {text written : List Char} (h : HasDigits text written) :
    ∃ rgb, IsHex text rgb := by
  obtain ⟨rfl, hlength, hdigit⟩ := h
  rcases hlength with hlength | hlength
  · obtain ⟨r, g, b, rfl⟩ := List.length_eq_three.mp hlength
    simp only [List.forall_mem_cons] at hdigit
    obtain ⟨hr, hg, hb, -⟩ := hdigit
    obtain ⟨red, hred⟩ := exists_writes hr hr
    obtain ⟨green, hgreen⟩ := exists_writes hg hg
    obtain ⟨blue, hblue⟩ := exists_writes hb hb
    exact ⟨⟨red, green, blue⟩, .short hred hgreen hblue⟩
  · match written, hlength with
    | [r, r', g, g', b, b'], _ =>
      simp only [List.forall_mem_cons] at hdigit
      obtain ⟨hr, hr', hg, hg', hb, hb', -⟩ := hdigit
      obtain ⟨red, hred⟩ := exists_writes hr hr'
      obtain ⟨green, hgreen⟩ := exists_writes hg hg'
      obtain ⟨blue, hblue⟩ := exists_writes hb hb'
      exact ⟨⟨red, green, blue⟩, .long hred hgreen hblue⟩

theorem IsHex.exists_hasDigits {text : List Char} {rgb : Rgb} (h : IsHex text rgb) :
    ∃ written, HasDigits text written := by
  cases h with
  | @short r g b rgb hred hgreen hblue =>
    refine ⟨[r, g, b], rfl, .inl rfl, ?_⟩
    simp [hred.mem_digits, hgreen.mem_digits, hblue.mem_digits]
  | @long r r' g g' b b' rgb hred hgreen hblue =>
    refine ⟨[r, r', g, g', b, b'], rfl, .inr rfl, ?_⟩
    simp [hred.mem_digits, hgreen.mem_digits, hblue.mem_digits]

/-- The texts that are read as hexadecimal colors are known by their digits. -/
theorem exists_ofHex?_iff {text : List Char} :
    (∃ rgb, ofHex? text = some rgb) ↔ ∃ written, HasDigits text written := by
  constructor
  · rintro ⟨rgb, hrgb⟩
    exact (isHex_iff.mpr hrgb).exists_hasDigits
  · rintro ⟨written, hwritten⟩
    exact hwritten.exists_isHex.imp fun _ ↦ isHex_iff.mp

/-- What is written for a color has the digits that it was read from. -/
theorem IsHex.hex_eq {text written : List Char} {rgb : Rgb} (h : IsHex text rgb)
    (hwritten : HasDigits text written) : rgb.hex = String.ofList ('#' :: sixDigits written) := by
  have htail := hwritten.eq_cons
  cases h with
  | short hred hgreen hblue | long hred hgreen hblue =>
    obtain rfl := (List.cons.inj htail).2
    rw [hex, hred.hexDigits_eq, hgreen.hexDigits_eq, hblue.hexDigits_eq]
    rfl

theorem HasDigits.isHex_ofText {text : String} {written : List Char}
    (h : HasDigits text.toList written) : IsHex text.toList (ofText text) := by
  obtain ⟨rgb, hrgb⟩ := h.exists_isHex
  have heq : ofText text = rgb := by rw [ofText, isHex_iff.mp hrgb]
  rwa [heq]

/-! ## Reading bytes -/

/-- The color of a text that is given by its bytes. The two digits of a component are put into the
upper and the lower half of its bits. -/
def ofHexBytes? : List UInt8 → Option Rgb
  | [] => none
  | byte :: bytes =>
    if Char.ofUInt8 byte = '#' then
      match bytes.mapM fun byte ↦ digit? (Char.ofUInt8 byte) with
      | some [r, g, b] => some ⟨r <<< 4 ||| r, g <<< 4 ||| g, b <<< 4 ||| b⟩
      | some [r, r', g, g', b, b'] => some ⟨r <<< 4 ||| r', g <<< 4 ||| g', b <<< 4 ||| b'⟩
      | _ => none
    else none

/-- Four bits are enough for a digit. -/
theorem component_eq_or {c d : Char} {high low : UInt8} (hhigh : digit? c = some high)
    (hlow : digit? d = some low) : component high low = high <<< 4 ||| low := by
  have hall : ∀ first second : Fin 16, component first.val.toUInt8 second.val.toUInt8 =
      first.val.toUInt8 <<< 4 ||| second.val.toUInt8 := by
    decide +kernel
  rw [digit?_eq, Option.map_eq_some_iff] at hhigh hlow
  obtain ⟨first, hfirst, rfl⟩ := hhigh
  obtain ⟨second, hsecond, rfl⟩ := hlow
  exact hall ⟨first, value?_lt hfirst⟩ ⟨second, value?_lt hsecond⟩

/-- Reading the bytes of a text as digits comes to the same as reading its characters. -/
theorem mapM_digit?_bytes (text : List Char) :
    ((Utf8.bytes text).mapM fun byte ↦ digit? (Char.ofUInt8 byte)) = text.mapM digit? := by
  induction text with
  | nil => rfl
  | cons c text ih =>
    rw [Utf8.bytes_cons, List.mapM_append, List.mapM_cons, ih]
    rcases Utf8.encoded_eq_or c with ⟨byte, hencoded, hbyte⟩ | ⟨hlarge, byte, rest, hencoded, hbyte⟩
    · rw [hencoded, List.mapM_cons, hbyte]
      cases digit? c <;> simp
    · rw [hencoded, List.mapM_cons, digit?_eq_none hbyte, digit?_eq_none hlarge]
      rfl

theorem ofHexBytes?_digits (text : List Char) :
    ofHexBytes? (Utf8.bytes ('#' :: text)) = ofHex? ('#' :: text) := by
  have hbytes : Utf8.bytes ('#' :: text) = 35 :: Utf8.bytes text := rfl
  rw [hbytes, ofHexBytes?, if_pos (by decide), mapM_digit?_bytes, ofHex?]
  cases hvalues : text.mapM digit? with
  | none => rfl
  | some values =>
    have hread := mapM_eq_some_iff.mp hvalues
    -- of all lengths only three and six make a color
    rcases values with _ | ⟨a, _ | ⟨b, _ | ⟨c, _ | ⟨d, _ | ⟨e, _ | ⟨f, _ | ⟨g, values⟩⟩⟩⟩⟩⟩⟩
    case some.cons.cons.cons.nil =>
      obtain _ | ⟨hr, _ | ⟨hg, _ | ⟨hb, _ | _⟩⟩⟩ := hread
      simp only [component_eq_or hr hr, component_eq_or hg hg, component_eq_or hb hb]
    case some.cons.cons.cons.cons.cons.cons.nil =>
      obtain _ | ⟨hr, _ | ⟨hr', _ | ⟨hg, _ | ⟨hg', _ | ⟨hb, _ | ⟨hb', _ | _⟩⟩⟩⟩⟩⟩ := hread
      simp only [component_eq_or hr hr', component_eq_or hg hg', component_eq_or hb hb']
    all_goals rfl

theorem ofHexBytes?_of_ne {c : Char} (hne : c ≠ '#') (text : List Char) :
    ofHexBytes? (Utf8.bytes (c :: text)) = none := by
  rw [Utf8.bytes_cons]
  rcases Utf8.encoded_eq_or c with ⟨byte, hencoded, rfl⟩ | ⟨-, byte, rest, hencoded, hbyte⟩
  · rw [hencoded, List.singleton_append, ofHexBytes?, if_neg hne]
  · have hother : Char.ofUInt8 byte ≠ '#' := by
      intro heq
      rw [heq] at hbyte
      exact absurd hbyte (by decide)
    rw [hencoded, List.cons_append, ofHexBytes?, if_neg hother]

theorem ofHexBytes?_bytes (text : List Char) : ofHexBytes? (Utf8.bytes text) = ofHex? text := by
  cases text with
  | nil => rfl
  | cons c text =>
    by_cases hc : c = '#'
    · rw [hc, ofHexBytes?_digits]
    · rw [ofHexBytes?_of_ne hc, ofHex?]
      rintro _ ⟨⟩
      exact hc rfl

/-! ## Drawing -/

theorem HasDigits.mem_digits_of_mem_sixDigits {text written : List Char}
    (h : HasDigits text written) : ∀ c ∈ sixDigits written, c ∈ digits := by
  intro c hmem
  obtain ⟨d, hd, rfl⟩ := List.mem_map.mp hmem
  apply h.isDigit
  split at hd
  · simpa using hd
  · exact hd

/-- Nothing of a six digit form is escaped. -/
theorem HasDigits.startTag_eq {text written : List Char} (h : HasDigits text written)
    (nonAscii : Bool) :
    Markup.startTag nonAscii .mstyle [⟨.mathcolor, String.ofList ('#' :: sixDigits written)⟩] =
      "<mstyle mathcolor=\"#".toList ++ sixDigits written ++ "\">".toList := by
  have hplain : ∀ c ∈ '#' :: digits, Markup.escapeChar nonAscii true c = [c] := by
    cases nonAscii <;> simp [digits, Markup.escapeChar]
  have hescape : Markup.escape nonAscii true ('#' :: sixDigits written) =
      '#' :: sixDigits written := by
    apply Markup.escape_eq_self
    rw [List.forall_mem_cons] at hplain ⊢
    exact ⟨hplain.1, fun c hmem ↦ hplain.2 c (h.mem_digits_of_mem_sixDigits c hmem)⟩
  simp only [Markup.startTag, List.flatMap_singleton, Markup.attributeChars, String.toList_ofList,
    hescape]
  simp [Tag.name, AttributeName.name]

end Rgb

namespace Formula

/-- A text is a hexadecimal color exactly if it is a `#` with three or six hexadecimal digits behind
it, and its components are the numbers that these write. The color that a formula is drawn in has
the same digits, each twice if there are three, in lower case, and these are written. -/
theorem draw_hexColor (text : String) :
    ((∃ rgb, Rgb.ofHex? text.toList = some rgb) ↔ ∃ written, Rgb.HasDigits text.toList written) ∧
      Rgb.ofHexBytes? (Utf8.bytes text.toList) = Rgb.ofHex? text.toList ∧
      ∀ written, Rgb.HasDigits text.toList written →
        Rgb.IsHex text.toList (Rgb.ofText text) ∧
        (∀ (options : Options) (operator : Operator) (operand second : Formula),
          operator.symbol = some .color → operand.source = text →
          draw options (.binary operator operand.toColor second) =
            ((draw options second).map fun base ↦
              .single (.element .mstyle
                [⟨.mathcolor, String.ofList ('#' :: Rgb.sixDigits written)⟩]
                (base.place .avoid))) ∧
          ∀ (σ : Type) [Sink σ],
            (content options (.binary operator operand.toColor second) : Writing σ Unit) = do
              .chars ("<mstyle mathcolor=\"#".toList ++ Rgb.sixDigits written ++ "\">".toList)
              .node .avoid ⟨second, second.content options⟩
              .put "</mstyle>") ∧
        ∀ nonAscii, Markup.startTag nonAscii .mstyle
            [⟨.mathcolor, String.ofList ('#' :: Rgb.sixDigits written)⟩] =
          "<mstyle mathcolor=\"#".toList ++ Rgb.sixDigits written ++ "\">".toList := by
  refine ⟨Rgb.exists_ofHex?_iff, Rgb.ofHexBytes?_bytes _, fun written hwritten ↦ ?_⟩
  have hhex := hwritten.isHex_ofText
  refine ⟨hhex, ?_, hwritten.startTag_eq⟩
  rintro options operator operand second hcolor rfl
  constructor
  · rw [draw, Drawing.ofBinary, hcolor, ← hhex.hex_eq hwritten]
    rfl
  · intro σ _
    rw [← hwritten.startTag_eq options.escapeNonAscii, ← hhex.hex_eq hwritten,
      ← Writing.startTag_mathcolor, content, Writing.binary, hcolor]
    rfl

/-- Three digits of either case. -/
theorem draw_hexColor_short :
    Rgb.HasDigits "#F0a".toList ['F', '0', 'a'] ∧ (text "#F0a").source = "#F0a" ∧
      Rgb.ofText "#F0a" = ⟨255, 0, 170⟩ ∧
      draw {} (.binary ⟨some .color, "color"⟩ (text "#F0a").toColor (.text "x")) =
        .ok (.single (.element .mstyle [⟨.mathcolor, "#ff00aa"⟩] [.leaf .mtext "x"])) ∧
      Markup.startTag false .mstyle [⟨.mathcolor, "#ff00aa"⟩] =
        "<mstyle mathcolor=\"#ff00aa\">".toList := by
  have hdigits : Rgb.HasDigits "#F0a".toList ['F', '0', 'a'] :=
    ⟨rfl, .inl rfl, by simp [Rgb.digits]⟩
  obtain ⟨-, -, hcolor⟩ := draw_hexColor "#F0a"
  obtain ⟨hhex, hdraw, htag⟩ := hcolor _ hdigits
  have hvalue : Rgb.ofText "#F0a" = ⟨255, 0, 170⟩ := by decide +kernel
  obtain ⟨hdrawing, -⟩ := hdraw {} ⟨some .color, "color"⟩ (text "#F0a") (.text "x") rfl rfl
  exact ⟨hdigits, rfl, hvalue, hdrawing, htag false⟩

end Formula

end FormulaMarkup
