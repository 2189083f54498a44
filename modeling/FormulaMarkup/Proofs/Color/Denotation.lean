import FormulaMarkup.Color
import Mathlib.Data.List.Forall2
import Mathlib.Data.List.Nodup

/-!
# What a text means as a color

`Rgb.Denotes` says it by cases that exclude each other. A `#` with three or six hexadecimal digits
behind it is a color by its digits, each of which is worth its place among the sixteen and counts
twice if there are three. Another text is the color of the name that it spells in whatever case, and
black if it spells none. Each text denotes one color, and `Rgb.ofText` reads it
(`Rgb.denotes_iff`).
-/

namespace FormulaMarkup.Rgb

/-- The hexadecimal digits in the order of their values. -/
def digits : List Char :=
  ['0', '1', '2', '3', '4', '5', '6', '7', '8', '9', 'a', 'b', 'c', 'd', 'e', 'f']

/-- The value of a hexadecimal digit is its place, in either case. -/
def value? (c : Char) : Option Nat := digits.idxOf? c.toLower

/-- The number that two hexadecimal digits write. -/
def Writes (high low : Char) (component : UInt8) : Prop :=
  ∃ first second, value? high = some first ∧ value? low = some second ∧
    component.toNat = 16 * first + second

inductive IsHex : List Char → Rgb → Prop
  | short {r g b : Char} {rgb : Rgb} (hred : Writes r r rgb.red) (hgreen : Writes g g rgb.green)
      (hblue : Writes b b rgb.blue) : IsHex ['#', r, g, b] rgb
  | long {r r' g g' b b' : Char} {rgb : Rgb} (hred : Writes r r' rgb.red)
      (hgreen : Writes g g' rgb.green) (hblue : Writes b b' rgb.blue) :
      IsHex ['#', r, r', g, g', b, b'] rgb

/-- Does the text spell the name, whatever the case of its ASCII letters is? -/
def Spells (text name : String) : Prop := text.toList.map Char.toLower = name.toList

inductive Denotes (text : String) : Rgb → Prop
  | hex {rgb : Rgb} (h : IsHex text.toList rgb) : Denotes text rgb
  | name {name : String} {rgb : Rgb} (hhex : ∀ other, ¬ IsHex text.toList other)
      (hmem : (name, rgb) ∈ palette) (hspells : Spells text name) : Denotes text rgb
  | neither (hhex : ∀ other, ¬ IsHex text.toList other)
      (hnames : ∀ known ∈ palette, ¬ Spells text known.1) : Denotes text black

/-! ## Digits -/

theorem value?_lt {c : Char} {value : Nat} (h : value? c = some value) : value < 16 :=
  (List.idxOf?_eq_some_iff.mp h).1

theorem value?_eq_none {c : Char} (h : 128 ≤ c.toNat) : value? c = none := by
  have hlower : c.toLower = c := by
    apply dif_neg
    rintro ⟨-, hle⟩
    have hle : c.toNat ≤ 90 := UInt32.le_iff_toNat_le.mp hle
    omega
  have hsmall : ∀ digit ∈ digits, digit.toNat < 128 := by simp [digits]
  rw [value?, List.idxOf?_eq_none_iff, hlower]
  exact fun hmem ↦ absurd (hsmall c hmem) (Nat.not_lt.mpr h)

theorem digit?_eq_none {c : Char} (h : 128 ≤ c.toNat) : digit? c = none := by
  have hgt : ∀ last : Char, last.toNat < 128 → ¬ c ≤ last := by
    intro last hlast hle
    have hle : c.toNat ≤ last.toNat := UInt32.le_iff_toNat_le.mp hle
    omega
  have hdigit : c.isDigit = false := by
    rw [Bool.eq_false_iff]
    intro hdigit
    exact hgt '9' (by decide) (of_decide_eq_true (Bool.and_eq_true_iff.mp hdigit).2)
  rw [digit?, hdigit, if_neg Bool.false_ne_true, if_neg fun hlower ↦ hgt 'f' (by decide) hlower.2,
    if_neg fun hupper ↦ hgt 'F' (by decide) hupper.2]

/-- The ranges of digits are read as their places. -/
theorem digit?_eq (c : Char) : digit? c = (value? c).map Nat.toUInt8 := by
  by_cases h : c.toNat < 128
  · have hascii : ∀ n < 128, digit? (Char.ofNat n) = (value? (Char.ofNat n)).map Nat.toUInt8 := by
      decide +kernel
    have heq := hascii c.toNat h
    rwa [Char.ofNat_toNat] at heq
  · have hlarge := Nat.not_lt.mp h
    rw [digit?_eq_none hlarge, value?_eq_none hlarge, Option.map_none]

theorem toNat_component {first second : Nat} (hfirst : first < 16) (hsecond : second < 16) :
    (component first.toUInt8 second.toUInt8).toNat = 16 * first + second := by
  simp [component]
  omega

theorem writes_iff {high low : Char} {value : UInt8} :
    Writes high low value ↔
      ∃ first second, digit? high = some first ∧ digit? low = some second ∧
        value = component first second := by
  simp only [digit?_eq, Option.map_eq_some_iff]
  constructor
  · rintro ⟨first, second, hhigh, hlow, hvalue⟩
    refine ⟨_, _, ⟨first, hhigh, rfl⟩, ⟨second, hlow, rfl⟩, ?_⟩
    rw [← UInt8.toNat_inj, hvalue, toNat_component (value?_lt hhigh) (value?_lt hlow)]
  · rintro ⟨_, _, ⟨first, hhigh, rfl⟩, ⟨second, hlow, rfl⟩, rfl⟩
    exact ⟨first, second, hhigh, hlow, toNat_component (value?_lt hhigh) (value?_lt hlow)⟩

/-! ## Digits of a color -/

theorem mapM_eq_some_iff {α β : Type} {read : α → Option β} {items : List α} {values : List β} :
    items.mapM read = some values ↔
      List.Forall₂ (fun item value ↦ read item = some value) items values := by
  induction items generalizing values with
  | nil => cases values <;> simp
  | cons item items ih =>
    simp only [List.mapM_cons, Option.bind_eq_bind, Option.bind_eq_some_iff, Option.pure_def,
      Option.some.injEq, ih, List.forall₂_cons_left_iff]
    constructor
    · rintro ⟨value, hvalue, values, hvalues, rfl⟩
      exact ⟨value, values, hvalue, hvalues, rfl⟩
    · rintro ⟨value, values, hvalue, hvalues, rfl⟩
      exact ⟨value, hvalue, values, hvalues, rfl⟩

theorem IsHex.ofHex?_eq {text : List Char} {rgb : Rgb} (h : IsHex text rgb) :
    ofHex? text = some rgb := by
  cases h with
  | @short r g b rgb hred hgreen hblue =>
    obtain ⟨x, x', hx, hx', hred⟩ := writes_iff.mp hred
    obtain ⟨y, y', hy, hy', hgreen⟩ := writes_iff.mp hgreen
    obtain ⟨z, z', hz, hz', hblue⟩ := writes_iff.mp hblue
    obtain rfl := Option.some.inj (hx.symm.trans hx')
    obtain rfl := Option.some.inj (hy.symm.trans hy')
    obtain rfl := Option.some.inj (hz.symm.trans hz')
    have hvalues : [r, g, b].mapM digit? = some [x, y, z] :=
      mapM_eq_some_iff.mpr (.cons hx (.cons hy (.cons hz .nil)))
    simp only [ofHex?, hvalues, ← hred, ← hgreen, ← hblue]
  | @long r r' g g' b b' rgb hred hgreen hblue =>
    obtain ⟨x, x', hx, hx', hred⟩ := writes_iff.mp hred
    obtain ⟨y, y', hy, hy', hgreen⟩ := writes_iff.mp hgreen
    obtain ⟨z, z', hz, hz', hblue⟩ := writes_iff.mp hblue
    have hvalues : [r, r', g, g', b, b'].mapM digit? = some [x, x', y, y', z, z'] :=
      mapM_eq_some_iff.mpr
        (.cons hx (.cons hx' (.cons hy (.cons hy' (.cons hz (.cons hz' .nil))))))
    simp only [ofHex?, hvalues, ← hred, ← hgreen, ← hblue]

theorem isHex_of_ofHex? {text : List Char} {rgb : Rgb} (h : ofHex? text = some rgb) :
    IsHex text rgb := by
  unfold ofHex? at h
  split at h
  · next text =>
    split at h
    · next hvalues =>
      cases h
      obtain _ | ⟨hr, _ | ⟨hg, _ | ⟨hb, _ | _⟩⟩⟩ := mapM_eq_some_iff.mp hvalues
      exact .short (writes_iff.mpr ⟨_, _, hr, hr, rfl⟩) (writes_iff.mpr ⟨_, _, hg, hg, rfl⟩)
        (writes_iff.mpr ⟨_, _, hb, hb, rfl⟩)
    · next hvalues =>
      cases h
      obtain _ | ⟨hr, _ | ⟨hr', _ | ⟨hg, _ | ⟨hg', _ | ⟨hb, _ | ⟨hb', _ | _⟩⟩⟩⟩⟩⟩ :=
        mapM_eq_some_iff.mp hvalues
      exact .long (writes_iff.mpr ⟨_, _, hr, hr', rfl⟩) (writes_iff.mpr ⟨_, _, hg, hg', rfl⟩)
        (writes_iff.mpr ⟨_, _, hb, hb', rfl⟩)
    · cases h
  · cases h

theorem isHex_iff {text : List Char} {rgb : Rgb} : IsHex text rgb ↔ ofHex? text = some rgb :=
  ⟨IsHex.ofHex?_eq, isHex_of_ofHex?⟩

/-! ## Names -/

/-- A name stands for one color. -/
theorem eq_of_mem_palette {name : String} {first second : Rgb} (hfirst : (name, first) ∈ palette)
    (hsecond : (name, second) ∈ palette) : first = second := by
  have hnodup : (palette.map Prod.fst).Nodup := by decide
  exact congrArg Prod.snd (List.inj_on_of_nodup_map hnodup hfirst hsecond rfl)

theorem exists_name {text : String} {rgb : Rgb} (h : ofName? text = some rgb) :
    ∃ name, (name, rgb) ∈ palette ∧ Spells text name := by
  obtain ⟨known, hfind, rfl⟩ := Option.map_eq_some_iff.mp h
  have hspells := List.find?_some hfind
  exact ⟨known.1, List.mem_of_find?_eq_some hfind, (of_decide_eq_true hspells).symm⟩

theorem not_spells {text : String} (h : ofName? text = none) :
    ∀ known ∈ palette, ¬ Spells text known.1 := by
  have hfind := List.find?_eq_none.mp (Option.map_eq_none_iff.mp h)
  exact fun known hmem hspells ↦ hfind known hmem (decide_eq_true hspells.symm)

/-! ## Texts -/

theorem denotes_ofText (text : String) : Denotes text (ofText text) := by
  unfold ofText
  split
  · next rgb hhex => exact .hex (isHex_iff.mpr hhex)
  · next hhex =>
    have hother : ∀ other, ¬ IsHex text.toList other := by
      intro other hother
      rw [isHex_iff, hhex] at hother
      cases hother
    cases hname : ofName? text with
    | some rgb =>
      obtain ⟨name, hmem, hspells⟩ := exists_name hname
      exact .name hother hmem hspells
    | none => exact .neither hother (not_spells hname)

theorem Denotes.unique {text : String} {first second : Rgb} (hfirst : Denotes text first)
    (hsecond : Denotes text second) : first = second := by
  cases hfirst with
  | hex h =>
    cases hsecond with
    | hex h' => exact Option.some.inj (h.ofHex?_eq.symm.trans h'.ofHex?_eq)
    | name hhex | neither hhex => exact absurd h (hhex _)
  | name hhex hmem hspells =>
    cases hsecond with
    | hex h => exact absurd h (hhex _)
    | name _ hmem' hspells' =>
      obtain rfl := String.toList_inj.mp (hspells.symm.trans hspells')
      exact eq_of_mem_palette hmem hmem'
    | neither _ hnames => exact absurd hspells (hnames _ hmem)
  | neither hhex hnames =>
    cases hsecond with
    | hex h => exact absurd h (hhex _)
    | name _ hmem hspells => exact absurd hspells (hnames _ hmem)
    | neither => rfl

/-- A text is read as the one color that it denotes. -/
theorem denotes_iff {text : String} {rgb : Rgb} : Denotes text rgb ↔ rgb = ofText text := by
  constructor
  · intro h
    exact h.unique (denotes_ofText text)
  · rintro rfl
    exact denotes_ofText text

end FormulaMarkup.Rgb
