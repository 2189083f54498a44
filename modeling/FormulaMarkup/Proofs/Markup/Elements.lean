import FormulaMarkup.Formula.Drawing
import FormulaMarkup.Proofs.Markup.Sink

/-!
# Elements, piece by piece

The pieces that are put for an element are its two tags and, between them, what its children are
written as. Put one after another they are the written form of the whole element
(`Writing.Writes.element`), so a writing that is made of such pieces leaves no tag open.

Some attributes are put without an escape. The names of fonts and the digits of colors have no
character in them that needs one, so these are the attributes of the written form too.
-/

namespace FormulaMarkup

/-! ## Attributes without an escape -/

/-- The character is ASCII and stands for itself, also in the value of an attribute. -/
def Markup.isPlain (c : Char) : Bool :=
  c.toNat < 0x80 && c ≠ '&' && c ≠ '<' && c ≠ '>' && c ≠ '"'

theorem Markup.escape_of_isPlain (nonAscii quotes : Bool) {text : List Char}
    (h : text.all isPlain = true) : escape nonAscii quotes text = text := by
  apply escape_eq_self
  intro c hmem
  have hplain := List.all_eq_true.mp h c hmem
  simp only [isPlain, Bool.and_eq_true, decide_eq_true_eq] at hplain
  obtain ⟨⟨⟨⟨hascii, hampersand⟩, hless⟩, hgreater⟩, hquote⟩ := hplain
  simp [escapeChar, hampersand, hless, hgreater, hquote, hascii]

theorem Symbol.isPlain_font (symbol : Symbol) (straightPhi : Bool)
    (h : (symbol.appearance straightPhi).role = .font) :
    (symbol.appearance straightPhi).glyph.toList.all Markup.isPlain = true := by
  have hall : ∀ straightPhi, ∀ symbol ∈ Symbol.all,
      (symbol.appearance straightPhi).role = .font →
        (symbol.appearance straightPhi).glyph.toList.all Markup.isPlain = true := by
    decide +kernel
  exact hall straightPhi symbol symbol.mem_all h

theorem Rgb.isPlain_hexDigits (value : UInt8) :
    (hexDigits value).all Markup.isPlain = true := by
  have hall : ∀ n : Fin 16, Markup.isPlain (Nat.digitChar n) = true := by
    decide
  have hhigh : value.toNat / 16 < 16 := by
    have hlt := value.toNat_lt
    omega
  have hlow : value.toNat % 16 < 16 := Nat.mod_lt _ (by decide)
  simp only [hexDigits, List.all_cons, List.all_nil, Bool.and_true, Bool.and_eq_true]
  exact ⟨hall ⟨_, hhigh⟩, hall ⟨_, hlow⟩⟩

/-! ## Elements -/

namespace Writing

variable {σ : Type} [Sink σ] {options : Options}

/-- The writing puts the written form of whole elements, or ends in a fault. -/
def Writes (options : Options) (writing : Writing σ Unit) (outcome : Except Fault (List Markup)) :
    Prop :=
  writing.Says (outcome.map (Markup.charsOfList options.escapeNonAscii))

variable {writing first second : Writing σ Unit} {outcome outcome' : Except Fault (List Markup)}

theorem Writes.congr (h : writing.Writes options outcome) (heq : outcome = outcome') :
    writing.Writes options outcome' := heq ▸ h

/-- Only what comes of a result that there is has to be the same. -/
theorem Writes.map_congr {α : Type} {result : Except Fault α} {made made' : α → List Markup}
    (h : writing.Writes options (result.map made))
    (heq : ∀ value, result = .ok value → made value = made' value) :
    writing.Writes options (result.map made') := by
  refine h.congr ?_
  cases result with
  | error => rfl
  | ok value => exact congrArg Except.ok (heq value rfl)

theorem writes_nil : (pure () : Writing σ Unit).Writes options (.ok []) := .text rfl

theorem writes_throw (fault : Fault) :
    (throw (.fault fault) : Writing σ Unit).Writes options (.error fault) := says_throw fault

theorem Writes.append (h : first.Writes options outcome) (h' : second.Writes options outcome') :
    (do first; second : Writing σ Unit).Writes options
      (do return (← outcome) ++ (← outcome')) := by
  refine (Says.append h h').congr ?_
  cases outcome with
  | error => rfl
  | ok list =>
    cases outcome' with
    | error => rfl
    | ok more => exact congrArg Except.ok (Markup.charsOfList_append _ list more).symm

/-- Elements between the two tags of a name are an element. -/
theorem Writes.element (h : writing.Writes options outcome) (tag : Tag)
    (attributes : List Attribute) {front back : Writing σ Unit}
    (hfront : front = chars (Markup.startTag options.escapeNonAscii tag attributes))
    (hback : back = chars (Markup.closeTag tag.name)) :
    (do front; writing; back : Writing σ Unit).Writes options
      (outcome.map fun children ↦ [.element tag attributes children]) := by
  subst hfront hback
  refine ((says_chars _).append (Says.append h (says_chars _))).congr ?_
  cases outcome with
  | error => rfl
  | ok children =>
    refine congrArg Except.ok ?_
    simp [Markup.charsOfList, Markup.chars]

theorem Writes.tags (h : writing.Writes options outcome) (tag : Tag) (front back : String)
    (hfront : front.toList = Markup.openTag tag.name)
    (hback : back.toList = Markup.closeTag tag.name) :
    (do put front; writing; put back : Writing σ Unit).Writes options
      (outcome.map fun children ↦ [.element tag [] children]) := by
  refine h.element tag [] ?_ (congrArg chars hback)
  rw [put, hfront, Markup.openTag, Markup.startTag, List.flatMap_nil, List.append_nil]

theorem leaf_eq_chars (options : Options) (tag : LeafTag) (text : String) :
    (leaf options tag text : Writing σ Unit) =
      chars ((Markup.leaf tag text).chars options.escapeNonAscii) := by
  rw [leaf, putAll_eq_chars, escaped_eq_chars, putAll_eq_chars, ← chars_append, ← chars_append]
  refine congrArg chars ?_
  simp [Markup.chars, Markup.openTag, Markup.closeTag]

theorem writes_leaf (options : Options) (tag : LeafTag) (text : String) :
    (leaf options tag text : Writing σ Unit).Writes options (.ok [.leaf tag text]) := by
  refine .text ?_
  rw [leaf_eq_chars, Markup.charsOfList, Markup.charsOfList, List.append_nil]

/-- A start tag without attributes, of which the name may depend on what is in the element. -/
theorem putAll_startTag (nonAscii : Bool) (tag : Tag) :
    (putAll ["<", tag.name, ">"] : Writing σ Unit) = chars (Markup.startTag nonAscii tag []) := by
  rw [putAll_eq_chars]
  simp [Markup.startTag]

theorem putAll_closeTag (tag : Tag) :
    (putAll ["</", tag.name, ">"] : Writing σ Unit) = chars (Markup.closeTag tag.name) := by
  rw [putAll_eq_chars]
  simp [Markup.closeTag]

theorem writes_row (h : writing.Writes options outcome) :
    (do put "<mrow>"; writing; put "</mrow>" : Writing σ Unit).Writes options
      (outcome.map fun children ↦ [.mrow children]) :=
  h.tags .mrow "<mrow>" "</mrow>" rfl rfl

/-! ## Start tags with attributes -/

/-- A value that needs no escape is an attribute as it is. -/
theorem startTag_of_isPlain (nonAscii : Bool) (tag : Tag) (name : AttributeName) {value : String}
    (h : value.toList.all Markup.isPlain = true) :
    Markup.startTag nonAscii tag [⟨name, value⟩] =
      '<' :: tag.name.toList ++ ' ' :: name.name.toList ++ ['=', '"'] ++ value.toList ++
        ['"', '>'] := by
  simp [Markup.startTag, Markup.attributeChars, Markup.escape_of_isPlain nonAscii true h]

theorem startTag_mathvariant (nonAscii : Bool) {variant : String}
    (h : variant.toList.all Markup.isPlain = true) :
    (putAll ["<mstyle mathvariant=\"", variant, "\">"] : Writing σ Unit) =
      chars (Markup.startTag nonAscii .mstyle [⟨.mathvariant, variant⟩]) := by
  rw [startTag_of_isPlain _ _ _ h, putAll_eq_chars]
  exact congrArg chars (by simp [Tag.name, AttributeName.name])

theorem startTag_menclose (nonAscii : Bool) :
    (put "<menclose notation=\"updiagonalstrike\">" : Writing σ Unit) =
      chars (Markup.startTag nonAscii .menclose [⟨.strike, "updiagonalstrike"⟩]) := by
  rw [startTag_of_isPlain _ _ _ (by decide)]
  rfl

theorem startTag_mathcolor (nonAscii : Bool) (rgb : Rgb) :
    (putAll ["<mstyle mathcolor=\"#", String.ofList (Rgb.hexDigits rgb.red),
        String.ofList (Rgb.hexDigits rgb.green), String.ofList (Rgb.hexDigits rgb.blue), "\">"] :
      Writing σ Unit) = chars (Markup.startTag nonAscii .mstyle [⟨.mathcolor, rgb.hex⟩]) := by
  have hplain : rgb.hex.toList.all Markup.isPlain = true := by
    simp only [Rgb.hex, String.toList_ofList, List.all_append, List.all_cons,
      Rgb.isPlain_hexDigits, Bool.and_true]
    rfl
  rw [startTag_of_isPlain _ _ _ hplain, putAll_eq_chars]
  exact congrArg chars (by simp [Rgb.hex, Tag.name, AttributeName.name])

/-- The attributes of an element with marks, by which of them are accents. -/
def accents (upper lower : Bool) : List Attribute :=
  (if upper then [⟨.accent, "true"⟩] else []) ++ (if lower then [⟨.accentunder, "true"⟩] else [])

theorem startTag_accents (nonAscii : Bool) (tag : Tag) (upper lower : Bool) :
    (do putAll ["<", tag.name]
        accent upper " accent=\"true\""
        accent lower " accentunder=\"true\""
        put ">" : Writing σ Unit) =
      chars (Markup.startTag nonAscii tag (accents upper lower)) := by
  have haccent : ∀ (name : AttributeName) (text : String) (isAccent : Bool),
      text.toList = Markup.attributeChars nonAscii ⟨name, "true"⟩ →
        (accent isAccent text : Writing σ Unit) =
          chars ((if isAccent then [⟨name, "true"⟩] else []).flatMap
            (Markup.attributeChars nonAscii)) := by
    intro name text isAccent htext
    cases isAccent
    · rfl
    · exact congrArg chars (htext.trans (by simp))
  have htrue : Markup.escape nonAscii true "true".toList = "true".toList :=
    Markup.escape_of_isPlain nonAscii true (by decide)
  rw [haccent .accent _ upper (by rw [Markup.attributeChars, htrue]; rfl),
    haccent .accentunder _ lower (by rw [Markup.attributeChars, htrue]; rfl), putAll_eq_chars, put,
    ← chars_append, ← chars_append, ← chars_append]
  refine congrArg chars ?_
  simp [Markup.startTag, accents]

theorem startTag_document (options : Options) :
    (do put "<math"
        display options.display
        title options.escapeNonAscii options.title
        put ">" : Writing σ Unit) =
      chars (Markup.startTag options.escapeNonAscii .math options.attributes) := by
  have hdisplay : (display options.display : Writing σ Unit) = chars
      ((options.display.map fun display ↦ (⟨.display, display.name⟩ : Attribute)).toList.flatMap
        (Markup.attributeChars options.escapeNonAscii)) := by
    cases options.display with
    | none => rfl
    | some value =>
      have hplain : value.name.toList.all Markup.isPlain = true := by
        cases value <;> decide
      rw [display, putAll_eq_chars]
      exact congrArg chars (by
        simp [Markup.attributeChars, Markup.escape_of_isPlain _ true hplain, AttributeName.name])
  have htitle : (title options.escapeNonAscii options.title : Writing σ Unit) = chars
      ((options.title.map fun title ↦ (⟨.title, title⟩ : Attribute)).toList.flatMap
        (Markup.attributeChars options.escapeNonAscii)) := by
    cases options.title with
    | none => rfl
    | some value =>
      rw [title, escaped_eq_chars, put, put, ← chars_append, ← chars_append]
      exact congrArg chars (by simp [Markup.attributeChars, AttributeName.name])
  rw [hdisplay, htitle, put, put, ← chars_append, ← chars_append, ← chars_append]
  refine congrArg chars ?_
  simp [Markup.startTag, Options.attributes, Tag.name]

end Writing

end FormulaMarkup
