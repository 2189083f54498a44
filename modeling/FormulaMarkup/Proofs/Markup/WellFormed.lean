import FormulaMarkup.Proofs.Drawing.Output

/-!
# The output is well formed markup

The grammar of well formed markup speaks of characters only: data in which the characters of markup
are written as references, attributes with quoted values, and content in which each opening tag is
closed by a tag of its name. It knows neither the tags nor the tree that was written.

The writer puts the two tags of an element apart from each other, so that no tag is left open is
shown for each way through it (`Formula.isDrawn`). Whatever the texts of a formula are, what is
written of it in any place is content (`WellFormed.isContent_node`), and with the title and the
other attributes the output is one `math` element.
-/

namespace FormulaMarkup

namespace WellFormed

def IsName (cs : List Char) : Prop := cs ≠ [] ∧ cs.all Char.isAlpha = true

/-- A hexadecimal digit, of which references use the upper case. -/
def isHexDigit (c : Char) : Bool := c.isDigit || 'A' ≤ c && c ≤ 'F'

/-- What an ampersand may begin. -/
inductive IsReference : List Char → Prop
  | ampersand : IsReference ['&', 'a', 'm', 'p', ';']
  | less : IsReference ['&', 'l', 't', ';']
  | greater : IsReference ['&', 'g', 't', ';']
  | quote : IsReference ['&', 'q', 'u', 'o', 't', ';']
  | code {digits} (hne : digits ≠ []) (hdigits : ∀ c ∈ digits, isHexDigit c = true) :
      IsReference ('&' :: '#' :: 'x' :: digits ++ [';'])

/-- No character of markup stands for itself, and an ampersand begins a reference only. In the
value of an attribute, where `quotes` is set, a quote is a character of markup too. -/
structure IsData (quotes : Bool) (cs : List Char) : Prop where
  ne_of_mem : ∀ c ∈ cs, c ≠ '<' ∧ c ≠ '>' ∧ (quotes = true → c ≠ '"')
  begins : ∀ front rest, cs = front ++ '&' :: rest →
    ∃ reference, IsReference reference ∧ reference <+: '&' :: rest

inductive IsAttributes : List Char → Prop
  | nil : IsAttributes []
  | cons {name value rest} (hname : IsName name) (hvalue : IsData true value)
      (hrest : IsAttributes rest) :
      IsAttributes (' ' :: name ++ ['=', '"'] ++ value ++ ['"'] ++ rest)

/-- An element, from its opening tag to the closing tag of the same name. -/
def element (name attributes content : List Char) : List Char :=
  '<' :: name ++ attributes ++ ['>'] ++ content ++ ['<', '/'] ++ name ++ ['>']

inductive IsContent : List Char → Prop
  | nil : IsContent []
  | data {data rest} (hdata : IsData false data) (hrest : IsContent rest) : IsContent (data ++ rest)
  | element {name attributes content rest} (hname : IsName name)
      (hattributes : IsAttributes attributes) (hcontent : IsContent content)
      (hrest : IsContent rest) : IsContent (element name attributes content ++ rest)

/-- A single element of the name. -/
def IsElement (name cs : List Char) : Prop :=
  ∃ attributes content, IsName name ∧ IsAttributes attributes ∧ IsContent content ∧
    cs = element name attributes content

/-! ## Data -/

theorem isData_nil (quotes : Bool) : IsData quotes [] where
  ne_of_mem c hmem := nomatch hmem
  begins front rest h := by simp at h

theorem IsData.append {quotes : Bool} {front rest : List Char} (hfront : IsData quotes front)
    (hrest : IsData quotes rest) : IsData quotes (front ++ rest) where
  ne_of_mem := List.forall_mem_append.mpr ⟨hfront.ne_of_mem, hrest.ne_of_mem⟩
  begins before after h := by
    -- the ampersand is in one of the two, and its reference does not reach beyond that one
    rcases List.append_eq_append_iff.mp h with ⟨middle, -, hlater⟩ | ⟨middle, hearlier, hmiddle⟩
    · exact hrest.begins middle after hlater
    · cases middle with
      | nil => exact hrest.begins [] after hmiddle.symm
      | cons c middle =>
        rw [List.cons_append, List.cons.injEq] at hmiddle
        rw [← hmiddle.1] at hearlier
        have hreference := hfront.begins before middle hearlier
        obtain ⟨reference, hreference, hprefix⟩ := hreference
        refine ⟨reference, hreference, hprefix.trans ?_⟩
        rw [hmiddle.2, ← List.cons_append]
        exact List.prefix_append _ _

theorem isData_singleton {quotes : Bool} {c : Char} (hampersand : c ≠ '&') (hless : c ≠ '<')
    (hgreater : c ≠ '>') (hquote : quotes = true → c ≠ '"') : IsData quotes [c] where
  ne_of_mem := List.forall_mem_singleton.mpr ⟨hless, hgreater, hquote⟩
  begins front rest h := by
    have hmem : '&' ∈ [c] := by
      rw [h]
      simp
    exact absurd (List.mem_singleton.mp hmem).symm hampersand

theorem ne_of_isHexDigit {c : Char} (h : isHexDigit c = true) :
    c ≠ '&' ∧ c ≠ '<' ∧ c ≠ '>' ∧ c ≠ '"' := by
  have hne : ∀ d, isHexDigit d = false → c ≠ d := by
    rintro d hd rfl
    rw [h] at hd
    cases hd
  exact ⟨hne '&' rfl, hne '<' rfl, hne '>' rfl, hne '"' rfl⟩

/-- A reference has an ampersand at its front only. -/
theorem IsReference.eq_cons {reference : List Char} (h : IsReference reference) :
    ∃ tail, reference = '&' :: tail ∧
      ∀ c ∈ tail, c ≠ '&' ∧ c ≠ '<' ∧ c ≠ '>' ∧ c ≠ '"' := by
  cases h with
  | ampersand | less | greater | quote => exact ⟨_, rfl, by simp⟩
  | @code digits hne hdigits =>
    refine ⟨'#' :: 'x' :: digits ++ [';'], rfl, ?_⟩
    simp only [List.cons_append, List.forall_mem_cons, List.forall_mem_append]
    exact ⟨by decide, by decide, fun c hmem ↦ ne_of_isHexDigit (hdigits c hmem), by simp⟩

theorem IsReference.isData {reference : List Char} (h : IsReference reference) (quotes : Bool) :
    IsData quotes reference := by
  obtain ⟨tail, rfl, htail⟩ := h.eq_cons
  constructor
  · rw [List.forall_mem_cons]
    constructor
    · exact ⟨by decide, by decide, fun _ ↦ by decide⟩
    · intro c hmem
      have hne := htail c hmem
      exact ⟨hne.2.1, hne.2.2.1, fun _ ↦ hne.2.2.2⟩
  · intro front rest hsplit
    cases front with
    | nil =>
      cases hsplit
      exact ⟨_, h, List.prefix_rfl⟩
    | cons first front =>
      have hmem : '&' ∈ tail := by
        rw [(List.cons.inj hsplit).2]
        simp
      exact absurd rfl (htail '&' hmem).1

/-! ## Texts and attributes are written as data -/

theorem isHexDigit_digitChar {n : Nat} (h : n < 16) :
    isHexDigit (Nat.digitChar n).toUpper = true := by
  have hall : ∀ n : Fin 16, isHexDigit (Nat.digitChar n).toUpper = true := by decide
  exact hall ⟨n, h⟩

theorem isHexDigit_of_mem_hexadecimal (n : Nat) :
    ∀ c ∈ Markup.hexadecimal n, isHexDigit c = true := by
  unfold Markup.hexadecimal
  induction n using Nat.strongRecOn with
  | ind n ih =>
    rw [Nat.toDigits_eq_if (by decide)]
    split
    · next hlt => exact List.forall_mem_singleton.mpr (isHexDigit_digitChar hlt)
    · next hge =>
      rw [List.map_append, List.forall_mem_append]
      have hdiv : n / 16 < n := by omega
      have hmod : n % 16 < 16 := Nat.mod_lt n (by decide)
      exact ⟨ih (n / 16) hdiv, List.forall_mem_singleton.mpr (isHexDigit_digitChar hmod)⟩

theorem isData_escapeChar (nonAscii quotes : Bool) (c : Char) :
    IsData quotes (Markup.escapeChar nonAscii quotes c) := by
  unfold Markup.escapeChar
  split
  · exact IsReference.ampersand.isData quotes
  · split
    · exact IsReference.less.isData quotes
    · split
      · exact IsReference.greater.isData quotes
      · split
        · exact IsReference.quote.isData quotes
        · split
          · have hne : Markup.hexadecimal c.toNat ≠ [] := by
              simp [Markup.hexadecimal, Nat.toDigits_ne_nil]
            exact (IsReference.code hne (isHexDigit_of_mem_hexadecimal _)).isData quotes
          · next hampersand hless hgreater hquote _ =>
            apply isData_singleton hampersand hless hgreater
            rintro rfl rfl
            exact hquote rfl

/-- Whatever a text is, it is written as data. -/
theorem isData_escape (nonAscii quotes : Bool) (text : List Char) :
    IsData quotes (Markup.escape nonAscii quotes text) := by
  induction text with
  | nil => exact isData_nil quotes
  | cons c text ih =>
    rw [Markup.escape_cons]
    exact (isData_escapeChar nonAscii quotes c).append ih

theorem isName_attributeName (name : AttributeName) : IsName name.name.toList := by
  cases name <;> exact ⟨by decide, by decide⟩

theorem isName_tag (tag : Tag) : IsName tag.name.toList := by
  cases tag <;> exact ⟨by decide, by decide⟩

theorem isName_leafTag (tag : LeafTag) : IsName tag.name.toList := by
  cases tag <;> exact ⟨by decide, by decide⟩

theorem isAttributes_attributeChars (nonAscii : Bool) (attributes : List Attribute) :
    IsAttributes (attributes.flatMap (Markup.attributeChars nonAscii)) := by
  induction attributes with
  | nil => exact .nil
  | cons item attributes ih =>
    rw [List.flatMap_cons]
    exact .cons (isName_attributeName item.name) (isData_escape nonAscii true _) ih

/-! ## Markup is written as elements -/

theorem IsContent.append {front rest : List Char} (hfront : IsContent front)
    (hrest : IsContent rest) : IsContent (front ++ rest) := by
  induction hfront with
  | nil => exact hrest
  | data hdata _ ih =>
    rw [List.append_assoc]
    exact .data hdata ih
  | element hname hattributes hcontent _ _ ih =>
    rw [List.append_assoc]
    exact .element hname hattributes hcontent ih

theorem IsElement.isContent {name cs : List Char} (h : IsElement name cs) : IsContent cs := by
  obtain ⟨attributes, content, hname, hattributes, hcontent, rfl⟩ := h
  rw [← List.append_nil (element name attributes content)]
  exact .element hname hattributes hcontent .nil

theorem isElement_leaf (nonAscii : Bool) (tag : LeafTag) (text : String) :
    IsElement tag.name.toList ((Markup.leaf tag text).chars nonAscii) := by
  have hcontent : IsContent (Markup.escape nonAscii false text.toList) := by
    rw [← List.append_nil (Markup.escape _ _ _)]
    exact .data (isData_escape nonAscii false _) .nil
  refine ⟨[], _, isName_leafTag tag, .nil, hcontent, ?_⟩
  simp [Markup.chars, Markup.openTag, Markup.closeTag, element]

theorem isElement_element (nonAscii : Bool) (tag : Tag) (attributes : List Attribute)
    {children : List Markup} (h : IsContent (Markup.charsOfList nonAscii children)) :
    IsElement tag.name.toList ((Markup.element tag attributes children).chars nonAscii) := by
  refine ⟨_, _, isName_tag tag, isAttributes_attributeChars nonAscii attributes, h, ?_⟩
  simp [Markup.chars, Markup.startTag, Markup.closeTag, element]

mutual

theorem isContent_chars (nonAscii : Bool) : ∀ markup : Markup, IsContent (markup.chars nonAscii)
  | .leaf tag text => (isElement_leaf nonAscii tag text).isContent
  | .element tag attributes children =>
    (isElement_element nonAscii tag attributes (isContent_charsOfList nonAscii children)).isContent

theorem isContent_charsOfList (nonAscii : Bool) :
    ∀ list : List Markup, IsContent (Markup.charsOfList nonAscii list)
  | [] => .nil
  | markup :: rest =>
    (isContent_chars nonAscii markup).append (isContent_charsOfList nonAscii rest)

end

/-- What is put for a formula in any place is content, into every sink, if it has no fault. -/
theorem isContent_node {options : Options} {formula : Formula} {drawing : Drawing}
    (h : formula.draw options = .ok drawing) (mode : RowMode) :
    ∃ content, IsContent content ∧ ∀ (σ : Type) [Sink σ],
      (Writing.node mode ⟨formula, formula.content options⟩ : Writing σ Unit) =
        Writing.chars content := by
  refine ⟨_, isContent_charsOfList options.escapeNonAscii (drawing.place mode), fun σ _ ↦ ?_⟩
  have hwrites := (Formula.isDrawn (σ := σ) options formula).node mode
  rw [h] at hwrites
  cases hwrites with
  | text hwriting => exact hwriting

/-- What is written of a formula is one `math` element, and nothing is written of none. -/
theorem isElement_render {options : Options} {tree : Option Formula} {output : String}
    (h : Formula.render options tree = .ok output) :
    (tree = none ∧ output = "") ∨
      (tree.isSome = true ∧ IsElement "math".toList output.toList) := by
  cases tree with
  | none =>
    cases h
    exact .inl ⟨rfl, rfl⟩
  | some formula =>
    right
    rw [Formula.render_some, Formula.markup] at h
    obtain ⟨markup, hmarkup, rfl⟩ := exists_of_map_eq_ok h
    obtain ⟨drawing, -, rfl⟩ := exists_of_map_eq_ok hmarkup
    have helement := isElement_element options.escapeNonAscii .math options.attributes
      (isContent_charsOfList options.escapeNonAscii (drawing.place .omit))
    rw [← @String.toList_ofList (Markup.chars _ _)] at helement
    exact ⟨rfl, helement⟩

/-- A formula with a title, in which all characters of markup occur, as it is written. -/
def titled : String :=
  "<math title=\"&quot;&lt;&amp;\"><msup><mtext>a&gt;b</mtext><mtext>&#x3B1;</mtext></msup></math>"

theorem isElement_render_titled :
    Formula.render { title := some "\"<&" } (some (.sup (.text "a>b") (.text "\u03b1"))) =
        .ok titled ∧ IsElement "math".toList titled.toList := by
  have hrender : Formula.render { title := some "\"<&" }
      (some (.sup (.text "a>b") (.text "\u03b1"))) = .ok titled := by
    rw [Formula.render_some]
    rfl
  rcases isElement_render hrender with ⟨hnone, -⟩ | ⟨-, helement⟩
  · cases hnone
  · exact ⟨hrender, helement⟩

end WellFormed

end FormulaMarkup
