import FormulaMarkup.Proofs.Markup.WellFormed

/-!
# Reading texts back out of markup

`Markup.contents` takes the contents of the elements of a name out of written markup, knowing only
that a tag begins at a `<`, and `Markup.unescape` puts the characters back in the place of their
references. Both speak of characters only.

The contents of a leaf's name are the escaped texts of these leaves in their order
(`Markup.contents_chars`): no other tag begins with the name and a `>`, and neither a text nor the
value of an attribute holds a `<`. And a text comes back from its escaped form
(`Markup.unescape_escape`).
-/

namespace FormulaMarkup.Markup

/-- What stands between each opening tag of the name without attributes and the tag behind it. -/
def contents (name : String) (output : List Char) : List (List Char) :=
  (output.splitOn '<').tail.filterMap (name.toList ++ ['>']).isPrefixOf?

mutual

/-- The texts of all leaves of a tag, in order. -/
def texts (tag : LeafTag) : Markup → List String
  | leaf other text => if other = tag then [text] else []
  | element _ _ children => textsOfList tag children

def textsOfList (tag : LeafTag) : List Markup → List String
  | [] => []
  | markup :: rest => texts tag markup ++ textsOfList tag rest

end

/-! ## Contents -/

/-- Nothing, or a tag and what is behind it. -/
def IsAtTag (cs : List Char) : Prop := cs = [] ∨ ∃ rest, cs = '<' :: rest

@[simp]
theorem contents_nil (name : String) : contents name [] = [] := rfl

/-- The piece from one tag to the next holds the content of at most one element. -/
theorem contents_cons_append {piece more : List Char} (name : String) (h : '<' ∉ piece)
    (hmore : IsAtTag more) :
    contents name ('<' :: piece ++ more) =
      ((name.toList ++ ['>']).isPrefixOf? piece).toList ++ contents name more := by
  have hfront : ∀ cs : List Char, ('<' :: cs).splitOn '<' = [] :: cs.splitOn '<' :=
    fun cs ↦ List.splitOn_append_cons_self [] cs
  have hsplit : ('<' :: piece ++ more).splitOn '<' = [] :: piece :: (more.splitOn '<').tail := by
    rcases hmore with rfl | ⟨rest, rfl⟩
    · rw [List.append_nil, hfront, List.splitOn_eq_singleton h]
      rfl
    · rw [List.cons_append, hfront, List.splitOn_append_cons_self_of_not_mem h, hfront]
      rfl
  simp only [contents, hsplit, List.tail_cons, List.filterMap_cons]
  cases (name.toList ++ ['>']).isPrefixOf? piece <;> rfl

/-- A leaf holds the content of its own name only. -/
theorem isPrefixOf?_leafTag (tag other : LeafTag) (content : List Char) :
    (tag.name.toList ++ ['>']).isPrefixOf? (other.name.toList ++ '>' :: content) =
      if other = tag then some content else none := by
  cases tag <;> cases other <;> rfl

theorem isPrefixOf?_tag (tag : LeafTag) (other : Tag) (more : List Char) :
    (tag.name.toList ++ ['>']).isPrefixOf? (other.name.toList ++ more) = none := by
  cases tag <;> cases other <;> rfl

theorem isPrefixOf?_slash (tag : LeafTag) (more : List Char) :
    (tag.name.toList ++ ['>']).isPrefixOf? ('/' :: more) = none := by
  cases tag <;> rfl

theorem notMem_escape {c : Char} (h : c = '<' ∨ c = '>') (nonAscii quotes : Bool)
    (text : List Char) : c ∉ escape nonAscii quotes text := by
  intro hmem
  have hne := (WellFormed.isData_escape nonAscii quotes text).ne_of_mem c hmem
  exact h.elim hne.1 hne.2.1

theorem notMem_leafName {c : Char} (h : c = '<' ∨ c = '>') (tag : LeafTag) :
    c ∉ tag.name.toList := by
  rcases h with rfl | rfl <;> cases tag <;> decide

theorem notMem_name {c : Char} (h : c = '<' ∨ c = '>') (tag : Tag) : c ∉ tag.name.toList := by
  rcases h with rfl | rfl <;> cases tag <;> decide

theorem notMem_attributeChars {c : Char} (h : c = '<' ∨ c = '>') (nonAscii : Bool)
    (item : Attribute) : c ∉ attributeChars nonAscii item := by
  have hname : c ∉ item.name.name.toList := by
    rcases h with rfl | rfl <;> cases item.name <;> decide
  have hvalue := notMem_escape h nonAscii true item.value.toList
  rcases h with rfl | rfl <;> simp [attributeChars, hname, hvalue]

theorem isAtTag_append {cs : List Char} (h : IsAtTag cs) {more : List Char} (hmore : IsAtTag more) :
    IsAtTag (cs ++ more) := by
  rcases h with rfl | ⟨rest, rfl⟩
  · exact hmore
  · exact .inr ⟨rest ++ more, rfl⟩

theorem isAtTag_closeTag (name : String) (more : List Char) : IsAtTag (closeTag name ++ more) :=
  .inr ⟨_, rfl⟩

theorem isAtTag_charsOfList (nonAscii : Bool) (list : List Markup) :
    IsAtTag (charsOfList nonAscii list) := by
  cases list with
  | nil => exact .inl rfl
  | cons markup rest => cases markup <;> exact .inr ⟨_, rfl⟩

/-- A closing tag holds no content. -/
theorem contents_closeTag (tag : LeafTag) {name : String} (h : '<' ∉ name.toList)
    {more : List Char} (hmore : IsAtTag more) :
    contents tag.name (closeTag name ++ more) = contents tag.name more := by
  have hpiece : '<' ∉ '/' :: (name.toList ++ ['>']) := by simp [h]
  have hcontents := contents_cons_append tag.name hpiece hmore
  rwa [isPrefixOf?_slash] at hcontents

theorem contents_leaf (nonAscii : Bool) (tag other : LeafTag) (text : String) {more : List Char}
    (hmore : IsAtTag more) :
    contents tag.name ((leaf other text).chars nonAscii ++ more) =
      ((leaf other text).texts tag).map (fun text ↦ escape nonAscii false text.toList) ++
        contents tag.name more := by
  have hname := notMem_leafName (.inl rfl : '<' = '<' ∨ '<' = '>') other
  have hpiece : '<' ∉ other.name.toList ++ '>' :: escape nonAscii false text.toList := by
    simp [hname, notMem_escape (.inl rfl)]
  have hchars : (leaf other text).chars nonAscii ++ more =
      '<' :: (other.name.toList ++ '>' :: escape nonAscii false text.toList) ++
        (closeTag other.name ++ more) := by
    simp [chars, openTag]
  rw [hchars, contents_cons_append tag.name hpiece (isAtTag_closeTag _ _), isPrefixOf?_leafTag,
    contents_closeTag tag hname hmore, texts]
  split <;> rfl

theorem contents_startTag (nonAscii : Bool) (tag : LeafTag) (other : Tag)
    (attributes : List Attribute) {more : List Char} (hmore : IsAtTag more) :
    contents tag.name (startTag nonAscii other attributes ++ more) = contents tag.name more := by
  have hname := notMem_name (.inl rfl : '<' = '<' ∨ '<' = '>') other
  have hpiece : '<' ∉ other.name.toList ++
      (attributes.flatMap (attributeChars nonAscii) ++ ['>']) := by
    simp [hname, notMem_attributeChars (.inl rfl)]
  have hchars : startTag nonAscii other attributes ++ more =
      '<' :: (other.name.toList ++ (attributes.flatMap (attributeChars nonAscii) ++ ['>'])) ++
        more := by
    simp [startTag]
  rw [hchars, contents_cons_append tag.name hpiece hmore, isPrefixOf?_tag]
  rfl

mutual

theorem contents_chars_append (nonAscii : Bool) (tag : LeafTag) {more : List Char}
    (hmore : IsAtTag more) : ∀ markup : Markup,
    contents tag.name (markup.chars nonAscii ++ more) =
      (markup.texts tag).map (fun text ↦ escape nonAscii false text.toList) ++
        contents tag.name more
  | leaf other text => contents_leaf nonAscii tag other text hmore
  | element other attributes children => by
    have hname := notMem_name (.inl rfl : '<' = '<' ∨ '<' = '>') other
    have hclose := isAtTag_closeTag other.name more
    rw [chars, List.append_assoc, List.append_assoc,
      contents_startTag nonAscii tag other attributes
        (isAtTag_append (isAtTag_charsOfList nonAscii children) hclose),
      contents_charsOfList_append nonAscii tag hclose children, contents_closeTag tag hname hmore,
      texts]

theorem contents_charsOfList_append (nonAscii : Bool) (tag : LeafTag) {more : List Char}
    (hmore : IsAtTag more) : ∀ list : List Markup,
    contents tag.name (charsOfList nonAscii list ++ more) =
      (textsOfList tag list).map (fun text ↦ escape nonAscii false text.toList) ++
        contents tag.name more
  | [] => rfl
  | markup :: rest => by
    rw [charsOfList, List.append_assoc,
      contents_chars_append nonAscii tag
        (isAtTag_append (isAtTag_charsOfList nonAscii rest) hmore) markup,
      contents_charsOfList_append nonAscii tag hmore rest, textsOfList, List.map_append,
      List.append_assoc]

end

/-- The contents of written markup are the escaped texts of the leaves, in the order of these. -/
theorem contents_chars (nonAscii : Bool) (tag : LeafTag) (markup : Markup) :
    contents tag.name (markup.chars nonAscii) =
      (markup.texts tag).map fun text ↦ escape nonAscii false text.toList := by
  have hcontents := contents_chars_append nonAscii tag (.inl rfl) markup
  rwa [List.append_nil, contents_nil, List.append_nil] at hcontents

/-! ## References -/

/-- The value of a hexadecimal digit in upper case. -/
def digitValue (c : Char) : Nat :=
  if c.isDigit then c.toNat - '0'.toNat else c.toNat - 'A'.toNat + 10

def hexadecimalValue (digits : List Char) : Nat :=
  digits.foldl (fun value c ↦ 16 * value + digitValue c) 0

/-- The character that a reference stands for, by what is between its ampersand and its end. -/
def referent? : List Char → Option Char
  | ['a', 'm', 'p'] => some '&'
  | ['l', 't'] => some '<'
  | ['g', 't'] => some '>'
  | ['q', 'u', 'o', 't'] => some '"'
  | '#' :: 'x' :: digits => some (Char.ofNat (hexadecimalValue digits))
  | _ => none

/-- Puts back the characters that references stand for. Within a reference, `begun` is what was
read of it; what begins as one but is none stays as it is. -/
def unescapeFrom : Option (List Char) → List Char → List Char
  | none, [] => []
  | some begun, [] => '&' :: begun
  | none, c :: rest => if c = '&' then unescapeFrom (some []) rest else c :: unescapeFrom none rest
  | some begun, c :: rest =>
    if c = ';' then
      ((referent? begun).elim ('&' :: begun ++ [';']) ([·])) ++ unescapeFrom none rest
    else unescapeFrom (some (begun ++ [c])) rest

def unescape (cs : List Char) : List Char := unescapeFrom none cs

theorem digitValue_digitChar {n : Nat} (h : n < 16) :
    digitValue (Nat.digitChar n).toUpper = n := by
  have hall : ∀ n : Fin 16, digitValue (Nat.digitChar n).toUpper = n := by decide
  exact hall ⟨n, h⟩

theorem hexadecimalValue_hexadecimal (n : Nat) : hexadecimalValue (hexadecimal n) = n := by
  unfold hexadecimal
  induction n using Nat.strongRecOn with
  | ind n ih =>
    rw [Nat.toDigits_eq_if (by decide)]
    split
    · next hlt =>
      have hdigit := digitValue_digitChar hlt
      simpa [hexadecimalValue] using hdigit
    · next hge =>
      have hfront := ih (n / 16) (by omega)
      have hdigit := digitValue_digitChar (Nat.mod_lt n (by decide : 0 < 16))
      rw [hexadecimalValue] at hfront ⊢
      rw [List.map_append, List.foldl_append, hfront]
      simp only [List.map_cons, List.map_nil, List.foldl_cons, List.foldl_nil, hdigit]
      exact Nat.div_add_mod n 16

/-- A reference is read to its end before it is replaced. -/
theorem unescapeFrom_reference {name : List Char} {c : Char} (hname : ';' ∉ name)
    (begun rest : List Char) (h : referent? (begun ++ name) = some c) :
    unescapeFrom (some begun) (name ++ ';' :: rest) = c :: unescapeFrom none rest := by
  induction name generalizing begun with
  | nil =>
    rw [List.append_nil] at h
    rw [List.nil_append, unescapeFrom, if_pos rfl, h]
    rfl
  | cons first name ih =>
    rw [List.mem_cons, not_or] at hname
    obtain ⟨hfirst, hname⟩ := hname
    rw [List.cons_append, unescapeFrom, if_neg (Ne.symm hfirst)]
    apply ih hname
    rwa [List.append_assoc, List.singleton_append]

theorem semicolon_notMem_hexadecimal (n : Nat) : ';' ∉ hexadecimal n := by
  intro hmem
  have hdigit := WellFormed.isHexDigit_of_mem_hexadecimal n ';' hmem
  revert hdigit
  decide

/-- An escaped character is read back, whichever form it has. -/
theorem unescapeFrom_escapeChar (nonAscii quotes : Bool) (c : Char) (rest : List Char) :
    unescapeFrom none (escapeChar nonAscii quotes c ++ rest) = c :: unescapeFrom none rest := by
  have hreference : ∀ name : List Char, ';' ∉ name → referent? name = some c →
      unescapeFrom none ('&' :: (name ++ [';']) ++ rest) = c :: unescapeFrom none rest := by
    intro name hname h
    rw [List.cons_append, unescapeFrom, if_pos rfl, List.append_assoc]
    exact unescapeFrom_reference hname [] rest h
  unfold escapeChar
  split
  · next heq => exact hreference ['a', 'm', 'p'] (by decide) (congrArg some heq.symm)
  · next hampersand =>
    split
    · next heq => exact hreference ['l', 't'] (by decide) (congrArg some heq.symm)
    · split
      · next heq => exact hreference ['g', 't'] (by decide) (congrArg some heq.symm)
      · split
        · next hquote =>
          obtain ⟨-, heq⟩ : quotes = true ∧ c = '"' := by simpa using hquote
          exact hreference ['q', 'u', 'o', 't'] (by decide) (congrArg some heq.symm)
        · split
          · have hname : ';' ∉ '#' :: 'x' :: hexadecimal c.toNat := by
              simp [semicolon_notMem_hexadecimal]
            refine hreference ('#' :: 'x' :: hexadecimal c.toNat) hname ?_
            rw [referent?, hexadecimalValue_hexadecimal, Char.ofNat_toNat]
          · rw [List.singleton_append, unescapeFrom, if_neg hampersand]

/-- Escaping loses nothing of a text. -/
theorem unescape_escape (nonAscii quotes : Bool) (text : List Char) :
    unescape (escape nonAscii quotes text) = text := by
  unfold unescape
  induction text with
  | nil => rfl
  | cons c text ih => rw [escape_cons, unescapeFrom_escapeChar, ih]

end FormulaMarkup.Markup
