import FormulaMarkup.Proofs.Markup.Contents
import Mathlib.Data.List.Basic

/-!
# Markup without its rows

`Markup.withoutRows` takes the tags `<mrow>` and `</mrow>` out of a text, wherever they stand. It
speaks of characters only.

In written markup each `<` begins a tag, and a tag ends before the next one begins. So nothing else
is taken out, and nothing new looks like a tag of a row when one is gone: what is left of a list of
elements is what is left of each of them (`Markup.bare_append`), and what is left of a row is what
is left of its children (`Markup.bare_mrow`).
-/

namespace FormulaMarkup.Markup

/-- The text without the tags of rows. -/
def withoutRows : List Char → List Char
  | '<' :: 'm' :: 'r' :: 'o' :: 'w' :: '>' :: rest => withoutRows rest
  | '<' :: '/' :: 'm' :: 'r' :: 'o' :: 'w' :: '>' :: rest => withoutRows rest
  | c :: rest => c :: withoutRows rest
  | [] => []

/-- What is left of written markup without its rows. -/
def bare (nonAscii : Bool) (list : List Markup) : List Char :=
  withoutRows (charsOfList nonAscii list)

/-! ## Texts that are taken apart -/

/-- What is taken out of the text does not depend on what stands behind it. -/
def Splits (text : List Char) : Prop :=
  ∀ rest, withoutRows (text ++ rest) = withoutRows text ++ withoutRows rest

theorem splits_nil : Splits [] := fun _ ↦ rfl

theorem Splits.append {front text : List Char} (hfront : Splits front) (h : Splits text) :
    Splits (front ++ text) := by
  intro rest
  rw [List.append_assoc, hfront, h, hfront, List.append_assoc]

/-- Only a `<` can begin a tag. -/
theorem withoutRows_append {text : List Char} (h : '<' ∉ text) (rest : List Char) :
    withoutRows (text ++ rest) = text ++ withoutRows rest := by
  induction text with
  | nil => rfl
  | cons c text ih =>
    rw [List.mem_cons, not_or] at h
    rw [List.cons_append, withoutRows, ih h.2, List.cons_append]
    · rintro _ rfl
      exact absurd rfl h.1
    · rintro _ rfl
      exact absurd rfl h.1

/-- A text from which nothing is taken out, whatever is behind it. -/
theorem splits_of_kept {text : List Char}
    (h : ∀ rest, withoutRows (text ++ rest) = text ++ withoutRows rest) : Splits text := by
  have hself : withoutRows text = text := by simpa [withoutRows] using h []
  intro rest
  rw [h, hself]

/-- The name in a tag is known from the tag and what is behind it. -/
theorem eq_of_append_greater {piece name rest more : List Char} (hpiece : '>' ∉ piece)
    (hname : '>' ∉ name) (h : piece ++ '>' :: rest = name ++ '>' :: more) : piece = name := by
  have hsplit := congrArg (List.splitOn '>') h
  rw [List.splitOn_append_cons_self_of_not_mem hpiece,
    List.splitOn_append_cons_self_of_not_mem hname] at hsplit
  exact (List.cons.inj hsplit).1

/-- A tag is taken out as a whole or not at all. -/
theorem splits_tag {piece : List Char} (h : ∀ c, c = '<' ∨ c = '>' → c ∉ piece) :
    Splits ('<' :: piece ++ ['>']) := by
  by_cases hopen : piece = ['m', 'r', 'o', 'w']
  · subst hopen
    exact fun _ ↦ rfl
  by_cases hclose : piece = ['/', 'm', 'r', 'o', 'w']
  · subst hclose
    exact fun _ ↦ rfl
  have hbehind : '<' ∉ piece ++ ['>'] := by simp [h]
  have hgreater := h '>' (.inr rfl)
  apply splits_of_kept
  intro rest
  rw [List.cons_append, List.cons_append, withoutRows, withoutRows_append hbehind,
    List.cons_append]
  · intro more _ heq
    rw [List.append_assoc] at heq
    exact hopen (eq_of_append_greater hgreater (by decide : '>' ∉ ['m', 'r', 'o', 'w']) heq)
  · intro more _ heq
    rw [List.append_assoc] at heq
    exact hclose (eq_of_append_greater hgreater (by decide : '>' ∉ ['/', 'm', 'r', 'o', 'w']) heq)

/-! ## Written markup -/

theorem splits_startTag (nonAscii : Bool) (tag : Tag) (attributes : List Attribute) :
    Splits (startTag nonAscii tag attributes) := by
  have hpiece : ∀ c, c = '<' ∨ c = '>' →
      c ∉ tag.name.toList ++ attributes.flatMap (attributeChars nonAscii) := by
    intro c h
    rw [List.mem_append, List.mem_flatMap, not_or]
    refine ⟨notMem_name h tag, ?_⟩
    rintro ⟨item, -, hmem⟩
    exact notMem_attributeChars h nonAscii item hmem
  exact splits_tag hpiece

theorem splits_closeTag {name : String} (h : ∀ c, c = '<' ∨ c = '>' → c ∉ name.toList) :
    Splits (closeTag name) := by
  have hpiece : ∀ c, c = '<' ∨ c = '>' → c ∉ '/' :: name.toList := by
    rintro c (rfl | rfl) <;> simp [h]
  exact splits_tag hpiece

theorem splits_leaf (nonAscii : Bool) (tag : LeafTag) (text : String) :
    Splits ((leaf tag text).chars nonAscii) := by
  have hname : ∀ c, c = '<' ∨ c = '>' → c ∉ tag.name.toList := fun _ h ↦ notMem_leafName h tag
  have htext : '<' ∉ escape nonAscii false text.toList := notMem_escape (.inl rfl) _ _ _
  exact ((splits_tag hname).append (splits_of_kept (withoutRows_append htext))).append
    (splits_closeTag hname)

mutual

theorem splits_chars (nonAscii : Bool) : ∀ markup : Markup, Splits (markup.chars nonAscii)
  | leaf tag text => splits_leaf nonAscii tag text
  | element tag attributes children =>
    ((splits_startTag nonAscii tag attributes).append (splits_charsOfList nonAscii children)).append
      (splits_closeTag fun _ h ↦ notMem_name h tag)

theorem splits_charsOfList (nonAscii : Bool) :
    ∀ list : List Markup, Splits (charsOfList nonAscii list)
  | [] => splits_nil
  | markup :: rest => (splits_chars nonAscii markup).append (splits_charsOfList nonAscii rest)

end

theorem bare_append (nonAscii : Bool) (list more : List Markup) :
    bare nonAscii (list ++ more) = bare nonAscii list ++ bare nonAscii more := by
  unfold bare
  rw [← splits_charsOfList]
  simp [charsOfList_eq_flatMap]

/-- What is left of an element does not depend on more of its children than what is left of them. -/
theorem bare_element (nonAscii : Bool) (tag : Tag) (attributes : List Attribute)
    (children : List Markup) :
    bare nonAscii [element tag attributes children] =
      withoutRows (startTag nonAscii tag attributes) ++ bare nonAscii children ++
        withoutRows (closeTag tag.name) := by
  rw [bare, charsOfList, charsOfList, List.append_nil, chars, List.append_assoc,
    splits_startTag, splits_charsOfList, List.append_assoc, bare]

/-- Of a row, only its children are left. -/
theorem bare_mrow (nonAscii : Bool) (children : List Markup) :
    bare nonAscii [mrow children] = bare nonAscii children := by
  rw [mrow, bare_element]
  exact List.append_nil _

theorem withoutRows_write (nonAscii : Bool) (markup : Markup) :
    withoutRows (markup.write nonAscii).toList = bare nonAscii [markup] := by
  rw [write, String.toList_ofList, bare, charsOfList, charsOfList, List.append_nil]

end FormulaMarkup.Markup
