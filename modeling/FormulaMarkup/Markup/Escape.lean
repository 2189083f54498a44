/-!
# Escaped text

Text inside markup, where the characters that markup is made of are written as references: `&`,
`<` and `>` always, the double quote inside an attribute, and on request every character that is
not ASCII by its code point in upper case hexadecimal.
-/

namespace FormulaMarkup.Markup

/-- The upper case hexadecimal digits of a number. -/
def hexadecimal (n : Nat) : List Char := (Nat.toDigits 16 n).map Char.toUpper

/-- One character; `quotes` and `nonAscii` tell whether these are written as references. -/
def escapeChar (nonAscii quotes : Bool) (c : Char) : List Char :=
  if c = '&' then ['&', 'a', 'm', 'p', ';']
  else if c = '<' then ['&', 'l', 't', ';']
  else if c = '>' then ['&', 'g', 't', ';']
  else if quotes && c = '"' then ['&', 'q', 'u', 'o', 't', ';']
  else if nonAscii && 0x80 ≤ c.toNat then ['&', '#', 'x'] ++ hexadecimal c.toNat ++ [';']
  else [c]

def escape (nonAscii quotes : Bool) (text : List Char) : List Char :=
  text.flatMap (escapeChar nonAscii quotes)

@[simp]
theorem escape_nil (nonAscii quotes : Bool) : escape nonAscii quotes [] = [] := rfl

theorem escape_cons (nonAscii quotes : Bool) (c : Char) (text : List Char) :
    escape nonAscii quotes (c :: text) =
      escapeChar nonAscii quotes c ++ escape nonAscii quotes text := rfl

/-- A text without characters that are escaped is written as it is. -/
theorem escape_eq_self {nonAscii quotes : Bool} {text : List Char}
    (h : ∀ c ∈ text, escapeChar nonAscii quotes c = [c]) : escape nonAscii quotes text = text := by
  induction text with
  | nil => rfl
  | cons c text ih =>
    rw [escape_cons, h c List.mem_cons_self, ih fun d hmem ↦ h d (List.mem_cons_of_mem c hmem)]
    rfl

end FormulaMarkup.Markup
