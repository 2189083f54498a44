import FormulaMarkup.Unicode.Graphic

/-!
# Quoted texts

The form in which a message shows a text: between double quotes, graphic characters as they are,
the usual escapes for the common controls, and any other character by its code point in lower case
hexadecimal. A single quote needs no escape inside double quotes.
-/

namespace FormulaMarkup.Text

def escapeChar (c : Char) : List Char :=
  match c with
  | '\x00' => ['\\', '0']
  | '\t' => ['\\', 't']
  | '\r' => ['\\', 'r']
  | '\n' => ['\\', 'n']
  | '\\' => ['\\', '\\']
  | '"' => ['\\', '"']
  | c =>
    if Unicode.isGraphic c then [c]
    else ['\\', 'u', '\x7b'] ++ Nat.toDigits 16 c.toNat ++ ['\x7d']

def quoted (text : String) : String :=
  String.ofList ('"' :: text.toList.flatMap escapeChar ++ ['"'])

end FormulaMarkup.Text
