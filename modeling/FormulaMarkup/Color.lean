/-!
# Colors

A color is written as `#rgb`, as `#rrggbb` or by one of sixteen names. `Rgb.ofText` reads any text
and takes black where the text is no color; `Rgb.hex` writes the six digit form.
-/

namespace FormulaMarkup

structure Rgb where
  red : UInt8
  green : UInt8
  blue : UInt8
deriving DecidableEq

namespace Rgb

def black : Rgb := ⟨0, 0, 0⟩

def palette : List (String × Rgb) :=
  [("aqua", ⟨0, 255, 255⟩), ("black", black), ("blue", ⟨0, 0, 255⟩), ("fuchsia", ⟨255, 0, 255⟩),
   ("gray", ⟨128, 128, 128⟩), ("green", ⟨0, 128, 0⟩), ("lime", ⟨0, 255, 0⟩),
   ("maroon", ⟨128, 0, 0⟩), ("navy", ⟨0, 0, 128⟩), ("olive", ⟨128, 128, 0⟩),
   ("purple", ⟨128, 0, 128⟩), ("red", ⟨255, 0, 0⟩), ("silver", ⟨192, 192, 192⟩),
   ("teal", ⟨0, 128, 128⟩), ("white", ⟨255, 255, 255⟩), ("yellow", ⟨255, 255, 0⟩)]

/-- The color of a name. The case of ASCII letters does not matter. -/
def ofName? (name : String) : Option Rgb :=
  (palette.find? fun known ↦ known.1.toList = name.toList.map Char.toLower).map (·.2)

/-- The value of a hexadecimal digit of either case. -/
def digit? (c : Char) : Option UInt8 :=
  if c.isDigit then some (c.toNat - '0'.toNat).toUInt8
  else if 'a' ≤ c ∧ c ≤ 'f' then some (c.toNat - 'a'.toNat + 10).toUInt8
  else if 'A' ≤ c ∧ c ≤ 'F' then some (c.toNat - 'A'.toNat + 10).toUInt8
  else none

/-- The component of two digits. -/
def component (high low : UInt8) : UInt8 := 16 * high + low

/-- Reads `#rgb`, where each digit counts twice, and `#rrggbb`. -/
def ofHex? (text : List Char) : Option Rgb :=
  match text with
  | '#' :: digits =>
    match digits.mapM digit? with
    | some [r, g, b] => some ⟨component r r, component g g, component b b⟩
    | some [r, r', g, g', b, b'] => some ⟨component r r', component g g', component b b'⟩
    | _ => none
  | _ => none

def ofText (text : String) : Rgb :=
  match ofHex? text.toList with
  | some rgb => rgb
  | none => (ofName? text).getD black

/-- The two lower case hexadecimal digits of a component. -/
def hexDigits (value : UInt8) : List Char :=
  [Nat.digitChar (value.toNat / 16), Nat.digitChar (value.toNat % 16)]

def hex (rgb : Rgb) : String :=
  String.ofList ('#' :: hexDigits rgb.red ++ hexDigits rgb.green ++ hexDigits rgb.blue)

end Rgb

/-- A color with the text that it was read from. -/
structure Color where
  text : String
  rgb : Rgb
deriving DecidableEq

def Color.ofText (text : String) : Color := ⟨text, Rgb.ofText text⟩

end FormulaMarkup
