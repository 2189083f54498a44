import FormulaMarkup.Lexicon.Basic
import FormulaMarkup.Symbol.Table
import FormulaMarkup.Token.Basic
import FormulaMarkup.Unicode.Blank
import FormulaMarkup.Unicode.Numeral

/-!
# Scanning one token

At a character that is not blank, `Token.scan` reads a quotation, a number, the longest known
spelling, or else one character as an identifier. What it reads is never empty, so scanning goes on
to the end of every input, whatever the lexicon answers.
-/

namespace FormulaMarkup

namespace Scan

/-- Decimal digits, and a point if digits follow it. -/
def number (cs : List Char) : List Char × List Char :=
  let whole := cs.takeWhile Char.isDigit
  let rest := cs.dropWhile Char.isDigit
  match rest with
  | '.' :: tail =>
    match tail.takeWhile Char.isDigit with
    | [] => (whole, rest)
    | fraction => (whole ++ '.' :: fraction, tail.dropWhile Char.isDigit)
  | _ => (whole, rest)

/-- What stands between an opening text and a closing character, or the end of the input. -/
def delimited? (opening : List Char) (closing : Char) (cs : List Char) :
    Option (List Char × List Char) :=
  if opening.isPrefixOf cs then
    let body := cs.drop opening.length
    some (body.takeWhile (· ≠ closing), (body.dropWhile (· ≠ closing)).tail)
  else none

/-- Text in double quotes or in the parentheses of `text(…)`. -/
def quotation? (cs : List Char) : Option (List Char × List Char) :=
  match delimited? ['"'] '"' cs with
  | some found => some found
  | none => delimited? ['t', 'e', 'x', 't', '('] ')' cs

/-- Does the character end a spelling, unless a backslash stands before it? -/
def endsSpelling (c : Char) : Bool := Unicode.isBlank c || Unicode.isNumeral c

/-- The front in which a known spelling is looked for: at most `room` characters, up to the first
that ends a spelling. A backslash takes such a character along, which can make one more. -/
def window : List Char → Nat → List Char
  | _, 0 => []
  | [], _ => []
  | '\\' :: next :: cs, room + 1 =>
    if endsSpelling next then '\\' :: next :: window cs (room - 1)
    else '\\' :: window (next :: cs) room
  | c :: cs, room + 1 => if endsSpelling c then [] else c :: window cs room

theorem number_append (cs : List Char) : (number cs).1 ++ (number cs).2 = cs := by
  have whole := List.takeWhile_append_dropWhile (p := Char.isDigit) (l := cs)
  simp only [number]
  split
  · next tail h =>
    have fraction := List.takeWhile_append_dropWhile (p := Char.isDigit) (l := tail)
    split
    · rw [whole]
    · next h' => rw [List.append_assoc, List.cons_append, fraction, ← h, whole]
  · exact whole

theorem length_delimited?_lt {opening : List Char} {closing : Char} {cs text rest : List Char}
    (hne : opening ≠ []) (h : delimited? opening closing cs = some (text, rest)) :
    rest.length < cs.length := by
  simp only [delimited?] at h
  split at h
  · next hfront =>
    cases h
    have hbody := (List.dropWhile_suffix (l := cs.drop opening.length)
      fun c ↦ decide (c ≠ closing)).length_le
    have hfits := (List.isPrefixOf_iff_prefix.mp hfront).length_le
    have hpos := List.length_pos_iff.mpr hne
    simp only [List.length_tail, List.length_drop] at hbody ⊢
    omega
  · cases h

theorem length_quotation?_lt {cs text rest : List Char} (h : quotation? cs = some (text, rest)) :
    rest.length < cs.length := by
  simp only [quotation?] at h
  split at h
  · next hfound =>
    cases h
    exact length_delimited?_lt (by simp) hfound
  · exact length_delimited?_lt (by simp) h

theorem length_number_lt {c : Char} {cs : List Char} (h : c.isDigit = true) :
    (number (c :: cs)).2.length < (c :: cs).length := by
  have happ := congrArg List.length (number_append (c :: cs))
  have hne : 0 < (number (c :: cs)).1.length := by
    simp only [number, List.takeWhile_cons, h, if_true]
    split
    · split <;> simp
    · simp
  simp only [List.length_append] at happ
  omega

theorem window_isPrefix (cs : List Char) (room : Nat) : window cs room <+: cs := by
  fun_induction window cs room with
  | case1 => exact List.nil_prefix
  | case2 => exact List.nil_prefix
  | case3 next cs room h ih => simpa [List.cons_prefix_cons] using ih
  | case4 next cs room h ih => simpa [List.cons_prefix_cons] using ih
  | case5 => exact List.nil_prefix
  | case6 c cs room h₁ h₂ ih => simpa [List.cons_prefix_cons] using ih

end Scan

open Scan in
/-- Reads one token from an input that does not start with a blank. -/
def Token.scan {μ : Type} [Lexicon μ Entry] (lexicon : μ) (cs : List Char) : Token × List Char :=
  match cs with
  | [] => (endOfInput, [])
  | c :: rest =>
    match quotation? cs with
    | some (text, rest) => (plain .text (String.ofList text), rest)
    | none =>
      if c.isDigit then
        let (digits, rest) := number cs
        (plain .number (String.ofList digits), rest)
      else
        let single := (plain .identifier (String.ofList [c]), rest)
        let front := window cs Symbol.maxSpelling
        match Lexicon.longest? lexicon front with
        | some hit =>
          match (Utf8.splitAt hit.size front).1 with
          | [] => single
          | spelling => (ofEntry (String.ofList spelling) hit.value, cs.drop spelling.length)
        | none => single

/-- Every token takes up a character. -/
theorem Token.length_scan_lt {μ : Type} [Lexicon μ Entry] (lexicon : μ) {cs : List Char}
    (h : cs ≠ []) : (Token.scan lexicon cs).2.length < cs.length := by
  match cs, h with
  | c :: rest, _ =>
    simp only [Token.scan]
    split
    · next hfound => exact Scan.length_quotation?_lt hfound
    · split
      · next hdigit => exact Scan.length_number_lt hdigit
      · split
        · split
          · simp
          · next hne =>
            have := List.length_pos_iff.mpr hne
            simp only [List.length_drop, List.length_cons]
            omega
        · simp

end FormulaMarkup
