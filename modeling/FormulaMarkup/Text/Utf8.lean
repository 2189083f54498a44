/-!
# Characters and their bytes

Texts are read as lists of characters and measured in bytes of their UTF-8 form. `splitAt` cuts a
list of characters at a byte position, and so only ever between two characters.
-/

namespace FormulaMarkup.Utf8

/-- The number of bytes of a text. -/
def size : List Char → Nat
  | [] => 0
  | c :: cs => c.utf8Size + size cs

def bytes (cs : List Char) : List UInt8 := cs.flatMap String.utf8EncodeChar

/-- The longest front of at most `room` bytes, and the rest. -/
def splitAt : Nat → List Char → List Char × List Char
  | _, [] => ([], [])
  | room, c :: cs =>
    if c.utf8Size ≤ room then
      let (front, rest) := splitAt (room - c.utf8Size) cs
      (c :: front, rest)
    else ([], c :: cs)

/-- The front of exactly `count` bytes, if such a cut falls between two characters. -/
def take? (count : Nat) (cs : List Char) : Option (List Char) :=
  let front := (splitAt count cs).1
  if size front = count then some front else none

@[simp]
theorem size_nil : size [] = 0 := rfl

@[simp]
theorem size_cons (c : Char) (cs : List Char) : size (c :: cs) = c.utf8Size + size cs := rfl

@[simp]
theorem size_append (cs ds : List Char) : size (cs ++ ds) = size cs + size ds := by
  induction cs with
  | nil => simp
  | cons c cs ih => simp [ih, Nat.add_assoc]

@[simp]
theorem length_bytes (cs : List Char) : (bytes cs).length = size cs := by
  induction cs with
  | nil => rfl
  | cons c cs ih => simp [bytes] at ih ⊢; omega

theorem length_le_size (cs : List Char) : cs.length ≤ size cs := by
  induction cs with
  | nil => simp
  | cons c cs ih =>
    have := Char.utf8Size_pos c
    simp only [List.length_cons, size_cons]
    omega

theorem splitAt_append (count : Nat) (cs : List Char) :
    (splitAt count cs).1 ++ (splitAt count cs).2 = cs := by
  induction cs generalizing count with
  | nil => rfl
  | cons c cs ih =>
    simp only [splitAt]
    split
    · simpa using ih _
    · rfl

/-- The size of a front cuts that front off again. -/
theorem splitAt_size (cs ds : List Char) : splitAt (size cs) (cs ++ ds) = (cs, ds) := by
  induction cs with
  | nil =>
    cases ds with
    | nil => rfl
    | cons d ds => simp [splitAt, Nat.not_le.mpr (Char.utf8Size_pos d)]
  | cons c cs ih => simp [splitAt, ih]

theorem take?_size (cs ds : List Char) : take? (size cs) (cs ++ ds) = some cs := by
  simp [take?, splitAt_size]

theorem eq_append_of_take? {count : Nat} {cs front : List Char} (h : take? count cs = some front) :
    size front = count ∧ ∃ rest, cs = front ++ rest := by
  simp only [take?] at h
  split at h
  · next hsize =>
    cases h
    exact ⟨hsize, _, (splitAt_append count cs).symm⟩
  · cases h

end FormulaMarkup.Utf8
