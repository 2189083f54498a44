import FormulaMarkup.Fault
import FormulaMarkup.Markup.Escape

/-!
# Writing to a sink

Output is written piece by piece to a sink that may refuse a character. Writing ends at the first
refusal, or where a formula has a fault, and in both cases the sink is left with what it took.
-/

namespace FormulaMarkup

/-- Takes a character, or refuses it. -/
class Sink (σ : Type) where
  put? : σ → Char → Option σ

/-- A sink that takes `room` characters more. -/
structure Bounded where
  room : Nat
  /-- the characters taken, the last one first -/
  taken : List Char := []
deriving DecidableEq

def Bounded.written (sink : Bounded) : String := String.ofList sink.taken.reverse

instance : Sink Bounded where
  put? sink c :=
    match sink.room with
    | 0 => none
    | room + 1 => some ⟨room, c :: sink.taken⟩

/-- A text has room for all characters. -/
instance : Sink String where
  put? text c := some (text.push c)

def Sink.putChars {σ : Type} [Sink σ] : List Char → σ → Except σ σ
  | [], sink => .ok sink
  | c :: cs, sink =>
    match put? sink c with
    | some sink => putChars cs sink
    | none => .error sink

/-- Why writing ends early. -/
inductive Stop where
  | refused
  | fault (fault : Fault)

abbrev Writing (σ : Type) := EStateM Stop σ

namespace Writing

variable {σ : Type} [Sink σ]

def chars (cs : List Char) : Writing σ Unit := fun sink ↦
  match Sink.putChars cs sink with
  | .ok sink => .ok () sink
  | .error sink => .error .refused sink

def put (text : String) : Writing σ Unit := chars text.toList

/-- The pieces of a formatted text, each put on its own. -/
def putAll : List String → Writing σ Unit
  | [] => pure ()
  | piece :: pieces => do
    put piece
    putAll pieces

/-- A text with each of its characters escaped and put on its own. -/
def escaped (nonAscii quotes : Bool) : List Char → Writing σ Unit
  | [] => pure ()
  | c :: text => do
    chars (Markup.escapeChar nonAscii quotes c)
    escaped nonAscii quotes text

end Writing

end FormulaMarkup
