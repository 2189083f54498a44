import FormulaMarkup.Formula.Reader
import FormulaMarkup.Formula.Writer

/-!
# From the written formula to its markup

The whole way of an input: it is read with the standard symbols and written with the given options.
-/

namespace FormulaMarkup

/-- The markup of a written formula, empty where the input is blank. The standard spellings are in a
tree of the kind `τ`. -/
def convertIn (τ : Type) [KeyTree τ Entry] (options : Options) (input : String) :
    Except Fault String := do
  Formula.render options (← Formula.ofStringIn τ input)

/-- The same with the standard spellings in a tree of bytes. -/
def convert (options : Options) (input : String) : Except Fault String :=
  convertIn (ByteTree Entry) options input

end FormulaMarkup
