import FormulaMarkup.Proofs.Formula.Places
import FormulaMarkup.Proofs.Reading.Run

/-!
# What is read is regular

Each formula that is read is regular as a whole formula (`closed_regular`), and reading makes larger
formulas only of regular ones. So all that is read from any input with any lexicon is regular at
every depth.
-/

namespace FormulaMarkup

open Formula

namespace Reading

variable {stream : List Token}

/-- The token is of the stream, and it has a text if it is an identifier. -/
def IsNamed (stream : List Token) (token : Token) : Prop :=
  token ∈ stream ∧ (token.kind = .identifier → token.text ≠ "")

theorem fenced_of_closerOf {left right : Token} (hopens : left.Opens)
    (hcloses : right.kind = Reader.closerOf left) :
    Fenced (some left.mark) (some right.mark) := by
  rcases hopens with hopening | hbar
  · rw [Reader.closerOf, if_pos hopening] at hcloses
    exact .closed hopening hcloses
  · rw [Reader.closerOf, if_neg (by rw [hbar]; decide)] at hcloses
    exact .bars hbar hcloses

theorem regular_leaf {token : Token} {formula : Formula}
    (hnamed : token.kind = .identifier → token.text ≠ "") (h : token.leaf? = some formula) :
    Regular stream .whole formula := by
  unfold Token.leaf? at h
  split at h
  · cases h
    exact regular_of_placed_eq_nil trivial rfl
  · cases h
    exact regular_of_placed_eq_nil trivial rfl
  · next hkind =>
    cases h
    exact regular_of_placed_eq_nil (fun hempty ↦ absurd hempty (hnamed hkind)) rfl
  · cases h
    exact regular_of_placed_eq_nil trivial rfl
  · cases h
    exact regular_of_placed_eq_nil trivial rfl
  · cases h

theorem regular_symbol (mark : Mark) : Regular stream .whole (.symbol mark) :=
  regular_of_placed_eq_nil trivial rfl

/-! ## Operands -/

theorem regular_operandOf {only : Option Formula}
    (h : ∀ formula ∈ only, Regular stream .whole formula) :
    Regular stream .operand (operandOf only) := by
  cases only with
  | none => exact regular_of_placed_eq_nil (fun _ ↦ rfl) rfl
  | some formula => exact (h formula rfl).asOperand rfl

/-- An operand is no color before it is converted. -/
theorem isColor_operandOf {only : Option Formula}
    (h : ∀ formula ∈ only, Regular stream .whole formula) : (operandOf only).isColor = false := by
  cases only with
  | none => rfl
  | some formula => exact (h formula rfl).isColor_asOperand

theorem regular_converted {formula : Formula} (h : Regular stream .operand formula)
    (conversion : Option Conversion) : Regular stream .operand (formula.converted conversion) := by
  cases conversion with
  | none => exact h
  | some conversion =>
    cases conversion
    exact regular_of_placed_eq_nil (Eq.refl Place.operand) rfl

theorem isColor_converted_iff {formula : Formula} (h : formula.isColor = false)
    (conversion : Option Conversion) :
    (formula.converted conversion).isColor = true ↔ conversion = some .toColor := by
  cases conversion with
  | none => simp [Formula.converted, h]
  | some conversion =>
    cases conversion
    exact iff_of_true rfl rfl

/-! ## Operations and brackets -/

theorem regular_unaryOf {operator : Token} {only : Option Formula} (hmem : operator ∈ stream)
    (hkind : operator.kind = .unary) (honly : ∀ formula ∈ only, Regular stream .whole formula) :
    Regular stream .whole (unaryOf operator only) := by
  refine .intro ⟨operator, hmem, hkind, rfl, ?_⟩ ?_
  · rw [List.forall_mem_singleton]
    exact isColor_converted_iff (isColor_operandOf honly) _
  · simp only [unaryOf, placed, List.forall_mem_singleton]
    exact regular_converted (regular_operandOf honly) _

theorem regular_binaryOf {operator : Token} {first second : Option Formula}
    (hmem : operator ∈ stream) (hkind : operator.kind = .binary)
    (hfirst : ∀ formula ∈ first, Regular stream .whole formula)
    (hsecond : ∀ formula ∈ second, Regular stream .whole formula) :
    Regular stream .whole (binaryOf operator first second) := by
  refine .intro ⟨operator, hmem, hkind, rfl, ?_⟩ ?_
  · simp only [List.forall_mem_cons]
    exact ⟨isColor_converted_iff (isColor_operandOf hfirst) _,
      isColor_converted_iff (isColor_operandOf hsecond) _, by simp⟩
  · simp only [binaryOf, placed, List.forall_mem_cons]
    exact ⟨regular_converted (regular_operandOf hfirst) _,
      regular_converted (regular_operandOf hsecond) _, by simp⟩

theorem regular_fractionOf {line : Token} {above below : Formula} (hmem : line ∈ stream)
    (hline : line.isInfix .frac = true) (habove : Regular stream .whole above)
    (hbelow : Regular stream .whole below) :
    Regular stream .whole (fractionOf line above below) := by
  obtain ⟨hkind, hsymbol⟩ := Token.isInfix_iff.mp hline
  refine .intro ⟨hsymbol, line, hmem, hkind, rfl, ?_⟩ ?_
  · simp [habove.isColor_asOperand, hbelow.isColor_asOperand]
  · simp only [fractionOf, placed, List.forall_mem_cons]
    exact ⟨habove.asOperand rfl, hbelow.asOperand rfl, by simp⟩

theorem regular_unclosed {left : Token} {body : Option Formula} (hopens : left.Opens)
    (h : ∀ formula ∈ body, Regular stream .whole formula) :
    Regular stream .whole (Reader.unclosed left body) := by
  rw [unclosed_eq]
  split
  · exact (regular_symbol left.mark).followedBy h
  · next hbar =>
    have hopening : left.mark.kind = .opening := hopens.resolve_right hbar
    apply regular_bracketed _ fun inner hmem ↦ (h inner hmem).to_body
    exact ⟨.unclosed hopening, by rintro ⟨⟩, by rintro - ⟨⟩⟩

/-- Reading makes regular formulas of regular ones. -/
theorem closed_regular (stream : List Token) :
    Closed (IsNamed stream) (Regular stream .whole) (Regular stream .whole) where
  leaf hnamed := regular_leaf hnamed.2
  stray _ _ := regular_symbol _
  unary hnamed := regular_unaryOf hnamed.1
  binary hnamed := regular_binaryOf hnamed.1
  enclose _ hopens hcloses := Matrix.regular_enclose (fenced_of_closerOf hopens hcloses)
  unclosed _ := regular_unclosed
  withScripts := Regular.withScripts
  fraction hnamed := regular_fractionOf hnamed.1
  followedBy := Regular.followedBy
  run_of_single := id

end Reading

/-- Each input gives a formula, if any, of which every part at every depth suits its place. -/
theorem Lexer.exists_formula_regular {μ : Type} [Lexicon μ Entry] (lexicon : μ) (input : String) :
    ∃ result, (ofString lexicon input).formula = .ok result ∧
      ∀ tree ∈ result, Regular (ofString lexicon input).stream .whole tree := by
  obtain ⟨result, rest, hformula, hreads⟩ := (ofString lexicon input).exists_read
  refine ⟨result, hformula, ?_⟩
  apply hreads.forall_of_closed (Reading.closed_regular _)
  intro token hmem
  exact ⟨hmem, (origin_of_mem_stream hmem).text_ne_empty⟩

end FormulaMarkup
