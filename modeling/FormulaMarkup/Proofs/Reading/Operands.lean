import FormulaMarkup.Proofs.Formula.Places

/-!
# Sequences as operands

A formula that is read as an operand, in a fraction, before a script or as one is single: it is a
leaf, an operation or in brackets. Only an expression is a sequence of formulas, and it is read in
brackets or at the top.

There is one exception. A bar that no other bar closes is a symbol before the expression behind it,
and both are one sequence in the place of what would have stood between bars (`Formula.IsBarred`).
So each sequence in a slot begins with such a bar (`Reads.slotSequences_isBarred`).
-/

namespace FormulaMarkup

/-- Does one formula stand here where an expression would have several? -/
def Place.isSlot : Place → Bool
  | .operand | .term | .base | .script => true
  | _ => false

namespace Formula

def isSequence : Formula → Bool
  | sequence _ => true
  | _ => false

/-- Only sequences that are allowed stand in the slots of the formula. -/
def SlotSequences (allowed : Formula → Prop) (formula : Formula) : Prop :=
  ∀ part ∈ formula.placed, part.1.isSlot = true → part.2.isSequence = true → allowed part.2

/-- The formulas next to each other begin with the symbol of a bar among the tokens. -/
def IsBarred (tokens : List Token) (formula : Formula) : Prop :=
  ∃ bar ∈ tokens, bar.kind = .bar ∧ formula.items.head? = some (.symbol bar.mark)

variable {allowed : Formula → Prop} {formula : Formula}

theorem SlotSequences.mono {weaker : Formula → Prop}
    (hweaker : ∀ formula, allowed formula → weaker formula) (h : SlotSequences allowed formula) :
    SlotSequences weaker formula :=
  fun part hpart hslot hsequence ↦ hweaker _ (h part hpart hslot hsequence)

theorem everywhere_slotSequences_true (formula : Formula) :
    Everywhere (SlotSequences fun _ ↦ True) formula :=
  everywhere_of_forall (fun _ _ _ _ _ ↦ trivial) formula

/-- Only operations and formulas with scripts have slots. -/
theorem slotSequences_of_noSlots (hoperation : formula.isOperation = false)
    (hscripted : formula.isScripted = false) : SlotSequences allowed formula := by
  have hplaces : ∀ part ∈ formula.placed, part.1.isSlot = false := by
    cases formula with
    | unary | binary | infixOp => cases hoperation
    | sub | sup | subSup => cases hscripted
    | sequence | bracketed | grouped | matrix =>
      rw [placed, List.forall_mem_map]
      exact fun _ _ ↦ rfl
    | _ => exact List.forall_mem_nil _
  intro part hpart hslot
  rw [hplaces part hpart] at hslot
  cases hslot

theorem neutral_slotSequences (allowed : Formula → Prop) : Neutral (SlotSequences allowed) where
  plain _ hoperation _ hscripted := slotSequences_of_noSlots hoperation hscripted
  grouped h := h

/-- The formula can stand in a slot, and so can all that stands in the slots within it. -/
structure Single (allowed : Formula → Prop) (formula : Formula) : Prop where
  within : Everywhere (SlotSequences allowed) formula
  here : formula.isSequence = true → allowed formula

theorem Single.asOperand (h : Single allowed formula) : Single allowed formula.asOperand where
  within := everywhere_asOperand (neutral_slotSequences allowed) h.within
  here hsequence := by
    cases formula with
    | bracketed left body right =>
      rw [Formula.asOperand] at hsequence
      split at hsequence <;> cases hsequence
    | _ => exact h.here hsequence

theorem Single.converted (h : Single allowed formula) (conversion : Option Conversion) :
    Single allowed (formula.converted conversion) where
  within := everywhere_converted (neutral_slotSequences allowed) h.within conversion
  here hsequence := by
    cases conversion with
    | none => exact h.here hsequence
    | some conversion =>
      cases conversion
      cases hsequence

/-- A formula whose parts all stand in slots. -/
theorem single_of_placed (hsequence : formula.isSequence = false)
    (h : ∀ part ∈ formula.placed, Single allowed part.2) : Single allowed formula where
  within := by
    apply Everywhere.intro fun part hpart _ ↦ (h part hpart).here
    rw [← map_snd_placed, List.forall_mem_map]
    exact fun part hpart ↦ (h part hpart).within
  here hcontra := by
    rw [hsequence] at hcontra
    cases hcontra

theorem Single.withScripts {base : Formula} {lower upper : Option Formula}
    (hbase : Single allowed base) (hlower : ∀ formula ∈ lower, Single allowed formula)
    (hupper : ∀ formula ∈ upper, Single allowed formula) :
    Single allowed (base.withScripts lower upper) := by
  cases lower with
  | none =>
    cases upper with
    | none => exact hbase
    | some upper =>
      apply single_of_placed rfl
      simpa [Formula.withScripts, placed] using ⟨hbase, (hupper upper rfl).asOperand⟩
  | some lower =>
    cases upper with
    | none =>
      apply single_of_placed rfl
      simpa [Formula.withScripts, placed] using ⟨hbase, (hlower lower rfl).asOperand⟩
    | some upper =>
      apply single_of_placed rfl
      simpa [Formula.withScripts, placed] using
        ⟨hbase, (hlower lower rfl).asOperand, (hupper upper rfl).asOperand⟩

end Formula

open Formula

namespace Reading

variable {allowed : Formula → Prop}

theorem single_operandOf {only : Option Formula} (h : ∀ formula ∈ only, Single allowed formula) :
    Single allowed (operandOf only) := by
  cases only with
  | none => exact single_of_placed rfl (by simp [operandOf, placed])
  | some formula => exact (h formula rfl).asOperand

theorem single_leaf {token : Token} {formula : Formula} (h : token.leaf? = some formula) :
    Single allowed formula := by
  simp only [Token.leaf?] at h
  split at h <;> cases h <;> exact single_of_placed rfl (by simp [placed])

theorem single_enclose {left right : Mark} {body : Option Formula}
    (h : ∀ formula ∈ body, Everywhere (SlotSequences allowed) formula) :
    Single allowed (Matrix.enclose left body right) where
  within := Matrix.everywhere_enclose (neutral_slotSequences allowed)
    (fun _ ↦ slotSequences_of_noSlots rfl rfl) (fun _ ↦ slotSequences_of_noSlots rfl rfl) h
  here hsequence := by
    unfold Matrix.enclose at hsequence
    split at hsequence <;> cases hsequence

/-- A bar that is not closed comes first in the sequence that it begins. -/
theorem single_unclosed {tokens : List Token} {left : Token} {body : Option Formula}
    (hleft : left ∈ tokens)
    (h : ∀ formula ∈ body, Everywhere (SlotSequences (IsBarred tokens)) formula) :
    Single (IsBarred tokens) (Reader.unclosed left body) := by
  rw [unclosed_eq]
  split
  · next hbar =>
    have hmark : Everywhere (SlotSequences (IsBarred tokens)) (.symbol left.mark) :=
      everywhere_of_parts_eq_nil (slotSequences_of_noSlots rfl rfl) rfl
    refine ⟨everywhere_followedBy (neutral_slotSequences _) hmark h, fun hsequence ↦ ?_⟩
    cases body with
    | none => cases hsequence
    | some body =>
      refine ⟨left, hleft, hbar, ?_⟩
      rw [followedBy, items_concat]
      rfl
  · exact ⟨everywhere_bracketed (slotSequences_of_noSlots rfl rfl) h, by rintro ⟨⟩⟩

/-- An expression that is a sequence goes into no slot as a whole. -/
theorem closed_single (tokens : List Token) :
    Closed (· ∈ tokens) (Single (IsBarred tokens))
      (Everywhere (SlotSequences (IsBarred tokens))) where
  leaf _ := single_leaf
  stray _ _ := single_of_placed rfl (by simp [placed])
  unary _ _ h := by
    apply single_of_placed rfl
    simpa [unaryOf, placed] using (single_operandOf h).converted _
  binary _ _ hfirst hsecond := by
    apply single_of_placed rfl
    simpa [binaryOf, placed] using
      ⟨(single_operandOf hfirst).converted _, (single_operandOf hsecond).converted _⟩
  enclose _ _ _ := single_enclose
  unclosed hleft _ := single_unclosed hleft
  withScripts := Single.withScripts
  fraction _ _ habove hbelow := by
    apply single_of_placed rfl
    simpa [fractionOf, placed] using ⟨habove.asOperand, hbelow.asOperand⟩
  followedBy hfirst := everywhere_followedBy (neutral_slotSequences _) hfirst.within
  run_of_single := Single.within

/-- At every depth, a sequence that stands in a slot begins with a bar among the tokens. -/
theorem Reads.slotSequences_isBarred {level closer tokens result rest}
    (h : Reads level closer tokens result rest) :
    ∀ formula ∈ result, Everywhere (SlotSequences (IsBarred tokens)) formula := by
  intro formula hmem
  have hholds := h.forall_of_closedAt (closed_single tokens) (fun _ htoken ↦ htoken) formula hmem
  cases level with
  | simple | scripted => exact hholds.within
  | expression => exact hholds

end Reading

end FormulaMarkup
