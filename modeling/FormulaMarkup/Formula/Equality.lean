import FormulaMarkup.Formula.Induction

/-!
# Equality of formulas

Two formulas are equal when they are the same tree with the same texts, symbols and kinds. `same`
decides it along the trees.
-/

namespace FormulaMarkup.Formula

mutual

def same : Formula → Formula → Bool
  | empty, empty => true
  | number a, number b => a = b
  | text a, text b => a = b
  | identifier a, identifier b => a = b
  | symbol a, symbol b => a = b
  | sequence as, sequence bs => sameList as bs
  | bracketed l a r, bracketed l' b r' => l = l' && sameBody a b && r = r'
  | grouped l a r, grouped l' b r' => l = l' && sameBody a b && r = r'
  | matrix l as r, matrix l' bs r' => l = l' && sameRows as bs && r = r'
  | unary o a, unary o' b => o = o' && same a b
  | binary o a b, binary o' a' b' => o = o' && same a a' && same b b'
  | infixOp o a b, infixOp o' a' b' => o = o' && same a a' && same b b'
  | sub a b, sub a' b' => same a a' && same b b'
  | sup a b, sup a' b' => same a a' && same b b'
  | subSup a b c, subSup a' b' c' => same a a' && same b b' && same c c'
  | color a, color b => a = b
  | _, _ => false

def sameList : List Formula → List Formula → Bool
  | [], [] => true
  | a :: as, b :: bs => same a b && sameList as bs
  | _, _ => false

def sameRows : List (List Formula) → List (List Formula) → Bool
  | [], [] => true
  | a :: as, b :: bs => sameList a b && sameRows as bs
  | _, _ => false

def sameBody : Option Formula → Option Formula → Bool
  | none, none => true
  | some a, some b => same a b
  | _, _ => false

end

theorem sameList_iff {as : List Formula} (h : ∀ a ∈ as, ∀ b, same a b = true ↔ a = b)
    (bs : List Formula) : sameList as bs = true ↔ as = bs := by
  induction as generalizing bs with
  | nil => cases bs <;> simp [sameList]
  | cons a as ih =>
    obtain ⟨ha, has⟩ := List.forall_mem_cons.mp h
    cases bs with
    | nil => simp [sameList]
    | cons b bs => simp [sameList, ha b, ih has bs]

theorem sameRows_iff {as : List (List Formula)}
    (h : ∀ cells ∈ as, ∀ a ∈ cells, ∀ b, same a b = true ↔ a = b) (bs : List (List Formula)) :
    sameRows as bs = true ↔ as = bs := by
  induction as generalizing bs with
  | nil => cases bs <;> simp [sameRows]
  | cons a as ih =>
    obtain ⟨ha, has⟩ := List.forall_mem_cons.mp h
    cases bs with
    | nil => simp [sameRows]
    | cons b bs => simp [sameRows, sameList_iff ha b, ih has bs]

theorem sameBody_iff {a : Option Formula} (h : ∀ f ∈ a, ∀ b, same f b = true ↔ f = b)
    (b : Option Formula) : sameBody a b = true ↔ a = b := by
  cases a with
  | none => cases b <;> simp [sameBody]
  | some f =>
    cases b with
    | none => simp [sameBody]
    | some g => simp [sameBody, h f rfl g]

theorem same_iff (a b : Formula) : same a b = true ↔ a = b := by
  induction a generalizing b with
  | sequence as ih => cases b <;> simp [same, sameList_iff ih]
  | bracketed l a r ih => cases b <;> simp [same, sameBody_iff ih, and_assoc]
  | grouped l a r ih => cases b <;> simp [same, sameBody_iff ih, and_assoc]
  | matrix l as r ih => cases b <;> simp [same, sameRows_iff ih, and_assoc]
  | unary o a iha => cases b <;> simp [same, iha]
  | binary o x y ihx ihy => cases b <;> simp [same, ihx, ihy, and_assoc]
  | infixOp o x y ihx ihy => cases b <;> simp [same, ihx, ihy, and_assoc]
  | sub x y ihx ihy => cases b <;> simp [same, ihx, ihy]
  | sup x y ihx ihy => cases b <;> simp [same, ihx, ihy]
  | subSup x y z ihx ihy ihz => cases b <;> simp [same, ihx, ihy, ihz, and_assoc]
  | _ => cases b <;> simp [same]

instance : DecidableEq Formula := fun a b ↦ decidable_of_iff (same a b = true) (same_iff a b)

end FormulaMarkup.Formula
