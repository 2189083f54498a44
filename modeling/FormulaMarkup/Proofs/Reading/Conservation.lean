import FormulaMarkup.Formula.Induction
import FormulaMarkup.Proofs.Reading.Accounts
import FormulaMarkup.Proofs.Reading.Run

/-!
# Reading keeps every token in its place

`Formula.marks` lists the leaves, operators and delimiters of a formula in order. Up to the marks
that a formula need not hold, those of the formula that was read are the tokens that were used up,
whichever of them fit the grammar. Whatever a view shows of a mark, as long as it does not tell
these apart (`Conserved`), it shows of the formula what it shows of the tokens (`Reads.shown_eq`).

A formula need not hold the marks of scripts and fractions, since a dangling one is dropped, nor
the commas and plain brackets that the cells and rows of a matrix replace. On the other side, an
empty identifier stands where an operand is missing. Neither the end of the input nor the operand
of a conversion is kept, so both have to be absent here.
-/

namespace FormulaMarkup

namespace Mark

/-- Can a formula do without the mark? -/
def isSkipped (mark : Mark) : Bool :=
  match mark.kind with
  | .infixOp => mark.symbol = some .sub || mark.symbol = some .sup || mark.symbol = some .frac
  | .identifier => mark.text = ","
  | .opening => mark.spells .leftParen "(" || mark.spells .leftBracket "["
  | .closing => mark.spells .rightParen ")" || mark.spells .rightBracket "]"
  | _ => false

/-- Does the mark stand for a missing operand? -/
def isMissing (mark : Mark) : Bool := mark.kind = .identifier && mark.text = ""

/-- What is compared of a mark. A leaf keeps no symbol. -/
def face (mark : Mark) : TokenKind × String := (mark.kind, mark.text)

end Mark

namespace Formula

mutual

/-- The leaves, operators and delimiters in order. -/
def marks : Formula → List Mark
  | empty => []
  | number written => [⟨none, written, .number⟩]
  | text written => [⟨none, written, .text⟩]
  | identifier written => [⟨none, written, .identifier⟩]
  | symbol mark => [mark]
  | sequence items => marksOfList items
  | bracketed left body right => left.toList ++ marksOfBody body ++ right.toList
  | grouped left body right => left.toList ++ marksOfBody body ++ right.toList
  | matrix left rows right => left :: marksOfRows rows ++ [right]
  | unary operator operand => operator.mark .unary :: marks operand
  | binary operator first second => operator.mark .binary :: marks first ++ marks second
  | infixOp operator first second => marks first ++ operator.mark .infixOp :: marks second
  | sub base script => marks base ++ marks script
  | sup base script => marks base ++ marks script
  | subSup base lower upper => marks base ++ marks lower ++ marks upper
  | color _ => []

def marksOfList : List Formula → List Mark
  | [] => []
  | formula :: rest => marks formula ++ marksOfList rest

def marksOfBody : Option Formula → List Mark
  | none => []
  | some formula => marks formula

def marksOfRows : List (List Formula) → List Mark
  | [] => []
  | cells :: rest => marksOfList cells ++ marksOfRows rest

end

section

variable (left right : Option Mark) (operator : Operator) (formula first second : Formula)

@[simp] theorem marks_empty : empty.marks = [] := rfl

@[simp] theorem marks_number (written : String) :
    (number written).marks = [⟨none, written, .number⟩] := rfl

@[simp] theorem marks_text (written : String) :
    (text written).marks = [⟨none, written, .text⟩] := rfl

@[simp] theorem marks_identifier (written : String) :
    (identifier written).marks = [⟨none, written, .identifier⟩] := rfl

@[simp] theorem marks_symbol (mark : Mark) : (symbol mark).marks = [mark] := rfl

@[simp] theorem marks_sequence (items : List Formula) :
    (sequence items).marks = marksOfList items := rfl

@[simp] theorem marks_bracketed (body : Option Formula) :
    (bracketed left body right).marks = left.toList ++ marksOfBody body ++ right.toList := rfl

@[simp] theorem marks_grouped (body : Option Formula) :
    (grouped left body right).marks = left.toList ++ marksOfBody body ++ right.toList := rfl

@[simp] theorem marks_matrix (left right : Mark) (rows : List (List Formula)) :
    (matrix left rows right).marks = left :: marksOfRows rows ++ [right] := rfl

@[simp] theorem marks_unary :
    (unary operator formula).marks = operator.mark .unary :: formula.marks := rfl

@[simp] theorem marks_binary : (binary operator first second).marks =
    operator.mark .binary :: first.marks ++ second.marks := rfl

@[simp] theorem marks_infixOp : (infixOp operator first second).marks =
    first.marks ++ operator.mark .infixOp :: second.marks := rfl

@[simp] theorem marks_sub : (sub first second).marks = first.marks ++ second.marks := rfl

@[simp] theorem marks_sup : (sup first second).marks = first.marks ++ second.marks := rfl

@[simp] theorem marks_subSup :
    (subSup formula first second).marks = formula.marks ++ first.marks ++ second.marks := rfl

@[simp] theorem marksOfBody_none : marksOfBody none = [] := rfl

@[simp] theorem marksOfBody_some : marksOfBody (some formula) = formula.marks := rfl

@[simp] theorem marksOfList_nil : marksOfList [] = [] := rfl

@[simp] theorem marksOfList_cons (rest : List Formula) :
    marksOfList (formula :: rest) = formula.marks ++ marksOfList rest := rfl

@[simp] theorem marksOfRows_nil : marksOfRows [] = [] := rfl

@[simp] theorem marksOfRows_cons (cells : List Formula) (rest : List (List Formula)) :
    marksOfRows (cells :: rest) = marksOfList cells ++ marksOfRows rest := rfl

end

theorem marksOfList_append (front rest : List Formula) :
    marksOfList (front ++ rest) = marksOfList front ++ marksOfList rest := by
  induction front with
  | nil => simp
  | cons formula front ih => simp [ih]

theorem marksOfList_items (formula : Formula) : marksOfList formula.items = formula.marks := by
  cases formula with
  | sequence items => rfl
  | _ => simp [Formula.items]

theorem marks_concat (left right : Formula) :
    (left.concat right).marks = left.marks ++ right.marks := by
  rw [concat_eq, marks_sequence, marksOfList_append, marksOfList_items, marksOfList_items]

theorem marks_followedBy (first : Formula) (more : Option Formula) :
    (first.followedBy more).marks = first.marks ++ marksOfBody more := by
  cases more with
  | none => simp [followedBy]
  | some more => rw [followedBy, marks_concat, marksOfBody_some]

/-- Dropping brackets around an operand keeps them in the tree. -/
theorem marks_asOperand (formula : Formula) : formula.asOperand.marks = formula.marks := by
  cases formula with
  | bracketed left body right =>
    rw [asOperand]
    split
    · rw [marks_grouped, marks_bracketed]
    · rfl
  | _ => rfl

theorem marks_withScripts (base : Formula) (lower upper : Option Formula) :
    (base.withScripts lower upper).marks =
      base.marks ++ marksOfBody lower ++ marksOfBody upper := by
  cases lower <;> cases upper <;> simp [withScripts, marks_asOperand]

end Formula

namespace Reading

open Formula

/-! ## Views of marks -/

section View

variable {α : Type}

/-- A view of marks shows nothing of those that a formula can do without or that stand for a missing
operand, and of a leaf it does not show the symbol. -/
structure Conserved (view : Mark → List α) : Prop where
  skipped : ∀ {mark : Mark}, mark.isSkipped = true → view mark = []
  missing : ∀ {mark : Mark}, mark.isMissing = true → view mark = []
  leaf : ∀ {kind : TokenKind}, kind = .number ∨ kind = .text ∨ kind = .identifier →
    ∀ text first second, view ⟨first, text, kind⟩ = view ⟨second, text, kind⟩

/-- What a view shows of a formula that may be missing. -/
def seenOf (view : Mark → List α) (result : Option Formula) : List α :=
  (marksOfBody result).flatMap view

/-- What a view shows of tokens. -/
def shown (view : Mark → List α) (tokens : List Token) : List α :=
  (tokens.map Token.mark).flatMap view

variable {view : Mark → List α}

@[simp] theorem seenOf_none (view : Mark → List α) : seenOf view none = [] := rfl

@[simp] theorem seenOf_some (view : Mark → List α) (formula : Formula) :
    seenOf view (some formula) = formula.marks.flatMap view := rfl

@[simp] theorem shown_nil (view : Mark → List α) : shown view [] = [] := rfl

theorem shown_cons (view : Mark → List α) (token : Token) (rest : List Token) :
    shown view (token :: rest) = view token.mark ++ shown view rest := rfl

theorem seen_between (view : Mark → List α) (left : Mark) (inner : List Mark) (right : Mark) :
    (left :: inner ++ [right]).flatMap view = view left ++ inner.flatMap view ++ view right := by
  simp

/-! ## A matrix shows what its brackets held -/

theorem Conserved.separator (hview : Conserved view) {formula : Formula}
    (h : Matrix.isSeparator formula = true) : formula.marks.flatMap view = [] := by
  unfold Matrix.isSeparator at h
  split at h
  · rw [marks_identifier, List.flatMap_singleton]
    apply hview.skipped
    exact h
  · cases h

theorem Conserved.rowFence (hview : Conserved view) {left right : Mark}
    (h : Matrix.isRowFence left right = true) : view left = [] ∧ view right = [] := by
  simp only [Matrix.isRowFence, Bool.and_eq_true, Bool.or_eq_true, decide_eq_true_eq] at h
  obtain ⟨⟨hopening, hclosing⟩, hspells⟩ := h
  constructor
  · apply hview.skipped
    simp only [Mark.isSkipped, hopening, Bool.or_eq_true]
    exact hspells.imp And.left And.left
  · apply hview.skipped
    simp only [Mark.isSkipped, hclosing, Bool.or_eq_true]
    exact hspells.imp And.right And.right

theorem Conserved.rowBody (hview : Conserved view) {formula : Formula} {body : Option Formula}
    (h : Matrix.rowBody? formula = some body) : formula.marks.flatMap view = seenOf view body := by
  unfold Matrix.rowBody? at h
  split at h
  · next left body' right =>
    split at h
    · next hfence =>
      cases h
      obtain ⟨hleft, hright⟩ := hview.rowFence hfence
      simp [hleft, hright, seenOf]
    · cases h
  · cases h

theorem marks_cellOf (formulas : List Formula) :
    (Matrix.cellOf formulas).marks = marksOfList formulas := by
  unfold Matrix.cellOf
  split
  · rfl
  · simp
  · rfl

theorem Conserved.splitAtSeparators (hview : Conserved view) (formulas : List Formula) :
    (marksOfList ((Matrix.splitAtSeparators formulas).map Matrix.cellOf)).flatMap view =
      (marksOfList formulas).flatMap view := by
  induction formulas with
  | nil => simp [Matrix.splitAtSeparators, marks_cellOf]
  | cons formula rest ih =>
    rw [Matrix.splitAtSeparators]
    split
    · next hseparator => simp [marks_cellOf, ih, hview.separator hseparator]
    · split
      · next hnil => exact absurd hnil (Matrix.splitAtSeparators_ne_nil rest)
      · next run runs hruns =>
        rw [hruns] at ih
        simpa [marks_cellOf] using ih

theorem Conserved.cellsOf (hview : Conserved view) (body : Option Formula) :
    (marksOfList (Matrix.cellsOf body)).flatMap view = seenOf view body := by
  unfold Matrix.cellsOf
  split
  · simp
  · next items => rw [hview.splitAtSeparators, seenOf_some, marks_sequence]
  · simp

theorem Conserved.rowBodies (hview : Conserved view) {formulas : List Formula}
    {bodies : List (Option Formula)} (h : Matrix.rowBodies? formulas = some bodies) :
    (marksOfRows (bodies.map Matrix.cellsOf)).flatMap view =
      (marksOfList formulas).flatMap view := by
  fun_induction Matrix.rowBodies? formulas generalizing bodies with
  | case1 => cases h
  | case2 row =>
    obtain ⟨body, hbody, rfl⟩ := Option.map_eq_some_iff.mp h
    simp [hview.cellsOf, hview.rowBody hbody]
  | case3 row separator rows hseparator ih =>
    obtain ⟨body, hbody, h⟩ := Option.bind_eq_some_iff.mp h
    obtain ⟨later, hlater, h⟩ := Option.bind_eq_some_iff.mp h
    cases h
    simp [hview.cellsOf, hview.rowBody hbody, hview.separator hseparator, ih hlater]
  | case4 => cases h

theorem Conserved.enclose (hview : Conserved view) (left right : Mark) (body : Option Formula) :
    (Matrix.enclose left body right).marks.flatMap view =
      view left ++ seenOf view body ++ view right := by
  unfold Matrix.enclose
  split
  · next bodies hbodies =>
    obtain ⟨formula, rfl, hrows⟩ := Option.bind_eq_some_iff.mp hbodies
    have hseen := hview.rowBodies hrows
    rw [marksOfList_items] at hseen
    rw [marks_matrix, seen_between, hseen, seenOf_some]
  · exact seen_between view left (marksOfBody body) right

/-! ## Reading keeps the tokens -/

/-- No token is the end of the input or converts an operand. -/
def Ordinary (tokens : List Token) : Prop :=
  ∀ token ∈ tokens, token.kind ≠ .endOfInput ∧ token.conversions = none

theorem Ordinary.kind_ne {tokens : List Token} (h : Ordinary tokens) :
    ∀ token ∈ tokens, token.kind ≠ .endOfInput :=
  fun token hmem ↦ (h token hmem).1

theorem Ordinary.eq_nil {tokens : List Token} (h : Ordinary tokens)
    (hend : (ahead tokens).kind = .endOfInput) : tokens = [] :=
  eq_nil_of_ended h.kind_ne hend

/-- A leaf shows its token, though perhaps not the symbol. -/
theorem Conserved.token (hview : Conserved view) {token : Token} {formula : Formula}
    (h : token.leaf? = some formula) : formula.marks.flatMap view = view token.mark := by
  unfold Token.leaf? at h
  split at h
  · next hkind =>
    cases h
    rw [marks_number, List.flatMap_singleton, Token.mark, hkind]
    exact hview.leaf (.inl rfl) _ _ _
  · next hkind =>
    cases h
    rw [marks_text, List.flatMap_singleton, Token.mark, hkind]
    exact hview.leaf (.inr (.inl rfl)) _ _ _
  · next hkind =>
    cases h
    rw [marks_identifier, List.flatMap_singleton, Token.mark, hkind]
    exact hview.leaf (.inr (.inr rfl)) _ _ _
  · cases h
    exact List.flatMap_singleton view token.mark
  · cases h
    exact List.flatMap_singleton view token.mark
  · cases h

theorem Conserved.infixToken (hview : Conserved view) {token : Token} {symbol : Symbol}
    (h : token.isInfix symbol = true) (hsymbol : symbol = .sub ∨ symbol = .sup ∨ symbol = .frac) :
    view token.mark = [] := by
  have hmark := Token.isInfix_iff.mp h
  apply hview.skipped
  rcases hsymbol with rfl | rfl | rfl <;> simp [Mark.isSkipped, Token.mark, hmark.1, hmark.2]

theorem operator_mark {token : Token} {arity : Arity} (h : token.kind = arity.kind) :
    token.operator.mark arity = token.mark := by
  rw [Token.operator, Operator.mark, Token.mark, h]

theorem Conserved.operandOf (hview : Conserved view) (only : Option Formula) :
    (operandOf only).marks.flatMap view = seenOf view only := by
  cases only with
  | none =>
    rw [Reading.operandOf, marks_identifier, List.flatMap_singleton, seenOf_none]
    exact hview.missing rfl
  | some formula => rw [Reading.operandOf, marks_asOperand, seenOf_some]

theorem Conserved.unaryOf (hview : Conserved view) {operator : Token}
    (hkind : operator.kind = .unary) (hplain : operator.conversions.getD {} = {})
    (only : Option Formula) :
    (unaryOf operator only).marks.flatMap view = view operator.mark ++ seenOf view only := by
  rw [Reading.unaryOf, hplain, marks_unary, operator_mark hkind, List.flatMap_cons]
  exact congrArg _ (hview.operandOf only)

theorem Conserved.binaryOf (hview : Conserved view) {operator : Token}
    (hkind : operator.kind = .binary) (hplain : operator.conversions.getD {} = {})
    (first second : Option Formula) :
    (binaryOf operator first second).marks.flatMap view =
      view operator.mark ++ seenOf view first ++ seenOf view second := by
  rw [Reading.binaryOf, hplain, marks_binary, operator_mark hkind, List.cons_append,
    List.flatMap_cons, List.flatMap_append, ← List.append_assoc]
  exact congrArg₂ _ (congrArg _ (hview.operandOf first)) (hview.operandOf second)

theorem Conserved.fractionOf (hview : Conserved view) {line : Token}
    (h : line.isInfix .frac = true) (above below : Formula) :
    (fractionOf line above below).marks.flatMap view =
      above.marks.flatMap view ++ below.marks.flatMap view := by
  have hkind := (Token.isInfix_iff.mp h).1
  rw [Reading.fractionOf, marks_infixOp, List.flatMap_append, List.flatMap_cons,
    operator_mark hkind, hview.infixToken h (.inr (.inr rfl)), marks_asOperand, marks_asOperand,
    List.nil_append]

theorem seen_followedBy (view : Mark → List α) (first : Formula) (more : Option Formula) :
    (first.followedBy more).marks.flatMap view =
      first.marks.flatMap view ++ seenOf view more := by
  rw [marks_followedBy, List.flatMap_append, seenOf]

theorem seen_unclosed (view : Mark → List α) (left : Token) (body : Option Formula) :
    (Reader.unclosed left body).marks.flatMap view = view left.mark ++ seenOf view body := by
  rw [unclosed_eq]
  split
  · rw [seen_followedBy, marks_symbol, List.flatMap_singleton]
  · simp [seenOf]

theorem seen_withScripts (view : Mark → List α) (base : Formula) (lower upper : Option Formula) :
    (base.withScripts lower upper).marks.flatMap view =
      base.marks.flatMap view ++ seenOf view lower ++ seenOf view upper := by
  rw [marks_withScripts, List.flatMap_append, List.flatMap_append, seenOf, seenOf]

theorem seenIn_marks (view : Mark → List α) (result : Option Formula) :
    seenIn (fun formula ↦ formula.marks.flatMap view) result = seenOf view result := by
  cases result <;> rfl

theorem flatMap_mark (view : Mark → List α) (tokens : List Token) :
    tokens.flatMap (fun token ↦ view token.mark) = shown view tokens :=
  (List.flatMap_map Token.mark view tokens).symm

/-- What a view shows of ordinary tokens is accounted for. -/
theorem Conserved.accounts (hview : Conserved view) :
    Accounts (fun token ↦ token.kind ≠ .endOfInput ∧ token.conversions = none) (fun _ ↦ True)
      (fun _ ↦ True) (fun token ↦ view token.mark) (fun formula ↦ formula.marks.flatMap view) where
  closed := closed_true
  unending := And.left
  infixMark _ hmark hsymbol := hview.infixToken hmark hsymbol
  leaf _ hleaf := hview.token hleaf
  stray _ _ := List.flatMap_singleton _ _
  unary hfits hkind _ := by
    rw [seenIn_marks, hview.unaryOf hkind (by rw [hfits.2]; rfl)]
  binary hfits hkind _ _ := by
    rw [seenIn_marks, seenIn_marks, hview.binaryOf hkind (by rw [hfits.2]; rfl)]
  enclose _ _ _ _ := by rw [seenIn_marks, hview.enclose]
  unclosed _ _ _ := by rw [seenIn_marks, seen_unclosed]
  withScripts _ _ _ := by rw [seenIn_marks, seenIn_marks, seen_withScripts]
  fraction _ hline _ _ := hview.fractionOf hline _ _
  followedBy _ _ := by rw [seenIn_marks, seen_followedBy]

/-- What reading uses up is shown by the formula, in its order. -/
theorem Reads.shown_eq (hview : Conserved view) {level closer tokens result rest}
    (h : Reads level closer tokens result rest) (hplain : Ordinary tokens) :
    shown view tokens = seenOf view result ++ shown view rest := by
  have haccounts := h.accounts hview.accounts hplain
  rwa [seenIn_marks, flatMap_mark, flatMap_mark] at haccounts

end View

theorem Reads.tokens_eq_nil {level tokens rest} (h : Reads level none tokens none rest)
    (hplain : Ordinary tokens) : tokens = [] := by
  generalize hcloser : none = closer at h
  generalize hresult : none = result at h
  induction h with
  | ended hend => exact hplain.eq_nil hend
  | closing => cases hcloser
  | absent _ ih => exact ih hplain hcloser rfl
  | nothing _ ih => exact ih hplain hcloser rfl
  | _ => cases hresult

/-! ## What a formula has to hold -/

/-- The marks that a formula has to hold, as far as a leaf knows them. -/
def kept (marks : List Mark) : List (TokenKind × String) :=
  (marks.filter fun mark ↦ !mark.isSkipped && !mark.isMissing).map Mark.face

/-- What a formula has to hold of the tokens that it is read from. -/
def due (tokens : List Token) : List (TokenKind × String) :=
  ((tokens.map Token.mark).filter fun mark ↦ !mark.isSkipped).map Mark.face

/-- What a formula holds of the tokens that it is read from. -/
def held (result : Option Formula) : List (TokenKind × String) := kept (marksOfBody result)

theorem kept_singleton (mark : Mark) :
    kept [mark] = if !mark.isSkipped && !mark.isMissing then [mark.face] else [] := by
  unfold kept
  rw [List.filter_cons]
  split <;> rfl

theorem kept_eq_flatMap (marks : List Mark) :
    kept marks = marks.flatMap fun mark ↦ kept [mark] := by
  induction marks with
  | nil => rfl
  | cons mark marks ih =>
    have happend : kept ([mark] ++ marks) = kept [mark] ++ kept marks := by
      simp only [kept, List.filter_append, List.map_append]
    rw [← List.singleton_append, happend, ih]
    rfl

/-- What is kept of a mark is a view of it. -/
theorem conserved_kept : Conserved fun mark ↦ kept [mark] where
  skipped h := by simp [kept_singleton, h]
  missing h := by simp [kept_singleton, h]
  leaf h text first second := by
    rw [kept_singleton, kept_singleton]
    rcases h with rfl | rfl | rfl <;> rfl

/-- Without empty identifiers among the tokens nothing stands for a missing operand. -/
theorem due_eq_shown {tokens : List Token}
    (h : ∀ token ∈ tokens, token.kind = .identifier → token.text ≠ "") :
    due tokens = shown (fun mark ↦ kept [mark]) tokens := by
  unfold shown
  rw [← kept_eq_flatMap]
  unfold due kept
  apply congrArg
  apply List.filter_congr
  intro mark hmem
  obtain ⟨token, htoken, rfl⟩ := List.mem_map.mp hmem
  have hmissing : token.mark.isMissing = false := by
    rw [Mark.isMissing, ← Bool.decide_and]
    exact decide_eq_false fun hblank ↦ h token htoken hblank.1 hblank.2
  rw [hmissing]
  exact (Bool.and_true _).symm

end Reading

open Reading

/-- The formula of an input holds all tokens in their order, whatever they are. Only an input
without tokens has no formula. -/
theorem Lexer.due_eq_held {μ : Type} [Lexicon μ Entry] {lexicon : μ}
    (hends : Lexicon.NeverEnds lexicon) {input : String}
    (hplain : ∀ token ∈ (ofString lexicon input).tokens, token.conversions = none) :
    ∃ result, (ofString lexicon input).formula = .ok result ∧
      due (ofString lexicon input).tokens = held result ∧
      (result = none → (ofString lexicon input).tokens = []) := by
  rw [tokens_eq_stream hends] at hplain ⊢
  have hordinary : Ordinary (ofString lexicon input).stream := by
    intro token hmem
    exact ⟨kind_ne_endOfInput_of_mem_stream hends input token hmem, hplain token hmem⟩
  obtain ⟨result, rest, hformula, hreads⟩ := (ofString lexicon input).exists_read
  have hshown := hreads.shown_eq conserved_kept hordinary
  rw [hreads.rest_eq_nil hordinary.kind_ne (.inl rfl), shown_nil, List.append_nil] at hshown
  have hdue : due (ofString lexicon input).stream =
      shown (fun mark ↦ kept [mark]) (ofString lexicon input).stream :=
    due_eq_shown fun token hmem ↦ (origin_of_mem_stream hmem).text_ne_empty
  have hheld : held result = seenOf (fun mark ↦ kept [mark]) result := kept_eq_flatMap _
  refine ⟨result, hformula, (hdue.trans hshown).trans hheld.symm, ?_⟩
  rintro rfl
  exact hreads.tokens_eq_nil hordinary

/-- The spellings of a lower script, a fraction, an opening bracket and a bar. -/
def Reading.fences : Entries Entry :=
  [("_", { symbol := some .sub, kind := .infixOp }),
   ("/", { symbol := some .frac, kind := .infixOp }),
   ("(", { symbol := some .leftParen, kind := .opening }),
   ("|", { symbol := some .verticalBar, kind := .bar })]

theorem Lexer.due_eq_held_fences :
    Lexicon.NeverEnds fences ∧
      (∀ token ∈ (ofString fences "|a_(1/,b").tokens, token.conversions = none) ∧
      due (ofString fences "|a_(1/,b").tokens =
        [(.bar, "|"), (.identifier, "a"), (.number, "1"), (.identifier, "b")] ∧
      ∃ result, (ofString fences "|a_(1/,b").formula = .ok result ∧
        due (ofString fences "|a_(1/,b").tokens = held result ∧
        (result = none → (ofString fences "|a_(1/,b").tokens = []) := by
  have hends : Lexicon.NeverEnds fences := Entries.gives (by decide)
  have hall : (ofString fences "|a_(1/,b").tokens.all (·.conversions = none) = true := rfl
  have hplain := fun token hmem ↦ of_decide_eq_true (List.all_eq_true.mp hall token hmem)
  exact ⟨hends, hplain, rfl, due_eq_held hends hplain⟩

end FormulaMarkup
