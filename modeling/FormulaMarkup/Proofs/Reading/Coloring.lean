import FormulaMarkup.Proofs.Color.Denotation
import FormulaMarkup.Proofs.Reading.Accounts
import FormulaMarkup.Proofs.Reading.Enclosed
import FormulaMarkup.Proofs.Reading.Grid

/-!
# Colors are read back

The operand of a color is read like any other, so that `#cc0000` may come apart into symbols,
numbers and operators, of which some may lack their operands. `Formula.source` puts the texts
together again. What it leaves out are matrices, colors and brackets that only group. None of them
is made of tokens that are no brackets, do not stand between two operands and convert nothing
(`IsInline`), so whatever these are read as, it has their texts in their order
(`Reads.source_eq`).

So behind an operator that makes a color of its first operand, the texts of such tokens in brackets
are the text of this color (`Lexer.formula_leads_color`).
-/

namespace FormulaMarkup

/-! ## The text of a formula -/

namespace Formula

theorem sourceOfList_append (front rest : List Formula) :
    sourceOfList (front ++ rest) = sourceOfList front ++ sourceOfList rest := by
  induction front with
  | nil => exact (String.empty_append).symm
  | cons formula front ih =>
    rw [List.cons_append, sourceOfList, sourceOfList, ih, String.append_assoc]

theorem sourceOfList_items (formula : Formula) : sourceOfList formula.items = formula.source := by
  cases formula with
  | sequence items => rfl
  | _ => exact String.append_empty

theorem source_followedBy (first : Formula) (more : Option Formula) :
    (first.followedBy more).source = first.source ++ sourceOfBody more := by
  cases more with
  | none => exact String.append_empty.symm
  | some more =>
    rw [followedBy, concat_eq, source, sourceOfList_append, sourceOfList_items, sourceOfList_items,
      sourceOfBody]

/-- No item loses its brackets where it becomes an operand. -/
def KeepsBrackets (formula : Formula) : Prop := ∀ item ∈ formula.items, item.asOperand = item

theorem KeepsBrackets.asOperand_eq {formula : Formula} (h : formula.KeepsBrackets) :
    formula.asOperand = formula := by
  cases formula with
  | bracketed left body right => exact h _ List.mem_cons_self
  | _ => rfl

theorem keepsBrackets_followedBy {first : Formula} {more : Option Formula}
    (hfirst : first.KeepsBrackets) (hmore : ∀ formula ∈ more, formula.KeepsBrackets) :
    (first.followedBy more).KeepsBrackets := by
  cases more with
  | none => exact hfirst
  | some more =>
    rw [KeepsBrackets, followedBy, items_concat]
    exact List.forall_mem_append.mpr ⟨hfirst, hmore more rfl⟩

theorem keepsBrackets_single {formula : Formula} (hitems : formula.items = [formula])
    (hkeeps : formula.asOperand = formula) : formula.KeepsBrackets := by
  rw [KeepsBrackets, hitems]
  exact List.forall_mem_singleton.mpr hkeeps

/-- A row of a matrix loses its brackets. -/
theorem rowBody?_eq_none {item : Formula} (h : item.asOperand = item) :
    Matrix.rowBody? item = none := by
  unfold Matrix.rowBody?
  split
  · next left body right =>
    split
    · next hfence =>
      simp only [Matrix.isRowFence, Bool.and_eq_true, decide_eq_true_eq] at hfence
      rw [asOperand, if_pos (by simp [droppable, hfence.1])] at h
      cases h
    · rfl
  · rfl

theorem enclose_eq_bracketed {body : Option Formula}
    (h : ∀ formula ∈ body, formula.KeepsBrackets) (left right : Mark) :
    Matrix.enclose left body right = .bracketed (some left) body (some right) := by
  have hrows : (body.bind fun formula ↦ Matrix.rowBodies? formula.items) = none := by
    rw [Option.bind_eq_none_iff]
    intro formula hmem
    have hkeeps := h formula hmem
    unfold KeepsBrackets at hkeeps
    cases hitems : formula.items with
    | nil => rfl
    | cons item rest =>
      rw [hitems] at hkeeps
      exact Grid.rowBodies?_eq_none (rowBody?_eq_none (hkeeps item List.mem_cons_self)) rest
  rw [Matrix.enclose, hrows]

end Formula

namespace Reading

open Formula

/-- The kinds of tokens that are no brackets and do not stand between two operands. -/
def inlineKinds : List TokenKind :=
  [.number, .text, .identifier, .symbol, .unary, .binary, .bar]

def IsInline (token : Token) : Prop := token.conversions = none ∧ token.kind ∈ inlineKinds

instance (token : Token) : Decidable (IsInline token) := inferInstanceAs (Decidable (_ ∧ _))

variable {token left right : Token} {tokens : List Token}

theorem IsInline.kind_ne {kind : TokenKind} (h : IsInline token)
    (hkind : kind ∉ inlineKinds := by decide) : token.kind ≠ kind := by
  rintro rfl
  exact hkind h.2

theorem IsInline.isInfix_eq_false (h : IsInline token) (symbol : Symbol) :
    token.isInfix symbol = false :=
  Token.isInfix_eq_false h.kind_ne symbol

/-- Only a bar can open something. -/
theorem IsInline.kind_eq_bar (h : IsInline token) (hopens : token.Opens) : token.kind = .bar :=
  hopens.resolve_left h.kind_ne

theorem IsInline.getD_conversions (h : IsInline token) : token.conversions.getD {} = {} := by
  rw [h.1]
  rfl

theorem closed_keepsBrackets : Closed IsInline KeepsBrackets KeepsBrackets where
  leaf hfits hleaf := by
    unfold Token.leaf? at hleaf
    split at hleaf <;> cases hleaf <;> exact keepsBrackets_single rfl rfl
  stray hfits hkind := absurd hkind hfits.kind_ne
  unary _ _ _ := keepsBrackets_single rfl rfl
  binary _ _ _ _ := keepsBrackets_single rfl rfl
  enclose hfits hopens _ hbody := by
    rw [enclose_eq_bracketed hbody]
    refine keepsBrackets_single rfl (if_neg ?_)
    simp [droppable, Token.mark, hfits.kind_eq_bar hopens]
  unclosed hfits hopens hbody := by
    rw [unclosed_eq, if_pos (hfits.kind_eq_bar hopens)]
    exact keepsBrackets_followedBy (keepsBrackets_single rfl rfl) hbody
  withScripts {base lower upper} hbase _ _ := by
    cases lower <;> cases upper
    · exact hbase
    · exact keepsBrackets_single rfl rfl
    · exact keepsBrackets_single rfl rfl
    · exact keepsBrackets_single rfl rfl
  fraction _ _ _ _ := keepsBrackets_single rfl rfl
  followedBy := keepsBrackets_followedBy
  run_of_single := id

/-! ## No text is lost -/

/-- What is seen of a formula is its text. -/
def spelled (formula : Formula) : List Char := formula.source.toList

theorem seenIn_spelled (result : Option Formula) :
    seenIn spelled result = (sourceOfBody result).toList := by
  cases result <;> rfl

theorem source_operandOf {result : Option Formula}
    (h : ∀ formula ∈ result, formula.KeepsBrackets) :
    (operandOf result).source = sourceOfBody result := by
  cases result with
  | none => rfl
  | some formula => rw [operandOf, (h formula rfl).asOperand_eq, sourceOfBody]

theorem source_withScripts {base : Formula} {lower upper : Option Formula}
    (hlower : ∀ formula ∈ lower, formula.KeepsBrackets)
    (hupper : ∀ formula ∈ upper, formula.KeepsBrackets) :
    (base.withScripts lower upper).source =
      base.source ++ sourceOfBody lower ++ sourceOfBody upper := by
  have hscript : ∀ {script : Option Formula}, (∀ formula ∈ script, formula.KeepsBrackets) →
      ∀ formula ∈ script, formula.asOperand = formula :=
    fun h formula hmem ↦ (h formula hmem).asOperand_eq
  cases lower with
  | none =>
    cases upper with
    | none => simp [withScripts, sourceOfBody]
    | some upper => simp [withScripts, source, sourceOfBody, hscript hupper upper rfl]
  | some lower =>
    cases upper with
    | none => simp [withScripts, source, sourceOfBody, hscript hlower lower rfl]
    | some upper =>
      simp [withScripts, source, sourceOfBody, hscript hlower lower rfl, hscript hupper upper rfl]

/-- The texts of inline tokens are accounted for. -/
theorem accounts_spelled :
    Accounts IsInline KeepsBrackets KeepsBrackets (fun token ↦ token.text.toList) spelled where
  closed := closed_keepsBrackets
  unending h := h.kind_ne
  infixMark hfits hmark _ := by
    rw [hfits.isInfix_eq_false] at hmark
    cases hmark
  leaf _ hleaf := by
    unfold Token.leaf? at hleaf
    split at hleaf <;> cases hleaf <;> rfl
  stray hfits hkind := absurd hkind hfits.kind_ne
  unary hfits _ honly := by
    rw [seenIn_spelled, spelled, unaryOf, hfits.getD_conversions, source, converted,
      source_operandOf honly, String.toList_append]
    rfl
  binary hfits _ hfirst hsecond := by
    rw [seenIn_spelled, seenIn_spelled, spelled, binaryOf, hfits.getD_conversions, source,
      converted, converted, source_operandOf hfirst, source_operandOf hsecond,
      String.toList_append, String.toList_append]
    rfl
  enclose _ _ _ hbody := by
    rw [seenIn_spelled, enclose_eq_bracketed hbody, spelled, source, String.toList_append,
      String.toList_append]
    rfl
  unclosed hfits hopens _ := by
    rw [seenIn_spelled, unclosed_eq, if_pos (hfits.kind_eq_bar hopens), spelled,
      source_followedBy, String.toList_append]
    rfl
  withScripts _ hlower hupper := by
    rw [seenIn_spelled, seenIn_spelled, spelled, source_withScripts hlower hupper,
      String.toList_append, String.toList_append]
    rfl
  fraction hfits hline _ _ := by
    rw [hfits.isInfix_eq_false] at hline
    cases hline
  followedBy first more := by
    rw [seenIn_spelled, spelled, source_followedBy, String.toList_append]
    rfl

/-- The texts of some tokens, put together. -/
def textOf (tokens : List Token) : String := String.join (tokens.map (·.text))

/-- A formula of inline tokens is spelled as they are. -/
theorem Reads.source_eq {closer : Option TokenKind} {body : Option Formula}
    (h : Reads .expression closer tokens body []) (hinline : ∀ token ∈ tokens, IsInline token) :
    sourceOfBody body = textOf tokens := by
  have haccounts := h.accounts accounts_spelled hinline
  rw [seenIn_spelled, List.flatMap_nil, List.append_nil] at haccounts
  rw [← String.toList_inj, ← haccounts, textOf, String.toList_join, List.flatMap_map]

/-! ## Colors in brackets -/

theorem balanced_of_isInline (h : ∀ token ∈ tokens, IsInline token) : Balanced tokens := by
  have hnone : ∀ {kind : TokenKind} {front : List Token}, kind ∉ inlineKinds → front <+: tokens →
      front.countP (·.kind = kind) = 0 := by
    intro kind front hkind hfront
    rw [List.countP_eq_zero]
    intro token hmem
    simpa using (h token (hfront.subset hmem)).kind_ne hkind
  constructor
  · intro front hfront
    rw [closings, hnone (by decide) hfront]
    exact Nat.zero_le _
  · rw [openings, closings, hnone (by decide) List.prefix_rfl, hnone (by decide) List.prefix_rfl]

/-- The brackets of an operand group it only, so they are not a part of its text. -/
theorem source_operandOf_bracketed (hleft : left.kind = .opening) (hright : right.kind = .closing)
    (body : Option Formula) :
    (operandOf (some (.bracketed (some left.mark) body (some right.mark)))).source =
      sourceOfBody body := by
  have hdroppable : droppable (some left.mark) (some right.mark) = true := by
    simp [droppable, Token.mark, hleft, hright]
  rw [operandOf, asOperand, if_pos hdroppable, source]

/-- Wherever a formula may start, inline tokens in brackets are the color of the operator before
them. -/
theorem reads_color {closer : Option TokenKind} {operator : Token} {later : List Token}
    (hkind : operator.kind = .binary)
    (hconverts : (operator.conversions.getD {}).first = some .toColor)
    (hleft : left.kind = .opening) (hright : right.kind = .closing)
    (hinline : ∀ token ∈ tokens, IsInline token) :
    ∃ second rest, Reads .simple closer (operator :: left :: (tokens ++ right :: later))
      (some (.binary operator.operator (.color (.ofText (textOf tokens))) second)) rest := by
  obtain ⟨body, rest, hbody⟩ := exists_reads .expression none tokens
  have hends : Descent.Unending tokens := fun token hmem ↦ (hinline token hmem).kind_ne
  obtain rfl := hbody.rest_eq_nil hends (.inl rfl)
  have hkeeps := hbody.forall_of_closed closed_keepsBrackets hinline
  have hfirst : Reads .simple closer (left :: (tokens ++ right :: later))
      (some (Matrix.enclose left.mark body right.mark)) later :=
    reads_enclosed hleft hright (balanced_of_isInline hinline) hends hbody later
  obtain ⟨second, rest, hsecond⟩ := exists_reads .simple closer later
  have hreads := Reads.binary hkind hfirst hsecond
  rw [binaryOf, hconverts, converted, toColor, enclose_eq_bracketed hkeeps,
    source_operandOf_bracketed hleft hright, hbody.source_eq hinline] at hreads
  exact ⟨_, _, hreads⟩

end Reading

namespace Formula

/-! ## The front of a formula -/

mutual

/-- What a formula begins with, below the sequences, scripts and operations that have it in
front. -/
def leading : Formula → Formula
  | sequence items => leadingOfList items
  | infixOp _ first _ => first.leading
  | sub base _ => base.leading
  | sup base _ => base.leading
  | subSup base _ _ => base.leading
  | formula => formula

def leadingOfList : List Formula → Formula
  | [] => empty
  | formula :: _ => formula.leading

end

theorem leading_followedBy {first : Formula} (h : first.items = [first]) (more : Option Formula) :
    (first.followedBy more).leading = first.leading := by
  cases more with
  | none => rfl
  | some more =>
    rw [followedBy, concat_eq, h]
    rfl

end Formula

namespace Reading

open Formula

/-- What is read first is in front of all that is read behind it. -/
theorem Reads.exists_leading {closer : Option TokenKind} {tokens rest : List Token}
    {operator : Operator} {first second : Formula}
    (h : Reads .simple closer tokens (some (.binary operator first second)) rest) :
    ∃ formula final, Reads .expression closer tokens (some formula) final ∧
      formula.leading = .binary operator first second := by
  obtain ⟨lower, upper, middle, hscripted⟩ := exists_withScripts h fun later _ ↦
    exists_reads .simple closer later
  obtain ⟨item, more, final, hitem, hreads⟩ := exists_followedBy hscripted fun level later _ ↦
    exists_reads level closer later
  have hleading : item.items = [item] ∧ item.leading = .binary operator first second := by
    rcases hitem with rfl | ⟨line, below, rfl⟩
    · cases lower <;> cases upper <;> exact ⟨rfl, rfl⟩
    · refine ⟨rfl, ?_⟩
      cases lower <;> cases upper <;> rfl
  exact ⟨_, final, hreads, (leading_followedBy hleading.1 more).trans hleading.2⟩

end Reading

namespace Lexer

open Reading

/-- An operator that makes a color of its first operand reads the texts of inline tokens in brackets
back, whatever follows. They are the text of its color, which is the one that they denote. -/
theorem formula_leads_color {μ : Type} [Lexicon μ Entry] {lexer : Lexer μ}
    {operator left right : Token} {tokens later : List Token} (hkind : operator.kind = .binary)
    (hconverts : (operator.conversions.getD {}).first = some .toColor)
    (hleft : left.kind = .opening) (hright : right.kind = .closing)
    (hinline : ∀ token ∈ tokens, IsInline token)
    (hstream : lexer.stream = operator :: left :: tokens ++ right :: later) :
    ∃ formula rgb second, lexer.formula = .ok (some formula) ∧
      formula.leading = .binary operator.operator (.color ⟨textOf tokens, rgb⟩) second ∧
      Rgb.Denotes (textOf tokens) rgb := by
  obtain ⟨second, rest, hreads⟩ := reads_color hkind hconverts hleft hright hinline
  obtain ⟨formula, final, hexpression, hleading⟩ := hreads.exists_leading
  rw [← List.cons_append, ← List.cons_append, ← hstream] at hexpression
  exact ⟨formula, _, second, formula_of_reads hexpression, hleading, Rgb.denotes_ofText _⟩

/-- An operator that makes a color of its first operand, one that applies to what follows it, a bar
and brackets. -/
def crayons : Entries Entry :=
  [("color", ⟨some .color, .binary, some .firstToColor⟩), ("cc", ⟨some .script, .unary, none⟩),
   ("|", ⟨some .verticalBar, .bar, none⟩), ("(", ⟨some .leftParen, .opening, none⟩),
   (")", ⟨some .rightParen, .closing, none⟩)]

/-- The operand is a row of an identifier and an operator with a number. -/
theorem formula_leads_color_red :
    let operator := Token.ofEntry "color" ⟨some .color, .binary, some .firstToColor⟩
    let left := Token.ofEntry "(" ⟨some .leftParen, .opening, none⟩
    let right := Token.ofEntry ")" ⟨some .rightParen, .closing, none⟩
    let tokens := (ofString crayons "#cc0000").tokens
    (∀ token ∈ tokens, IsInline token) ∧ textOf tokens = "#cc0000" ∧
      (ofString crayons "color(#cc0000)x").stream =
        operator :: left :: tokens ++ right :: [.plain .identifier "x"] ∧
      ∃ formula second, (ofString crayons "color(#cc0000)x").formula = .ok (some formula) ∧
        formula.leading =
          .binary ⟨some .color, "color"⟩ (.color ⟨"#cc0000", ⟨204, 0, 0⟩⟩) second := by
  intro operator left right tokens
  have hends : Lexicon.NeverEnds crayons := Entries.gives (by decide)
  have hinline : ∀ token ∈ tokens, IsInline token := by decide +kernel
  have hstream : (ofString crayons "color(#cc0000)x").stream =
      operator :: left :: tokens ++ right :: [.plain .identifier "x"] := by
    rw [← tokens_eq_stream hends]
    rfl
  have htext : textOf tokens = "#cc0000" := by decide +kernel
  obtain ⟨formula, rgb, second, hformula, hleading, hrgb⟩ :=
    formula_leads_color rfl rfl rfl rfl hinline hstream
  have hred : Rgb.ofText "#cc0000" = ⟨204, 0, 0⟩ := by decide +kernel
  rw [htext] at hleading hrgb
  rw [Rgb.denotes_iff.mp hrgb, hred] at hleading
  exact ⟨hinline, htext, hstream, formula, second, hformula, hleading⟩

end Lexer

end FormulaMarkup
