import FormulaMarkup.Formula.Equality
import FormulaMarkup.Proofs.Formula.Everywhere
import FormulaMarkup.Proofs.Reading.Ending
import FormulaMarkup.Proofs.Reading.Grid

/-!
# The cells of a row

`Matrix.Separates items cells` says that the cells are what the commas among the items separate:
there is one cell more than there are commas, no comma is left in a cell, and the cells with commas
between them are the items again. This holds of any items that are single formulas
(`Matrix.separates_splitAtSeparators`), and the items of each row that is read are
(`Reading.Reads.isItemized`).

A row is split only if its body is a sequence, though. A comma that is alone in its brackets is none
and stays as the only cell, where the rule asks for two empty ones. This is the one exception among
all rows that can be read (`Reader.separates_cellsOf_iff`).
-/

namespace FormulaMarkup

open Formula Reading

namespace Matrix

/-- The formulas that a cell stands for. -/
def inCell : Formula → List Formula
  | .empty => []
  | formula => formula.items

/-- The cells are what the commas among the items of a row separate. -/
structure Separates (items cells : List Formula) : Prop where
  length_eq : cells.length = items.countP isSeparator + 1
  isSeparator_eq : ∀ cell ∈ cells, ∀ formula ∈ cell :: cell.items, isSeparator formula = false
  joined_eq : [.identifier ","].intercalate (cells.map inCell) = items

/-- The formula is neither nothing nor several formulas. -/
def IsSingle (formula : Formula) : Prop := inCell formula = [formula]

/-! ## Splitting at commas -/

variable {items run : List Formula} {formula : Formula}

theorem isSeparator_iff : isSeparator formula = true ↔ formula = .identifier "," := by
  cases formula <;> simp [isSeparator]

theorem splitAtSeparators_eq_splitOn (items : List Formula) :
    splitAtSeparators items = items.splitOn (.identifier ",") := by
  induction items with
  | nil => rfl
  | cons formula rest ih =>
    rw [splitAtSeparators, ih, List.splitOn_cons_eq_if_modifyHead]
    by_cases h : formula = .identifier ","
    · rw [if_pos (isSeparator_iff.mpr h), if_pos (beq_iff_eq.mpr h)]
    · rw [if_neg (isSeparator_iff.not.mpr h), if_neg (beq_iff_eq.not.mpr h)]
      split
      · next hnil => exact absurd hnil (List.splitOn_ne_nil _ rest)
      · next hruns =>
        rw [hruns]
        rfl

theorem length_splitAtSeparators (items : List Formula) :
    (splitAtSeparators items).length = items.countP isSeparator + 1 := by
  induction items with
  | nil => rfl
  | cons formula rest ih =>
    rw [splitAtSeparators, List.countP_cons]
    split
    · rw [List.length_cons, ih]
    · split
      · next hnil => exact absurd hnil (splitAtSeparators_ne_nil rest)
      · next hcons =>
        rw [← ih, hcons]
        rfl

theorem isSeparator_eq_of_mem_run (hrun : run ∈ splitAtSeparators items) (hmem : formula ∈ run) :
    isSeparator formula = false := by
  induction items generalizing run with
  | nil =>
    rw [List.mem_singleton.mp hrun] at hmem
    cases hmem
  | cons first rest ih =>
    unfold splitAtSeparators at hrun
    split at hrun
    · rcases List.mem_cons.mp hrun with rfl | hrun
      · cases hmem
      · exact ih hrun hmem
    · next hfirst =>
      split at hrun
      · next hnil => exact absurd hnil (splitAtSeparators_ne_nil rest)
      · next front runs hsplit =>
        rw [hsplit] at ih
        rcases List.mem_cons.mp hrun with rfl | hrun
        · rcases List.mem_cons.mp hmem with rfl | hmem
          · exact Bool.eq_false_iff.mpr hfirst
          · exact ih List.mem_cons_self hmem
        · exact ih (List.mem_cons_of_mem front hrun) hmem

/-! ## Runs and their cells -/

theorem IsSingle.items_eq (h : IsSingle formula) : formula.items = [formula] := by
  cases formula with
  | empty => rfl
  | _ => exact h

theorem inCell_cellOf (h : ∀ formula ∈ run, IsSingle formula) : inCell (cellOf run) = run := by
  match run with
  | [] => rfl
  | [formula] => exact h formula List.mem_cons_self
  | _ :: _ :: _ => rfl

theorem isSeparator_eq_of_mem_cellOf (h : ∀ formula ∈ run, IsSingle formula)
    (hrun : ∀ formula ∈ run, isSeparator formula = false) :
    ∀ formula ∈ cellOf run :: (cellOf run).items, isSeparator formula = false := by
  match run with
  | [] => simp [cellOf, Formula.items, isSeparator]
  | [formula] =>
    have hcell : cellOf [formula] = formula := rfl
    rw [hcell, (h formula List.mem_cons_self).items_eq]
    exact List.forall_mem_cons.mpr ⟨hrun formula List.mem_cons_self, hrun⟩
  | _ :: _ :: _ => exact List.forall_mem_cons.mpr ⟨rfl, hrun⟩

/-- Single items are separated by the commas among them. -/
theorem separates_splitAtSeparators (h : ∀ formula ∈ items, IsSingle formula) :
    Separates items ((splitAtSeparators items).map cellOf) := by
  have hsingle : ∀ run ∈ splitAtSeparators items, ∀ formula ∈ run, IsSingle formula :=
    fun run hrun formula hmem ↦ h formula (mem_of_mem_splitAtSeparators hrun hmem)
  constructor
  · rw [List.length_map, length_splitAtSeparators]
  · rw [List.forall_mem_map]
    exact fun run hrun ↦ isSeparator_eq_of_mem_cellOf (hsingle run hrun)
      fun formula ↦ isSeparator_eq_of_mem_run hrun
  · have hruns : ((splitAtSeparators items).map cellOf).map inCell = splitAtSeparators items := by
      rw [List.map_map]
      exact (List.map_congr_left fun run hrun ↦ inCell_cellOf (hsingle run hrun)).trans
        (List.map_id _)
    rw [hruns, splitAtSeparators_eq_splitOn]
    exact List.intercalate_splitOn _

/-! ## The bodies of rows -/

/-- A body that is a single formula is one cell, as if it had been split, unless it is a comma. -/
theorem cellsOf_eq_map {body : Option Formula}
    (hcomma : body ≠ some (.identifier ",")) :
    cellsOf body = (splitAtSeparators (itemsOf body)).map cellOf := by
  cases body with
  | none => rfl
  | some formula =>
    cases formula with
    | identifier text =>
      have hother : ¬ isSeparator (.identifier text) = true :=
        fun hseparator ↦ hcomma (congrArg some (isSeparator_iff.mp hseparator))
      have hsplit : splitAtSeparators (itemsOf (some (.identifier text))) = [[.identifier text]] :=
        if_neg hother
      rw [hsplit]
      rfl
    | _ => rfl

theorem separates_cellsOf_iff_ne {body : Option Formula}
    (h : ∀ formula ∈ itemsOf body, IsSingle formula) :
    Separates (itemsOf body) (cellsOf body) ↔ body ≠ some (.identifier ",") := by
  constructor
  · rintro hseparates rfl
    exact absurd hseparates.length_eq (by decide)
  · intro hcomma
    rw [cellsOf_eq_map hcomma]
    exact separates_splitAtSeparators h

end Matrix

/-! ## What is read -/

namespace Reading

open FormulaMarkup.Matrix

/-- What stands between the brackets of a formula. -/
def bodyOf : Formula → Option Formula
  | .bracketed _ body _ => body
  | _ => none

/-- Each item is a single formula, and so is each item between the brackets of one. -/
def IsItemized (formula : Formula) : Prop :=
  ∀ item ∈ formula.items, IsSingle item ∧ ∀ inner ∈ itemsOf (bodyOf item), IsSingle inner

variable {formula : Formula}

/-- A single formula that has no body. -/
theorem isItemized_of_single (hsingle : IsSingle formula) (hbody : bodyOf formula = none) :
    IsItemized formula := by
  rw [IsItemized, hsingle.items_eq, List.forall_mem_singleton, hbody]
  exact ⟨hsingle, by simp⟩

theorem isItemized_bracketed {left right : Option Mark} {body : Option Formula}
    (h : ∀ formula ∈ body, IsItemized formula) : IsItemized (.bracketed left body right) := by
  refine List.forall_mem_singleton.mpr ⟨rfl, fun inner hinner ↦ ?_⟩
  cases body with
  | none => cases hinner
  | some formula => exact (h formula rfl inner hinner).1

theorem isItemized_concat {left right : Formula} (hleft : IsItemized left)
    (hright : IsItemized right) : IsItemized (left.concat right) := by
  rw [IsItemized, items_concat]
  exact List.forall_mem_append.mpr ⟨hleft, hright⟩

theorem isItemized_leaf {token : Token} (h : token.leaf? = some formula) : IsItemized formula := by
  unfold Token.leaf? at h
  split at h <;> cases h <;> exact isItemized_of_single rfl rfl

theorem isItemized_enclose {left right : Mark} {body : Option Formula}
    (h : ∀ formula ∈ body, IsItemized formula) : IsItemized (enclose left body right) := by
  unfold enclose
  split
  · exact isItemized_of_single rfl rfl
  · exact isItemized_bracketed h

theorem isItemized_withScripts (h : IsItemized formula) (lower upper : Option Formula) :
    IsItemized (formula.withScripts lower upper) := by
  cases lower <;> cases upper
  · exact h
  · exact isItemized_of_single rfl rfl
  · exact isItemized_of_single rfl rfl
  · exact isItemized_of_single rfl rfl

theorem isItemized_followedBy {more : Option Formula} (h : IsItemized formula)
    (hmore : ∀ formula ∈ more, IsItemized formula) : IsItemized (formula.followedBy more) := by
  cases more with
  | none => exact h
  | some more => exact isItemized_concat h (hmore more rfl)

theorem isItemized_unclosed {left : Token} {body : Option Formula}
    (h : ∀ formula ∈ body, IsItemized formula) : IsItemized (Reader.unclosed left body) := by
  rw [unclosed_eq]
  split
  · exact isItemized_followedBy (isItemized_of_single rfl rfl) h
  · exact isItemized_bracketed h

theorem closed_isItemized : Closed (fun _ ↦ True) IsItemized IsItemized where
  leaf _ := isItemized_leaf
  stray _ _ := isItemized_of_single rfl rfl
  unary _ _ _ := isItemized_of_single rfl rfl
  binary _ _ _ _ := isItemized_of_single rfl rfl
  enclose _ _ _ := isItemized_enclose
  unclosed _ _ := isItemized_unclosed
  withScripts hbase _ _ := isItemized_withScripts hbase _ _
  fraction _ _ _ _ := isItemized_of_single rfl rfl
  followedBy := isItemized_followedBy
  run_of_single := id

theorem Reads.isItemized {level closer tokens result rest}
    (h : Reads level closer tokens result rest) : ∀ formula ∈ result, IsItemized formula :=
  h.forall_of_closed closed_isItemized fun _ _ ↦ trivial

/-- The items of each row among what is read are single formulas. -/
theorem Reads.single_of_mem_rows {level closer tokens result rest}
    (h : Reads level closer tokens result rest) {rows : List (Option Formula)}
    (hrows : rowBodies? (itemsOf result) = some rows) :
    ∀ row ∈ rows, ∀ inner ∈ itemsOf row, IsSingle inner := by
  intro row hmem
  obtain ⟨left, right, hitem⟩ := exists_bracketed_mem_of_rowBodies? hrows row hmem
  cases result with
  | none => cases hitem
  | some formula => exact (h.isItemized formula rfl _ hitem).2

end Reading

namespace Reader

open FormulaMarkup.Matrix

variable {μ : Type} [Lexicon μ Entry] {lexer final : Lexer μ} {closer : Option TokenKind}
  {steps : Nat} {result : Option Formula}

/-- A run that ends well goes by the rules. -/
theorem reads_of_expression (h : expression closer [] steps lexer = .ok (result, final)) :
    Reads .expression closer lexer.stream result final.stream := by
  obtain ⟨read, rest, hreads⟩ := exists_reads .expression closer lexer.stream
  obtain ⟨later, hlater, hrest⟩ := run (μ := μ) hreads lexer
    (max steps (2 * lexer.stream.length + 2)) rfl (Nat.le_max_right _ _) []
  rw [expression_mono (Nat.le_max_left _ _) h, List.reverse_nil, List.nil_append,
    hreads.ofItems?_itemsOf] at hlater
  cases hlater
  exact hrest ▸ hreads

/-- Brackets around rows are the matrix of these rows, and each row that was read is separated into
its cells by its commas, unless it is nothing but a comma. -/
theorem separates_cellsOf_iff (hread : expression closer [] steps lexer = .ok (result, final))
    {rows : List (Option Formula)} (hrows : rowBodies? (itemsOf result) = some rows) :
    (∀ left right, enclose left result right = .matrix left (rows.map cellsOf) right) ∧
      ∀ row ∈ rows, Separates (itemsOf row) (cellsOf row) ↔ row ≠ some (.identifier ",") := by
  constructor
  · intro left right
    rw [enclose, Grid.bind_rowBodies?, hrows]
  · intro row hmem
    exact separates_cellsOf_iff_ne ((reads_of_expression hread).single_of_mem_rows hrows row hmem)

/-- Of two rows that are read the first, a lone comma, is not separated, and the second is. -/
theorem separates_cellsOf_iff_loneComma :
    let items : List Formula := [.identifier ",", .identifier "b", .identifier "c"]
    ∃ result final, expression (some .closing) [] 12
        (Lexer.ofString Lexer.rowFences "(,),[,b c]]") = .ok (result, final) ∧
      rowBodies? (itemsOf result) = some [some (.identifier ","), some (.sequence items)] ∧
      ¬ Separates [.identifier ","] [.identifier ","] ∧
      Separates items [.empty, .sequence [.identifier "b", .identifier "c"]] := by
  intro items
  let first : Formula := .bracketed (some ⟨some .leftParen, "(", .opening⟩)
    (some (.identifier ",")) (some ⟨some .rightParen, ")", .closing⟩)
  let second : Formula := .bracketed (some ⟨some .leftBracket, "[", .opening⟩)
    (some (.sequence items)) (some ⟨some .rightBracket, "]", .closing⟩)
  have hresult : (expression (some .closing) [] 12
      (Lexer.ofString Lexer.rowFences "(,),[,b c]]")).toOption.map Prod.fst =
        some (some (.sequence [first, .identifier ",", second])) := by
    decide +kernel
  have hrows : rowBodies? [first, .identifier ",", second] =
      some [some (.identifier ","), some (.sequence items)] := rfl
  cases hread : expression (some .closing) [] 12
      (Lexer.ofString Lexer.rowFences "(,),[,b c]]") with
  | error fault =>
    rw [hread] at hresult
    cases hresult
  | ok read =>
    obtain ⟨result, final⟩ := read
    rw [hread] at hresult
    cases hresult
    have hiff := (separates_cellsOf_iff hread hrows).2
    simp only [List.forall_mem_cons] at hiff
    exact ⟨_, _, rfl, hrows, fun hlone ↦ hiff.1.mp hlone rfl, hiff.2.1.mpr (by simp)⟩

end Reader

end FormulaMarkup
