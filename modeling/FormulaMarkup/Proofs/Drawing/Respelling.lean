import FormulaMarkup.Formula.Induction
import FormulaMarkup.Proofs.Drawing.Total
import FormulaMarkup.Proofs.Formula.Respelling
import FormulaMarkup.Proofs.Reading.Descent
import FormulaMarkup.Proofs.Token.Separation

/-!
# Spellings of one entry are drawn alike

A symbol is drawn by its glyph, and its text is seen only where it has none. A naming that renames
only symbols with glyphs and operators that are no accents changes no drawing
(`Formula.draw_respelled`). For two spellings of one entry there is such a naming, which gives both
the same text. It keeps what reading looks at, so a formula is drawn alike with either of them
(`convertIn_eq_of_lookupIn?_eq`).
-/

namespace FormulaMarkup

open Formula

/-- The mark is drawn as a symbol, which an operator before its operands is only if it is an
accent. -/
def Mark.IsDrawn (mark : Mark) : Prop :=
  mark.kind.precedes = true → ∀ symbol ∈ mark.symbol, (symbol.appearance true).isAccent = true

/-- No drawing shows that the naming was used. -/
def Naming.Unseen (name : Naming) (options : Options) : Prop :=
  ∀ mark : Mark, mark.IsDrawn →
    Drawing.ofSymbol options mark.symbol (name mark) =
      Drawing.ofSymbol options mark.symbol mark.text

namespace Formula

variable {options options' : Options} {name : Naming} {respell : Formula → Formula}

theorem drawItems_map {items : List Formula}
    (h : ∀ item ∈ items, draw options (respell item) = draw options' item) :
    drawItems options (items.map respell) = drawItems options' items := by
  induction items with
  | nil => rfl
  | cons item rest ih =>
    rw [List.forall_mem_cons] at h
    rw [List.map_cons, drawItems, drawItems, h.1, ih h.2]

theorem drawBody_map {body : Option Formula}
    (h : ∀ formula ∈ body, draw options (respell formula) = draw options' formula) :
    drawBody options (body.map respell) = drawBody options' body := by
  cases body with
  | none => rfl
  | some formula => rw [Option.map_some, drawBody, drawBody, h formula rfl]

theorem drawCells_map {cells : List Formula}
    (h : ∀ cell ∈ cells, draw options (respell cell) = draw options' cell) :
    drawCells options (cells.map respell) = drawCells options' cells := by
  induction cells with
  | nil => rfl
  | cons cell rest ih =>
    rw [List.forall_mem_cons] at h
    rw [List.map_cons, drawCells, drawCells, h.1, ih h.2]

theorem drawRows_map {rows : List (List Formula)}
    (h : ∀ cells ∈ rows, ∀ cell ∈ cells, draw options (respell cell) = draw options' cell) :
    drawRows options (rows.map (·.map respell)) = drawRows options' rows := by
  induction rows with
  | nil => rfl
  | cons cells rest ih =>
    rw [List.forall_mem_cons] at h
    rw [List.map_cons, drawRows, drawRows, drawCells_map h.1, ih h.2]

theorem delimiter_respelled (mark : Option Mark) :
    options.delimiter (mark.map (·.respelled name)) = options.delimiter mark := by
  cases mark <;> rfl

theorem color?_respelled (formula : Formula) :
    (formula.respelled name).color? = formula.color? := by
  cases formula <;> simp only [respelled] <;> rfl

theorem ofUnary_respelled (hname : name.Unseen options) (operator : Operator)
    (operand : Except Fault Drawing) :
    Drawing.ofUnary options (operator.respelled name .unary) operand =
      Drawing.ofUnary options operator operand := by
  simp only [Drawing.ofUnary, Operator.respelled]
  cases hsymbol : operator.symbol with
  | none => rfl
  | some symbol =>
    have haccent : ∀ side, symbol.role = .accent side →
        Drawing.ofSymbol options symbol (name (operator.mark .unary)) =
          Drawing.ofSymbol options symbol operator.text := by
      intro side hrole
      have hglyph := hname (operator.mark .unary) fun _ other hother ↦ by
        obtain rfl : symbol = other := Option.some.inj (hsymbol.symm.trans hother)
        rw [Appearance.isAccent, Symbol.role_appearance, hrole]
      have hsame : (operator.mark .unary).symbol = some symbol := hsymbol
      rw [hsame] at hglyph
      exact hglyph
    simp only [Symbol.role_appearance]
    cases hrole : symbol.role with
    | accent side => simp only [haccent side hrole]
    | _ => rfl

/-- Respelling a formula does not change its drawing. -/
theorem draw_respelled (hname : name.Unseen options) (formula : Formula) :
    draw options (formula.respelled name) = draw options formula := by
  induction formula with
  | empty | number | text | identifier | color => rw [respelled]
  | symbol mark =>
    rw [respelled]
    split
    · rfl
    · next hkind =>
      rw [draw, draw]
      exact congrArg _ (hname mark fun hprecedes ↦ absurd hprecedes hkind)
  | sequence items ih =>
    rw [respelled, respelledList_eq_map, draw, draw, drawItems_map ih, List.isEmpty_map]
  | bracketed left body right ih =>
    rw [respelled, respelledBody_eq_map, draw, draw, drawBody_map ih, delimiter_respelled,
      delimiter_respelled]
  | grouped left body right ih =>
    rw [respelled, respelledBody_eq_map, draw, draw, drawBody_map ih]
  | matrix left rows right ih =>
    rw [respelled, respelledRows_eq_map, draw, draw, drawRows_map ih]
    rfl
  | unary operator operand ih => rw [respelled, draw, draw, ih, ofUnary_respelled hname]
  | binary operator first second ihfirst ihsecond =>
    rw [respelled, draw, draw, ihfirst, ihsecond, color?_respelled]
    rfl
  | infixOp operator first second ihfirst ihsecond =>
    rw [respelled, draw, draw, ihfirst, ihsecond]
    rfl
  | sub base script ihbase ihscript | sup base script ihbase ihscript =>
    rw [respelled, draw, draw, ihbase, ihscript]
  | subSup base lower upper ihbase ihlower ihupper =>
    rw [respelled, draw, draw, ihbase, ihlower, ihupper]

theorem render_respelled (hname : name.Unseen options) (formula : Option Formula) :
    render options (formula.map (respelled name)) = render options formula := by
  cases formula with
  | none => rfl
  | some formula =>
    rw [Option.map_some, render_some, render_some, markup, markup, draw_respelled hname]

end Formula

/-! ## Two spellings of one entry -/

/-- The symbol is never drawn by its text. -/
def Symbol.hasGlyph (symbol : Symbol) : Bool :=
  (symbol.appearance true).glyph ≠ "" && (symbol.appearance false).glyph ≠ ""

/-- Neither reading nor drawing tells the spellings of the entry apart. -/
def Entry.Interchangeable (entry : Entry) : Prop :=
  match entry.symbol with
  | none => False
  | some symbol => entry.kind.isPlain = false ∧ symbol.isFence = false ∧
      entry.conversions = none ∧
      (symbol.hasGlyph = true ∨
        entry.kind.precedes = true ∧ (symbol.appearance true).isAccent = false)

instance (entry : Entry) : Decidable entry.Interchangeable := by
  unfold Entry.Interchangeable
  split <;> infer_instance

/-- The naming that takes away the text of each mark of the entry. -/
def Entry.unspelled (entry : Entry) : Naming := fun mark ↦
  if mark.symbol = entry.symbol ∧ mark.kind = entry.kind then "" else mark.text

theorem Drawing.ofSymbol_of_hasGlyph (options : Options) {symbol : Symbol}
    (h : symbol.hasGlyph = true) (written other : String) :
    ofSymbol options symbol written = ofSymbol options symbol other := by
  have hglyph : (symbol.appearance options.straightPhi).glyph.isEmpty = false := by
    simp only [Symbol.hasGlyph, Bool.and_eq_true, decide_eq_true_eq] at h
    cases options.straightPhi
    · simpa using h.2
    · simpa using h.1
  simp [ofSymbol, Options.appearance?, hglyph]

namespace Entry

variable {entry : Entry}

theorem Interchangeable.exists_symbol (h : entry.Interchangeable) : ∃ symbol,
    entry.symbol = some symbol ∧ entry.kind.isPlain = false ∧ symbol.isFence = false ∧
      entry.conversions = none ∧ (symbol.hasGlyph = true ∨
        entry.kind.precedes = true ∧ (symbol.appearance true).isAccent = false) := by
  unfold Interchangeable at h
  split at h
  · exact h.elim
  · next symbol hsymbol => exact ⟨symbol, hsymbol, h⟩

/-- Marks of another symbol or another kind keep their texts. -/
theorem unspelled_of_ne {mark : Mark}
    (h : mark.symbol = entry.symbol → mark.kind ≠ entry.kind) :
    entry.unspelled mark = mark.text :=
  if_neg fun hsame ↦ h hsame.1 hsame.2

theorem Interchangeable.discreet (h : entry.Interchangeable) : entry.unspelled.Discreet where
  plain mark hplain := by
    obtain ⟨symbol, -, hkept, -⟩ := h.exists_symbol
    apply unspelled_of_ne
    rintro - hkind
    rw [hkind, hkept] at hplain
    cases hplain
  fence mark hfence := by
    obtain ⟨symbol, hsymbol, -, hkept, -⟩ := h.exists_symbol
    apply unspelled_of_ne
    rintro hsame -
    rw [hsame, hsymbol, Option.any_some, hkept] at hfence
    cases hfence

theorem Interchangeable.unseen (h : entry.Interchangeable) (options : Options) :
    entry.unspelled.Unseen options := by
  intro mark hdrawn
  by_cases hsame : mark.symbol = entry.symbol ∧ mark.kind = entry.kind
  · obtain ⟨symbol, hsymbol, -, -, -, hglyph | ⟨hprecedes, haccent⟩⟩ := h.exists_symbol
    · rw [hsame.1, hsymbol]
      exact Drawing.ofSymbol_of_hasGlyph options hglyph _ _
    · rw [← hsame.2] at hprecedes
      have hother := hdrawn hprecedes symbol (hsame.1.trans hsymbol)
      rw [haccent] at hother
      cases hother
  · rw [unspelled_of_ne fun hsymbol hkind ↦ hsame ⟨hsymbol, hkind⟩]

end Entry

namespace Symbol

/-- The spellings of an entry are interchangeable, or there is only one. -/
theorem interchangeable_table : ∀ entry ∈ table, entry.2.symbol.any (·.isFence) = true ∨
    entry.2.Interchangeable ∨ ∀ other ∈ table, other.2 = entry.2 → other.1 = entry.1 := by
  decide +kernel

section

variable (τ : Type) [KeyTree τ Entry] [LawfulKeyTree τ]

/-- Only a color converts its operands. -/
theorem conversions_standardIn : Lexicon.Gives (standardIn τ) fun entry ↦
    entry.conversions = none ∨ entry.symbol = some .color :=
  (means_standardIn τ).gives (by decide +kernel)

theorem neverEnds_standardIn : Lexicon.NeverEnds (standardIn τ) :=
  (means_standardIn τ).gives (by decide +kernel)

end

theorem isLast_of_lookupIn? {τ : Type} [KeyTree τ Entry] [LawfulKeyTree τ] {key : String}
    {entry : Entry} (h : lookupIn? τ key = some entry) : IsLast table key entry :=
  ((means_standardIn τ).value?_eq_some key entry).mp h

end Symbol

section Conversion

variable {τ : Type} [KeyTree τ Entry] [LawfulKeyTree τ] {before key : String} {entry : Entry}

theorem Token.Origin.conversions_eq_none {token : Token}
    (h : Token.Origin (Symbol.standardIn τ) token) (hcolor : token.symbol ≠ some .color) :
    token.conversions = none := by
  cases h with
  | text | number | identifier => rfl
  | entry hne hhit => exact (Symbol.conversions_standardIn τ _ _ hhit).resolve_right hcolor

/-- The tokens of a text in which a spelling stands between two blanks. -/
theorem stream_spelling (hkey : Symbol.lookupIn? τ key = some entry)
    (hterminated : Lexer.Terminated (Symbol.standardIn τ) before.toList)
    (hlast : before.toList.getLast? ≠ some '\\') (after : String) :
    (Lexer.ofString (Symbol.standardIn τ) (before ++ " " ++ key ++ " " ++ after)).stream =
      (Lexer.ofString (Symbol.standardIn τ) before).stream ++
        .ofEntry key entry :: (Lexer.ofString (Symbol.standardIn τ) after).stream := by
  have hblank : Unicode.isBlank ' ' = true := by decide
  have htext : (before ++ " " ++ key ++ " " ++ after).toList =
      before.toList ++ ' ' :: (key.toList ++ ' ' :: after.toList) := by
    simp
  have hmeans := Symbol.means_standardIn τ
  have hbefore := Lexer.scanAll_append hterminated hlast hblank (key.toList ++ ' ' :: after.toList)
  have hbehind :=
    Symbol.scanAll_spelling hmeans (Symbol.isLast_of_lookupIn? hkey) hblank after.toList
  simp only [Lexer.stream, Lexer.ofString, Option.toList_none, List.nil_append]
  rw [htext, hbefore, hbehind]

/-- Two inputs whose tokens are the same in other spellings come to the same markup, if neither
reading nor drawing looks at what is respelled. -/
theorem convertIn_eq_of_respelled_eq {options : Options} {name : Naming}
    (hdiscreet : name.Discreet) (hunseen : name.Unseen options) {input other : String}
    (hplain : ∀ token ∈ (Lexer.ofString (Symbol.standardIn τ) input).stream,
      token.conversions = none)
    (hother : ∀ token ∈ (Lexer.ofString (Symbol.standardIn τ) other).stream,
      token.conversions = none)
    (hsame : (Lexer.ofString (Symbol.standardIn τ) input).stream.map (·.respelled name) =
      (Lexer.ofString (Symbol.standardIn τ) other).stream.map (·.respelled name)) :
    convertIn τ options input = convertIn τ options other := by
  obtain ⟨tree, _, htree, hreads⟩ := (Lexer.ofString (Symbol.standardIn τ) input).exists_read
  obtain ⟨tree', _, htree', hreads'⟩ := (Lexer.ofString (Symbol.standardIn τ) other).exists_read
  have hends := Lexer.kind_ne_endOfInput_of_mem_stream (Symbol.neverEnds_standardIn τ) other
  have hrespelled := hreads.respelled hdiscreet hplain
  rw [hsame] at hrespelled
  have htrees : tree.map (respelled name) = tree'.map (respelled name) :=
    (hrespelled.unique (hreads'.respelled hdiscreet hother) (List.forall_mem_map.mpr hends)).1
  calc convertIn τ options input
    _ = render options tree := convertIn_eq_render options htree
    _ = render options (tree.map (respelled name)) := (render_respelled hunseen tree).symm
    _ = render options (tree'.map (respelled name)) := by rw [htrees]
    _ = render options tree' := render_respelled hunseen tree'
    _ = convertIn τ options other := (convertIn_eq_render options htree').symm

end Conversion

/-- Between two blanks, all spellings of an entry come to the same markup. -/
theorem convertIn_eq_of_lookupIn?_eq (τ : Type) [KeyTree τ Entry] [LawfulKeyTree τ]
    (options : Options) {before after first second : String} {entry : Entry}
    (hfirst : Symbol.lookupIn? τ first = some entry)
    (hsecond : Symbol.lookupIn? τ second = some entry)
    (hfence : entry.symbol.any (·.isFence) = false)
    (hterminated : Lexer.Terminated (Symbol.standardIn τ) before.toList)
    (hlast : before.toList.getLast? ≠ some '\\')
    (hcolor : ∀ token ∈ (Lexer.ofString (Symbol.standardIn τ) before).tokens ++
      (Lexer.ofString (Symbol.standardIn τ) after).tokens, token.symbol ≠ some .color) :
    convertIn τ options (before ++ " " ++ first ++ " " ++ after) =
      convertIn τ options (before ++ " " ++ second ++ " " ++ after) := by
  rcases Symbol.interchangeable_table _ (Symbol.isLast_of_lookupIn? hfirst).mem with
    hbracket | hinterchangeable | hsole
  · rw [hfence] at hbracket
    cases hbracket
  · have hkey : entry.conversions = none := by
      obtain ⟨symbol, -, -, -, hnone, -⟩ := hinterchangeable.exists_symbol
      exact hnone
    rw [Lexer.tokens_eq_stream (Symbol.neverEnds_standardIn τ),
      Lexer.tokens_eq_stream (Symbol.neverEnds_standardIn τ), List.forall_mem_append] at hcolor
    have hplain : ∀ key, ∀ token ∈ (Lexer.ofString (Symbol.standardIn τ) before).stream ++
        .ofEntry key entry :: (Lexer.ofString (Symbol.standardIn τ) after).stream,
        token.conversions = none := by
      intro key
      rw [List.forall_mem_append, List.forall_mem_cons]
      exact ⟨fun token hmem ↦ (Lexer.origin_of_mem_stream hmem).conversions_eq_none
          (hcolor.1 token hmem), hkey,
        fun token hmem ↦ (Lexer.origin_of_mem_stream hmem).conversions_eq_none
          (hcolor.2 token hmem)⟩
    -- without its text the token is the entry alone
    have hmiddle : ∀ key, (Token.ofEntry key entry).respelled entry.unspelled = .ofEntry "" entry :=
      fun key ↦ congrArg (Token.ofEntry · entry) (if_pos ⟨rfl, rfl⟩)
    apply convertIn_eq_of_respelled_eq hinterchangeable.discreet (hinterchangeable.unseen options)
    · rw [stream_spelling hfirst hterminated hlast]
      exact hplain first
    · rw [stream_spelling hsecond hterminated hlast]
      exact hplain second
    · rw [stream_spelling hfirst hterminated hlast, stream_spelling hsecond hterminated hlast]
      simp only [List.map_append, List.map_cons, hmiddle]
  · have hsame : second = first := hsole _ (Symbol.isLast_of_lookupIn? hsecond).mem rfl
    rw [hsame]

/-- Behind a quotation and a number. -/
theorem convertIn_eq_of_lookupIn?_eq_lessEqual :
    let lessEqual : Entry := ⟨some .lessEqual, .symbol, none⟩
    (Symbol.lookup? "<=" = some lessEqual ∧ Symbol.lookup? "le" = some lessEqual) ∧
      Lexer.Terminated Symbol.standard "\"n\"12".toList ∧
      convert {} ("\"n\"12" ++ " " ++ "<=" ++ " " ++ "34") =
        convert {} ("\"n\"12" ++ " " ++ "le" ++ " " ++ "34") := by
  intro lessEqual
  have hlookup : Symbol.lookup? "<=" = some lessEqual ∧ Symbol.lookup? "le" = some lessEqual := by
    decide +kernel
  have hterminated : Lexer.Terminated Symbol.standard "\"n\"12".toList := by
    have hquotation : "\"n\"12".toList.dropWhile Unicode.isBlank = ['"', 'n', '"', '1', '2'] := by
      decide +kernel
    have hnumber : (Token.scan Symbol.standard ['"', 'n', '"', '1', '2']).2.dropWhile
        Unicode.isBlank = ['1', '2'] := by
      decide +kernel
    have hend : (Token.scan Symbol.standard ['1', '2']).2.dropWhile Unicode.isBlank = [] := by
      decide +kernel
    apply Lexer.Terminated.token
    all_goals rw [hquotation]
    · simp
    · simp [Scan.Unclosed]
    apply Lexer.Terminated.token
    all_goals rw [hnumber]
    · simp
    · simp [Scan.Unclosed]
    exact .blank hend
  exact ⟨hlookup, hterminated, convertIn_eq_of_lookupIn?_eq (ByteTree Entry) {} hlookup.1
    hlookup.2 (by decide) hterminated (by decide) (by decide +kernel)⟩

end FormulaMarkup
