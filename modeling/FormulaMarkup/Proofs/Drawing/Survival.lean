import FormulaMarkup.Proofs.Drawing.Children
import FormulaMarkup.Proofs.Drawing.Ink
import FormulaMarkup.Proofs.Drawing.Respelling
import FormulaMarkup.Proofs.Token.Leading

/-!
# Numbers and texts survive conversion

From the tokens of an input to the characters of its markup: what the tokens show is what the
formula shows (`Reads.shown_eq`), what the formula shows is in the leaves of its drawing
(`Formula.Everywhere.shows`), and these are read back from the written markup
(`Markup.contents_chars`). `exists_convertIn_contents` puts these together for the numbers, for the
texts and for the two symbols that are drawn as words.
-/

namespace FormulaMarkup

/-! ## Numbers are written as they are -/

theorem Symbol.kind_ne_number : ∀ entry ∈ Symbol.table, entry.2.kind ≠ .number := by
  decide +kernel

/-- If the token is a number, it is spelled as one. -/
def Token.IsNumeric (token : Token) : Prop :=
  token.kind = .number → Scan.IsNumber token.text.toList

theorem Token.First.isNumeric {cs rest : List Char} {token : Token}
    (h : Token.First cs token rest) : token.IsNumeric := by
  intro hkind
  cases h with
  | endOfInput | quoted | command | identifier => cases hkind
  | number hlongest => simpa [plain, ofEntry] using hlongest.isNumber
  | spelling _ hentry => exact absurd hkind (Symbol.kind_ne_number _ hentry.mem)

theorem Lexer.isNumeric_of_mem_stream {τ : Type} [KeyTree τ Entry] [LawfulKeyTree τ]
    {input : String} {token : Token}
    (h : token ∈ (Lexer.ofString (Symbol.standardIn τ) input).stream) : token.IsNumeric := by
  refine forall_mem_scanAll (fun c rest ↦ ?_) _ token h
  have hfirst : Token.First (c :: rest) _ _ :=
    (Token.scan_eq_iff (Symbol.means_standardIn τ)).mp rfl
  exact hfirst.isNumeric

namespace Markup

theorem escapeChar_of_isDigit (nonAscii quotes : Bool) {c : Char} (h : c.isDigit = true) :
    escapeChar nonAscii quotes c = [c] := by
  have hne : ∀ d, d.isDigit = false → c ≠ d := by
    rintro d hd rfl
    rw [h] at hd
    cases hd
  have hascii : ¬ 0x80 ≤ c.toNat := by
    simp only [Char.isDigit, Bool.and_eq_true, decide_eq_true_eq, UInt32.le_iff_toNat_le] at h
    have hupper : c.toNat ≤ 57 := h.2
    omega
  simp [escapeChar, hne '&' rfl, hne '<' rfl, hne '>' rfl, hne '"' rfl, hascii]

theorem escape_of_isNumber (nonAscii quotes : Bool) {number : List Char}
    (h : Scan.IsNumber number) : escape nonAscii quotes number = number := by
  have hdigits : ∀ {digits : List Char}, Scan.IsDigits digits →
      ∀ c ∈ digits, escapeChar nonAscii quotes c = [c] :=
    fun h c hmem ↦ escapeChar_of_isDigit nonAscii quotes (h.2 c hmem)
  apply escape_eq_self
  cases h with
  | whole hwhole => exact hdigits hwhole
  | fraction hwhole hdecimals =>
    rw [List.forall_mem_append, List.forall_mem_cons]
    refine ⟨hdigits hwhole, ?_, hdigits hdecimals⟩
    cases nonAscii <;> cases quotes <;> rfl

end Markup

/-! ## What the tokens show -/

/-- A symbol that is drawn as a word is read as a symbol. -/
def Entry.KeepsWord (entry : Entry) : Prop :=
  (entry.symbol.bind Symbol.word?).isSome = true → entry.kind = .symbol

instance (entry : Entry) : Decidable entry.KeepsWord := by
  unfold Entry.KeepsWord
  infer_instance

theorem Symbol.keepsWord_table : ∀ entry ∈ Symbol.table, entry.2.KeepsWord := by
  decide +kernel

theorem Token.Origin.keepsWord {τ : Type} [KeyTree τ Entry] [LawfulKeyTree τ] {token : Token}
    (h : Token.Origin (Symbol.standardIn τ) token) : token.toEntry.KeepsWord := by
  cases h with
  | text | number | identifier => rintro ⟨⟩
  | entry hne hhit => exact (Symbol.means_standardIn τ).gives Symbol.keepsWord_table _ _ hhit

namespace Reading

/-- The texts of the tokens of a kind, in order. -/
def textsOfKind (kind : TokenKind) (tokens : List Token) : List String :=
  (tokens.filter (·.kind = kind)).map (·.text)

/-- How often a symbol occurs among the tokens. -/
def occurrences (symbol : Symbol) (tokens : List Token) : Nat :=
  tokens.countP (·.symbol = some symbol)

theorem textsOfKind_cons (kind : TokenKind) (token : Token) (rest : List Token) :
    textsOfKind kind (token :: rest) =
      (if token.kind = kind then [token.text] else []) ++ textsOfKind kind rest := by
  unfold textsOfKind
  rw [List.filter_cons]
  split <;> simp_all

theorem replicate_occurrences_cons (symbol : Symbol) (token : Token) (rest : List Token)
    (word : String) : List.replicate (occurrences symbol (token :: rest)) word =
      (if token.symbol = some symbol then [word] else []) ++
        List.replicate (occurrences symbol rest) word := by
  unfold occurrences
  rw [List.countP_cons]
  split <;> simp_all [List.replicate_succ]

theorem ink_mn (token : Token) :
    token.mark.ink .mn = if token.kind = .number then [token.text] else [] := by
  unfold Mark.ink Token.mark words
  split <;> simp_all

theorem ink_mtext {token : Token} (h : token.toEntry.KeepsWord) :
    token.mark.ink .mtext = (if token.kind = .text then [token.text] else []) ++
      (if token.symbol = some .and then ["and"] else []) ++
      (if token.symbol = some .or then ["or"] else []) := by
  by_cases hand : token.symbol = some .and
  · have hkind : token.kind = .symbol := h (by rw [hand]; rfl)
    simp [Mark.ink, Token.mark, words, hkind, hand, Symbol.word?]
  · by_cases hor : token.symbol = some .or
    · have hkind : token.kind = .symbol := h (by rw [hor]; rfl)
      simp [Mark.ink, Token.mark, words, hkind, hor, Symbol.word?]
    · have hword : token.symbol.bind Symbol.word? = none := by
        cases hsymbol : token.symbol with
        | none => rfl
        | some symbol =>
          rw [hsymbol] at hand hor
          apply Symbol.word?_eq_none_of_ne
          · exact fun heq ↦ hand (congrArg some heq)
          · exact fun heq ↦ hor (congrArg some heq)
      simp only [Mark.ink, Token.mark, words, hword, hand, hor, if_false, List.append_nil]
      split <;> simp_all

/-- The numbers show their texts, in order. -/
theorem shown_ink_mn (tokens : List Token) :
    shown (Mark.ink .mn) tokens = textsOfKind .number tokens := by
  induction tokens with
  | nil => rfl
  | cons token rest ih => rw [shown_cons, ih, ink_mn, textsOfKind_cons]

/-- The quotations show their texts and the words show themselves. -/
theorem shown_ink_mtext {tokens : List Token}
    (h : ∀ token ∈ tokens, token.toEntry.KeepsWord) :
    (shown (Mark.ink .mtext) tokens).Perm (textsOfKind .text tokens ++
      List.replicate (occurrences .and tokens) "and" ++
      List.replicate (occurrences .or tokens) "or") := by
  induction tokens with
  | nil => exact List.Perm.refl []
  | cons token rest ih =>
    obtain ⟨htoken, hrest⟩ := List.forall_mem_cons.mp h
    have hperm := List.perm_iff_count.mp (ih hrest)
    rw [shown_cons, ink_mtext htoken, textsOfKind_cons, replicate_occurrences_cons,
      replicate_occurrences_cons, List.perm_iff_count]
    intro text
    have hcount := hperm text
    simp only [List.count_append] at hcount ⊢
    omega

end Reading

/-! ## What is read is legible -/

theorem Symbol.eq_color_of_role {symbol : Symbol} (h : symbol.role = .color) :
    symbol = .color := by
  cases symbol <;> cases h
  rfl

/-- The symbols of the operators that draw their second operand first. -/
def Symbol.turning : List Symbol := [.root, .stackrel, .overset, .underset]

theorem Symbol.mem_turning {symbol : Symbol} (htakes : symbol.role.takesTwo = true)
    (hrole : symbol.role ≠ .frac) : symbol ∈ turning := by
  have hall : ∀ symbol ∈ Symbol.all, symbol.role.takesTwo = true → symbol.role ≠ .frac →
      symbol ∈ turning := by
    decide +kernel
  exact hall symbol symbol.mem_all htakes hrole

/-- The token can be read into a legible formula. -/
structure Token.IsLegible (rel : List String → List String → Prop) (token : Token) : Prop where
  fits : token.toEntry.Fits
  isNamed : token.toEntry.IsNamed
  keepsWord : token.toEntry.KeepsWord
  symbol_ne_color : token.symbol ≠ some .color
  swaps : (∃ symbol ∈ Symbol.turning, token.symbol = some symbol) → Swaps rel

open Formula Reading

variable {rel : List String → List String → Prop}

theorem Token.IsLegible.isSymbolic {token : Token} (h : token.IsLegible rel)
    (hkind : token.kind = .symbol ∨ token.kind = .infixOp ∨ token.kind = .closing ∨
      token.kind = .bar) : token.mark.IsSymbolic := by
  have hne : token.kind ≠ .number ∧ token.kind ≠ .text := by
    rcases hkind with hkind | hkind | hkind | hkind <;> rw [hkind] <;> decide
  refine ⟨hne.1, hne.2, fun hsymbol ↦ ?_⟩
  by_contra hword
  exact hsymbol (h.keepsWord (Option.isSome_iff_ne_none.mpr hword))

theorem isDelimiter_of_opens {left : Token} (hopens : left.Opens) : left.mark.IsDelimiter :=
  hopens.imp_right .inr

theorem isDelimiter_of_closes {left right : Token} (hcloses : right.kind = Reader.closerOf left) :
    right.mark.IsDelimiter := by
  unfold Reader.closerOf at hcloses
  split at hcloses
  · exact .inr (.inl hcloses)
  · exact .inr (.inr hcloses)

/-- What is read from legible tokens is legible. -/
theorem spreads_legible (rel : List String → List String → Prop) :
    SpreadsMarked (Token.IsLegible rel) (Legible rel) where
  plain formula hleaf hplain := by
    cases formula with
    | unary | binary | infixOp => cases hleaf
    | symbol | bracketed | grouped | matrix => cases hplain
    | _ => trivial
  grouped h := h
  symbol _ hlegible := hlegible.isSymbolic
  bracketed left right body _ hopens hcloses :=
    ⟨forall_mem_some (isDelimiter_of_opens hopens), forall_mem_some (isDelimiter_of_closes hcloses)⟩
  unclosed left body _ hkind := ⟨forall_mem_some (.inl hkind), by simp⟩
  matrix left right rows _ hopens hcloses :=
    ⟨isDelimiter_of_opens hopens, isDelimiter_of_closes hcloses⟩
  unary operator only hlegible hkind := by
    obtain ⟨symbol, hsymbol⟩ := Option.isSome_iff_exists.mp (hlegible.isNamed (.inl hkind))
    have hfits := hlegible.fits
    simp only [Entry.Fits, hkind] at hfits
    exact ⟨symbol, hsymbol, hfits symbol hsymbol⟩
  binary operator first second hlegible hkind := by
    obtain ⟨symbol, hsymbol⟩ := Option.isSome_iff_exists.mp (hlegible.isNamed (.inr hkind))
    have hfits := hlegible.fits
    simp only [Entry.Fits, hkind] at hfits
    have hcolor : symbol.role ≠ .color := by
      intro hrole
      apply hlegible.symbol_ne_color
      rw [hsymbol, Symbol.eq_color_of_role hrole]
    have htakes := (hfits symbol hsymbol).resolve_right fun h ↦ hcolor h.1
    refine ⟨symbol, hsymbol, htakes, ?_⟩
    by_cases hrole : symbol.role = .frac
    · exact .inl hrole
    · exact .inr (hlegible.swaps ⟨symbol, Symbol.mem_turning htakes hrole, hsymbol⟩)
  fraction line above below _ hline :=
    ⟨.frac, (Token.isInfix_iff.mp hline).2, rfl⟩

/-! ## Inputs -/

section Input

variable {τ : Type} [KeyTree τ Entry] [LawfulKeyTree τ] {input : String}
  (hcolor : ∀ token ∈ (Lexer.ofString (Symbol.standardIn τ) input).stream,
    token.symbol ≠ some .color)
include hcolor

theorem ordinary_stream : Ordinary (Lexer.ofString (Symbol.standardIn τ) input).stream := by
  intro token hmem
  have hends :=
    Lexer.kind_ne_endOfInput_of_mem_stream (Symbol.neverEnds_standardIn τ) input token hmem
  exact ⟨hends, (Lexer.origin_of_mem_stream hmem).conversions_eq_none (hcolor token hmem)⟩

/-- The contents of the leaves of a tag are what the tokens show, in an order that the symbols of
the input allow. -/
theorem exists_contents_eq (hrel : Arranges rel)
    (hswaps : ∀ token ∈ (Lexer.ofString (Symbol.standardIn τ) input).stream,
      (∃ symbol ∈ Symbol.turning, token.symbol = some symbol) → Swaps rel)
    {tag : LeafTag} (htag : tag = .mn ∨ tag = .mtext) {options : Options} {output : String}
    (h : convertIn τ options input = .ok output) :
    ∃ texts : List String,
      Markup.contents tag.name output.toList =
        texts.map (fun text ↦ Markup.escape options.escapeNonAscii false text.toList) ∧
      rel texts (shown (Mark.ink tag) (Lexer.ofString (Symbol.standardIn τ) input).stream) := by
  obtain ⟨tree, rest, htree, hreads⟩ := (Lexer.ofString (Symbol.standardIn τ) input).exists_read
  have hordinary := ordinary_stream hcolor
  have hshown := hreads.shown_eq (Mark.conserved_ink tag) hordinary
  rw [hreads.rest_eq_nil hordinary.kind_ne (.inl rfl), shown_nil, List.append_nil] at hshown
  rw [convertIn_eq_render options htree] at h
  rw [hshown]
  cases tree with
  | none =>
    cases h
    exact ⟨[], rfl, hrel.refl []⟩
  | some formula =>
    have hlegible : ∀ token ∈ (Lexer.ofString (Symbol.standardIn τ) input).stream,
        token.IsLegible rel := by
      intro token hmem
      have horigin := Lexer.origin_of_mem_stream hmem
      exact ⟨horigin.fits, horigin.isNamed, horigin.keepsWord, hcolor token hmem,
        hswaps token hmem⟩
    have heverywhere := hreads.everywhere_marked (spreads_legible rel) hlegible formula rfl
    have hshows : formula.Shows options tag rel := heverywhere.shows hrel htag
    obtain ⟨drawing, hdrawing, htexts⟩ := hshows
    rw [render_some, markup, hdrawing] at h
    cases h
    refine ⟨drawing.texts tag, ?_, htexts⟩
    have hcontents := Markup.contents_chars options.escapeNonAscii tag
      (.element .math options.attributes (drawing.place .omit))
    rw [Markup.texts, Drawing.texts_place] at hcontents
    rw [Markup.write, String.toList_ofList]
    exact hcontents

end Input

theorem map_escape_numbers (nonAscii : Bool) {texts : List String}
    (h : ∀ text ∈ texts, Scan.IsNumber text.toList) :
    (texts.map fun text ↦ Markup.escape nonAscii false text.toList).map String.ofList = texts := by
  have hself : ∀ text ∈ texts, (String.ofList ∘ fun text ↦
      Markup.escape nonAscii false text.toList) text = id text := by
    intro text hmem
    simp [Markup.escape_of_isNumber nonAscii false (h text hmem)]
  rw [List.map_map, List.map_congr_left hself, List.map_id]

theorem map_unescape_escape (nonAscii : Bool) (texts : List String) :
    ((texts.map fun text ↦ Markup.escape nonAscii false text.toList).map fun content ↦
      String.ofList (Markup.unescape content)) = texts := by
  rw [List.map_map]
  exact List.map_id'' (fun text ↦ by simp [Markup.unescape_escape]) texts

theorem Reading.isNumber_of_mem_textsOfKind {τ : Type} [KeyTree τ Entry] [LawfulKeyTree τ]
    {input text : String}
    (h : text ∈ textsOfKind .number (Lexer.ofString (Symbol.standardIn τ) input).stream) :
    Scan.IsNumber text.toList := by
  obtain ⟨token, htoken, rfl⟩ := List.mem_map.mp h
  obtain ⟨hmem, hkind⟩ := List.mem_filter.mp htoken
  exact Lexer.isNumeric_of_mem_stream hmem (of_decide_eq_true hkind)

/-- In the markup of an input without colors each number of the input stands once, and each text,
and a word for each symbol that is one. Without a root and marks over or under a base, the numbers
stand in their order. -/
theorem exists_convertIn_contents (τ : Type) [KeyTree τ Entry] [LawfulKeyTree τ]
    (options : Options) {input : String}
    (hcolor : ∀ token ∈ (Lexer.ofString (Symbol.standardIn τ) input).tokens,
      token.symbol ≠ some .color) :
    let tokens := (Lexer.ofString (Symbol.standardIn τ) input).tokens
    ∃ output, convertIn τ options input = .ok output ∧
      ((Markup.contents "mn" output.toList).map String.ofList).Perm
        (textsOfKind .number tokens) ∧
      ((Markup.contents "mtext" output.toList).map fun content ↦
          String.ofList (Markup.unescape content)).Perm
        (textsOfKind .text tokens ++ List.replicate (occurrences .and tokens) "and" ++
          List.replicate (occurrences .or tokens) "or") ∧
      ((∀ token ∈ tokens, ∀ symbol ∈ [.root, .stackrel, .overset, .underset],
          token.symbol ≠ some symbol) →
        (Markup.contents "mn" output.toList).map String.ofList = textsOfKind .number tokens) := by
  rw [Lexer.tokens_eq_stream (Symbol.neverEnds_standardIn τ)] at hcolor ⊢
  intro tokens
  obtain ⟨tree, htree, hdrawable⟩ := exists_drawable τ input
  obtain ⟨output, houtput⟩ := exists_render options hdrawable
  have hconvert : convertIn τ options input = .ok output :=
    (convertIn_eq_render options htree).trans houtput
  have hnumbers : ∀ rel : List String → List String → Prop, Arranges rel →
      (∀ token ∈ (Lexer.ofString (Symbol.standardIn τ) input).stream,
        (∃ symbol ∈ Symbol.turning, token.symbol = some symbol) → Swaps rel) →
      (∀ texts more, rel texts more → texts.Perm more) →
      rel ((Markup.contents "mn" output.toList).map String.ofList)
        (textsOfKind .number (Lexer.ofString (Symbol.standardIn τ) input).stream) := by
    intro rel hrel hswaps hperm
    obtain ⟨texts, hcontents, htexts⟩ :=
      exists_contents_eq hcolor hrel hswaps (.inl rfl) hconvert
    rw [shown_ink_mn] at htexts
    have hnumeric : ∀ text ∈ texts, Scan.IsNumber text.toList := fun text hmem ↦
      isNumber_of_mem_textsOfKind ((hperm _ _ htexts).subset hmem)
    have hcontents' : Markup.contents "mn" output.toList = _ := hcontents
    rwa [hcontents', map_escape_numbers options.escapeNonAscii hnumeric]
  refine ⟨output, hconvert, ?_, ?_, ?_⟩
  · exact hnumbers List.Perm arranges_perm
      (fun _ _ _ _ _ ↦ List.perm_append_comm) fun _ _ h ↦ h
  · obtain ⟨texts, hcontents, htexts⟩ := exists_contents_eq hcolor arranges_perm
      (fun _ _ _ _ _ ↦ List.perm_append_comm) (.inr rfl) hconvert
    have hcontents' : Markup.contents "mtext" output.toList = _ := hcontents
    rw [hcontents', map_unescape_escape]
    exact htexts.trans (shown_ink_mtext fun token hmem ↦
      (Lexer.origin_of_mem_stream hmem).keepsWord)
  · intro hplain
    refine hnumbers Eq arranges_eq (fun token hmem hturning ↦ ?_) fun _ _ h ↦ h ▸ List.Perm.refl _
    obtain ⟨symbol, hsymbol, heq⟩ := hturning
    exact absurd heq (hplain token hmem symbol hsymbol)

/-- The index of a root is drawn behind what it stands before. -/
theorem exists_convertIn_contents_root :
    (∀ token ∈ (Lexer.ofString Symbol.standard "root3 4\"a<b\"and").tokens,
      token.symbol ≠ some .color) ∧
    ∃ output, convert {} "root3 4\"a<b\"and" = .ok output ∧
      ((Markup.contents "mn" output.toList).map String.ofList).Perm ["3", "4"] ∧
      ((Markup.contents "mtext" output.toList).map fun content ↦
        String.ofList (Markup.unescape content)).Perm ["a<b", "and"] := by
  have htokens : (Lexer.ofString Symbol.standard "root3 4\"a<b\"and").tokens =
      [.ofEntry "root" ⟨some .root, .binary, none⟩, .plain .number "3", .plain .number "4",
       .plain .text "a<b", .ofEntry "and" ⟨some .and, .symbol, none⟩] := by
    decide +kernel
  have hcolor : ∀ token ∈ (Lexer.ofString Symbol.standard "root3 4\"a<b\"and").tokens,
      token.symbol ≠ some .color := by
    rw [htokens]
    decide
  obtain ⟨output, hconvert, hmn, hmtext, -⟩ :=
    exists_convertIn_contents (ByteTree Entry) {} hcolor
  rw [← Symbol.standard, htokens] at hmn hmtext
  exact ⟨hcolor, output, hconvert, hmn, hmtext⟩

end FormulaMarkup
