import FormulaMarkup.Proofs.Reading.Run

/-!
# Where reading ends

Readers are made from `next`, `pushBack` and checked constructions, one after the other. So what
holds of these and is kept by sequencing holds of all readers (`Congruent.steps`). This is said of
two runs of a reader, of which the first may have fewer steps, and serves twice: more steps never
change a result (`expression_mono`), and what a token taken or given back keeps of the lexer is
kept by reading (`congruent_keeps`).

Together with the rules this tells how reading ends. It ends without a fault for each input, and
where no spelling ends the input it ends behind the last token and nowhere else
(`Lexer.exists_read_atEnd`).
-/

namespace FormulaMarkup

namespace Reader

variable {μ : Type}

theorem bind_apply {α β : Type} (reader : Reader μ α) (f : α → Reader μ β) (lexer : Lexer μ) :
    (reader >>= f) lexer = Except.bind (reader lexer) fun read ↦ f read.1 read.2 := rfl

theorem bind_eq_ok {α β : Type} {reader : Reader μ α} {f : α → Reader μ β} {lexer : Lexer μ}
    {out : β × Lexer μ} (h : (reader >>= f) lexer = .ok out) :
    ∃ value later, reader lexer = .ok (value, later) ∧ f value later = .ok out := by
  rw [bind_apply] at h
  cases hreader : reader lexer with
  | error fault =>
    rw [hreader] at h
    cases h
  | ok read =>
    rw [hreader] at h
    exact ⟨read.1, read.2, rfl, h⟩

theorem ne_none_of_bind_some {α : Type} {reader : Reader μ α} {lexer final : Lexer μ} :
    (reader >>= fun value ↦ pure (some value)) lexer ≠ .ok (none, final) := by
  intro h
  obtain ⟨value, later, -, hpure⟩ := bind_eq_ok h
  cases hpure

variable [Lexicon μ Entry]

theorem next_bind_eq_ok {β : Type} {f : Token → Reader μ β} {lexer : Lexer μ} {out : β × Lexer μ}
    (h : (next >>= f) lexer = .ok out) : f lexer.next.1 lexer.next.2 = .ok out := by
  obtain ⟨token, later, hnext, hout⟩ := bind_eq_ok h
  have heq : lexer.next = (token, later) := Except.ok.inj hnext
  rw [heq]
  exact hout

/-! ## Relations between readers -/

/-- The relation holds of readers that are put together from related ones. A reader that is out of
steps is related to all. -/
structure Congruent (rel : (α : Type) → Reader μ α → Reader μ α → Prop) : Prop where
  pure {α : Type} (value : α) : rel α (Pure.pure value) (Pure.pure value)
  bind {α β : Type} {first first' : Reader μ α} {f f' : α → Reader μ β}
    (hfirst : rel α first first') (hf : ∀ value, rel β (f value) (f' value)) :
    rel β (first >>= f) (first' >>= f')
  next : rel Token next next
  pushBack (token : Token) : rel Unit (pushBack token) (pushBack token)
  lift {α : Type} (checked : Except Fault α) : rel α (liftM checked) (liftM checked)
  outOfFuel {α : Type} (reader : Reader μ α) : rel α (throw .outOfFuel) reader

variable {rel : (α : Type) → Reader μ α → Reader μ α → Prop}

theorem Congruent.scripts (h : Congruent rel) {simple simple' : Reader μ (Option Formula)}
    (hsimple : rel _ simple simple') : rel _ (scripts simple) (scripts simple') := by
  apply h.bind h.next
  intro token
  split
  · apply h.bind hsimple
    intro lower
    split
    · apply h.bind h.next
      intro token
      split
      · exact h.bind hsimple fun upper ↦ h.pure _
      · exact h.bind (h.pushBack _) fun _ ↦ h.pure _
    · exact h.pure _
  · split
    · exact h.bind hsimple fun upper ↦ h.pure _
    · exact h.bind (h.pushBack _) fun _ ↦ h.pure _

theorem Congruent.scripted (h : Congruent rel) {simple simple' : Reader μ (Option Formula)}
    (hsimple : rel _ simple simple') : rel _ (scripted simple) (scripted simple') := by
  apply h.bind hsimple
  intro base
  split
  · apply h.bind (h.scripts hsimple)
    intro found
    split
    · exact h.pure _
    · exact h.bind (h.lift _) fun _ ↦ h.pure _
  · exact h.pure _

theorem Congruent.operand (h : Congruent rel) {simple simple' : Reader μ (Option Formula)}
    (hsimple : rel _ simple simple') : rel _ (operand simple) (operand simple') := by
  apply h.bind hsimple
  intro only
  split <;> exact h.pure _

theorem Congruent.unary (h : Congruent rel) {simple simple' : Reader μ (Option Formula)}
    (operator : Token) (hsimple : rel _ simple simple') :
    rel _ (unary operator simple) (unary operator simple') :=
  h.bind (h.operand hsimple) fun _ ↦ h.lift _

theorem Congruent.binary (h : Congruent rel) {simple simple' : Reader μ (Option Formula)}
    (operator : Token) (hsimple : rel _ simple simple') :
    rel _ (binary operator simple) (binary operator simple') :=
  h.bind (h.operand hsimple) fun _ ↦ h.bind (h.operand hsimple) fun _ ↦ h.lift _

theorem Congruent.bracket (h : Congruent rel) {expression expression' : Reader μ (Option Formula)}
    (opener : Token) (hexpression : rel _ expression expression') :
    rel _ (bracket opener expression) (bracket opener expression') := by
  apply h.bind h.next
  intro token
  split
  · exact h.pure _
  · apply h.bind (h.pushBack _)
    intro _
    apply h.bind hexpression
    intro body
    apply h.bind h.next
    intro token
    split
    · exact h.pure _
    · exact h.bind (h.pushBack _) fun _ ↦ h.pure _

theorem Congruent.simple (h : Congruent rel) {steps steps' : Nat}
    (hexpression : ∀ closer, rel _ (expression closer [] steps) (expression closer [] steps'))
    (hsimple : ∀ closer, rel _ (simple closer steps) (simple closer steps'))
    (closer : Option TokenKind) :
    rel _ (Reader.simple closer (steps + 1)) (Reader.simple closer (steps' + 1)) := by
  apply h.bind h.next
  intro token
  split
  · exact h.pure _
  · exact h.pure _
  · exact h.pure _
  · exact h.pure _
  · exact h.pure _
  · exact h.pure _
  · exact h.bind (h.unary token (hsimple closer)) fun _ ↦ h.pure _
  · exact h.bind (h.binary token (hsimple closer)) fun _ ↦ h.pure _
  · exact h.bind (h.bracket token (hexpression _)) fun _ ↦ h.pure _
  · exact h.bind (h.bracket token (hexpression _)) fun _ ↦ h.pure _
  · split
    · exact h.pure _
    · exact h.bind (h.pushBack _) fun _ ↦ h.pure _

theorem Congruent.expression (h : Congruent rel) {steps steps' : Nat}
    (hexpression : ∀ closer before,
      rel _ (expression closer before steps) (expression closer before steps'))
    (hsimple : ∀ closer, rel _ (Reader.simple closer steps) (Reader.simple closer steps'))
    (closer : Option TokenKind) (before : List Formula) :
    rel _ (Reader.expression closer before (steps + 1))
      (Reader.expression closer before (steps' + 1)) := by
  have hscripted := h.scripted (hsimple closer)
  apply h.bind hscripted
  intro first
  split
  · apply h.bind h.next
    intro token
    split
    · apply h.bind hscripted
      intro second
      split
      · exact h.bind (h.lift _) fun _ ↦ hexpression closer _
      · exact hexpression closer _
    · dsimp only
      split
      · exact h.pure _
      · apply h.bind (h.pushBack _)
        intro _
        split
        · exact h.pure _
        · exact hexpression closer _
  · exact h.pure _

/-- Readers are related at numbers of steps of which the first is not larger. -/
theorem Congruent.steps (h : Congruent rel) {steps steps' : Nat} (hle : steps ≤ steps') :
    (∀ closer before, rel _ (Reader.expression closer before steps)
      (Reader.expression closer before steps')) ∧
    ∀ closer, rel _ (Reader.simple closer steps) (Reader.simple closer steps') := by
  induction steps generalizing steps' with
  | zero => exact ⟨fun _ _ ↦ h.outOfFuel _, fun _ ↦ h.outOfFuel _⟩
  | succ steps ih =>
    obtain ⟨steps', rfl⟩ := Nat.exists_eq_succ_of_ne_zero (Nat.ne_zero_of_lt hle)
    obtain ⟨hexpression, hsimple⟩ := ih (Nat.le_of_succ_le_succ hle)
    exact ⟨h.expression hexpression hsimple, h.simple (fun closer ↦ hexpression closer []) hsimple⟩

/-! ## More steps -/

/-- Where the first reader gives a result, so does the second, the same one. -/
def Extends (α : Type) (first second : Reader μ α) : Prop :=
  ∀ lexer out, first lexer = .ok out → second lexer = .ok out

theorem congruent_extends : Congruent (μ := μ) Extends where
  pure _ _ _ h := h
  bind {_ _ _ _ _ _} hfirst hf lexer out h := by
    obtain ⟨value, later, hvalue, hout⟩ := bind_eq_ok h
    rw [bind_apply, hfirst _ _ hvalue]
    exact hf value later out hout
  next _ _ h := h
  pushBack _ _ _ h := h
  lift _ _ _ h := h
  outOfFuel _ _ _ h := nomatch h

theorem expression_mono {steps steps' : Nat} (hle : steps ≤ steps') {closer : Option TokenKind}
    {before : List Formula} {lexer : Lexer μ} {out : Option Formula × Lexer μ}
    (h : expression closer before steps lexer = .ok out) :
    expression closer before steps' lexer = .ok out :=
  (congruent_extends.steps hle).1 closer before lexer out h

/-! ## What reading keeps -/

/-- The property of lexers is kept by the first reader. Nothing is asked of the second. -/
def Keeps (kept : Lexer μ → Prop) (α : Type) (first _second : Reader μ α) : Prop :=
  ∀ lexer, kept lexer → ∀ out, first lexer = .ok out → kept out.2

theorem congruent_keeps {kept : Lexer μ → Prop} (hnext : ∀ lexer, kept lexer → kept lexer.next.2)
    (hpushBack : ∀ lexer token back, kept lexer → lexer.pushBack token = .ok back → kept back) :
    Congruent (Keeps kept) where
  pure value lexer hkept out h := by
    cases h
    exact hkept
  bind {_ _ _ _ _ _} hfirst hf lexer hkept out h := by
    obtain ⟨value, later, hvalue, hout⟩ := bind_eq_ok h
    exact hf value later (hfirst lexer hkept _ hvalue) out hout
  next lexer hkept out h := by
    cases h
    exact hnext lexer hkept
  pushBack token lexer hkept out h := by
    unfold pushBack at h
    split at h
    · next back hback =>
      cases h
      exact hpushBack lexer token back hkept hback
    · cases h
  lift checked lexer hkept out h := by
    cases checked with
    | error fault => cases h
    | ok value =>
      cases h
      exact hkept
  outOfFuel _ _ _ _ h := nomatch h

end Reader

namespace Lexer

variable {μ : Type} [Lexicon μ Entry]

/-- Only the end of the input gives a token of kind `endOfInput`. -/
def EndsTruly (lexer : Lexer μ) : Prop :=
  Lexicon.NeverEnds lexer.lexicon ∧ ∀ token ∈ lexer.pending, token.kind ≠ .endOfInput

def AtEnd (lexer : Lexer μ) : Prop := lexer.pending = none ∧ lexer.rest = []

theorem EndsTruly.next {lexer : Lexer μ} (h : lexer.EndsTruly) : lexer.next.2.EndsTruly := by
  unfold Lexer.next
  split
  · exact ⟨h.1, by simp⟩
  · next hpending => exact h

omit [Lexicon μ Entry] in
/-- A token that ends the input is not kept. -/
theorem pushBack_eq_ok {lexer back : Lexer μ} {token : Token}
    (h : lexer.pushBack token = .ok back) :
    token.kind = .endOfInput ∧ back = lexer ∨
      token.kind ≠ .endOfInput ∧ back = { lexer with pending := some token } := by
  unfold Lexer.pushBack at h
  split at h
  · next hkind =>
    cases h
    exact .inl ⟨hkind, rfl⟩
  · next hkind =>
    split at h
    · cases h
    · cases h
      exact .inr ⟨hkind, rfl⟩

theorem EndsTruly.pushBack {lexer back : Lexer μ} {token : Token} (h : lexer.EndsTruly)
    (hback : lexer.pushBack token = .ok back) : back.EndsTruly := by
  rcases pushBack_eq_ok hback with ⟨-, rfl⟩ | ⟨hkind, rfl⟩
  · exact h
  · exact ⟨h.1, by simpa using hkind⟩

theorem EndsTruly.atEnd {lexer : Lexer μ} (h : lexer.EndsTruly)
    (hkind : lexer.next.1.kind = .endOfInput) : lexer.next.2.AtEnd := by
  unfold Lexer.next at hkind ⊢
  split at hkind
  · next token hpending => exact absurd hkind (h.2 token hpending)
  · next hpending =>
    by_cases hblank : lexer.rest.dropWhile Unicode.isBlank = []
    · simp [hblank, Token.scan, AtEnd, hpending]
    · exact absurd hkind ((Token.scan_origin lexer.lexicon hblank).kind_ne_endOfInput h.1)

end Lexer

namespace Reader

open Reading

variable {μ : Type} [Lexicon μ Entry] {lexer final : Lexer μ}

theorem congruent_endsTruly : Congruent (μ := μ) (Keeps Lexer.EndsTruly) :=
  congruent_keeps (fun _ h ↦ h.next) fun _ _ _ h ↦ h.pushBack

/-- Outside brackets a formula is missing only at the end. -/
theorem atEnd_of_simple_none (h : lexer.EndsTruly) {steps : Nat}
    (hnone : simple none steps lexer = .ok (none, final)) : final.AtEnd := by
  cases steps with
  | zero => cases hnone
  | succ steps =>
    have hlater := next_bind_eq_ok hnone
    cases hkind : lexer.next.1.kind with
    | endOfInput =>
      rw [hkind] at hlater
      cases hlater
      exact h.atEnd hkind
    | number | text | identifier | symbol | infixOp | closing =>
      rw [hkind] at hlater
      cases hlater
    | unary | binary | opening | bar =>
      rw [hkind] at hlater
      exact absurd hlater ne_none_of_bind_some

theorem atEnd_of_scripted_none (h : lexer.EndsTruly) {steps : Nat}
    (hnone : scripted (simple none steps) lexer = .ok (none, final)) : final.AtEnd := by
  obtain ⟨base, later, hbase, hlater⟩ := bind_eq_ok hnone
  cases base with
  | none =>
    cases hlater
    exact atEnd_of_simple_none h hbase
  | some base =>
    obtain ⟨found, after, -, hafter⟩ := bind_eq_ok hlater
    split at hafter
    · cases hafter
    · exact absurd hafter ne_none_of_bind_some

theorem atEnd_of_expression (h : lexer.EndsTruly) {steps : Nat} {before : List Formula}
    {result : Option Formula} (hread : expression none before steps lexer = .ok (result, final)) :
    final.AtEnd := by
  induction steps generalizing lexer before with
  | zero => cases hread
  | succ steps ih =>
    have hscripted : Keeps (μ := μ) Lexer.EndsTruly _ (scripted (simple none steps)) _ :=
      congruent_endsTruly.scripted ((congruent_endsTruly.steps le_rfl).2 none)
    obtain ⟨first, later, hfirst, hlater⟩ := bind_eq_ok hread
    have hends := hscripted lexer h _ hfirst
    cases first with
    | none =>
      cases hlater
      exact atEnd_of_scripted_none h hfirst
    | some first =>
      have hafter := next_bind_eq_ok hlater
      split at hafter
      · obtain ⟨second, behind, hsecond, hbehind⟩ := bind_eq_ok hafter
        have hkept := hscripted _ hends.next _ hsecond
        cases second with
        | none => exact ih hkept hbehind
        | some second =>
          obtain ⟨fraction, last, hfraction, hlast⟩ := bind_eq_ok hbehind
          exact ih (congruent_endsTruly.lift _ _ hkept _ hfraction) hlast
      · dsimp only at hafter
        split at hafter
        · next hkind =>
          cases hafter
          exact hends.atEnd hkind
        · obtain ⟨_, back, hback, hmore⟩ := bind_eq_ok hafter
          have hkept := congruent_endsTruly.pushBack _ _ hends.next _ hback
          split at hmore
          · next hcloses => cases hcloses
          · exact ih hkept hmore

end Reader

/-! ## The whole input -/

/-- Outside brackets nothing is read only where the input ends. -/
theorem Reading.Reads.kind_ahead_of_none {tokens rest : List Token}
    (h : Reads .expression none tokens none rest) : (ahead tokens).kind = .endOfInput := by
  cases h with
  | nothing hfirst =>
    cases hfirst with
    | absent hbase =>
      cases hbase with
      | ended hend => exact hend

namespace Lexer

variable {μ : Type} [Lexicon μ Entry]

theorem stream_ofString_eq_nil_iff (lexicon : μ) (input : String) :
    (ofString lexicon input).stream = [] ↔ ∀ c ∈ input.toList, Unicode.isBlank c = true := by
  have hstream : (ofString lexicon input).stream = scanAll lexicon input.toList := rfl
  rw [hstream, ← List.dropWhile_eq_nil_iff]
  constructor
  · intro hnil
    by_contra hne
    rw [scanAll_of_ne_nil lexicon hne] at hnil
    cases hnil
  · exact scanAll_of_blank lexicon

/-- Reading ends without a fault for each input and lexicon, with the same result for any number of
steps that is large enough. If no spelling ends the input, nothing is left ahead or given back, and
there is no formula exactly where the input is blank. -/
theorem exists_read_atEnd (lexicon : μ) (input : String) : ∃ result final,
    (ofString lexicon input).read = .ok (result, final) ∧
      (∀ steps, 2 * (ofString lexicon input).size + 2 ≤ steps →
        Reader.expression none [] steps (ofString lexicon input) = .ok (result, final)) ∧
      (Lexicon.NeverEnds lexicon → final.pending = none ∧ final.remaining = "" ∧
        (result = none ↔ ∀ c ∈ input.toList, Unicode.isBlank c = true)) := by
  obtain ⟨result, rest, hreads⟩ :=
    Reading.exists_reads .expression none (ofString lexicon input).stream
  obtain ⟨final, hread, -⟩ := read_of_reads hreads
  refine ⟨result, final, hread, fun steps hle ↦ Reader.expression_mono hle hread, ?_⟩
  intro hends
  have htruly : (ofString lexicon input).EndsTruly := ⟨hends, by rintro token ⟨⟩⟩
  obtain ⟨hpending, hrest⟩ := Reader.atEnd_of_expression htruly hread
  refine ⟨hpending, congrArg String.ofList hrest, ?_⟩
  rw [← stream_ofString_eq_nil_iff lexicon]
  constructor
  · rintro rfl
    by_contra hne
    obtain ⟨token, tokens, hcons⟩ := List.exists_cons_of_ne_nil hne
    have hkind := hreads.kind_ahead_of_none
    rw [hcons] at hkind
    exact kind_ne_endOfInput_of_mem_stream hends input token (by simp [hcons]) hkind
  · intro hnil
    rw [hnil] at hreads
    cases result with
    | none => rfl
    | some formula => exact absurd hreads.length_lt (Nat.not_lt_zero _)

/-- A spelling of no characters, a bar and a fraction bar. -/
def bars : Entries Entry :=
  [("", { symbol := none, kind := .symbol }),
   ("|", { symbol := some .verticalBar, kind := .bar }),
   ("/", { symbol := some .frac, kind := .infixOp })]

/-- Neither the bar nor the fraction is complete, and a blank is left behind them. -/
theorem exists_read_atEnd_bars : Lexicon.NeverEnds bars ∧ ∃ result final,
    (ofString bars "|a/ ").read = .ok (result, final) ∧
      (∀ steps, 2 * (ofString bars "|a/ ").size + 2 ≤ steps →
        Reader.expression none [] steps (ofString bars "|a/ ") = .ok (result, final)) ∧
      final.pending = none ∧ final.remaining = "" ∧
        (result = none ↔ ∀ c ∈ "|a/ ".toList, Unicode.isBlank c = true) := by
  have hends : Lexicon.NeverEnds bars := Entries.gives (by decide)
  obtain ⟨result, final, hread, hsteps, hend⟩ := exists_read_atEnd bars "|a/ "
  exact ⟨hends, result, final, hread, hsteps, hend hends⟩

end Lexer

end FormulaMarkup
