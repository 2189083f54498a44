import FormulaMarkup.Proofs.Reading.Descent

/-!
# Brackets do not change what stands between them

At the top an expression ends with the input, and in brackets it ends where they close. Between
tokens in which each bracket that opens also closes, and none closes before it opens, a reader does
not see the difference: reading goes the same way if a closing bracket follows
(`Reads.carries`). A bar without its partner, a script or a fraction that lacks a part and a missing
operand end at that bracket as they would end with the input.

So the formula of such tokens in brackets is the formula of the tokens alone, enclosed by the
brackets (`Lexer.formula_eq_enclose`).
-/

namespace FormulaMarkup

namespace Reading

def openings (tokens : List Token) : Nat := tokens.countP (·.kind = .opening)

def closings (tokens : List Token) : Nat := tokens.countP (·.kind = .closing)

/-- No bracket closes before it opens, and as many open as close. Bars do not count. -/
structure Balanced (tokens : List Token) : Prop where
  covered : ∀ front, front <+: tokens → closings front ≤ openings front
  total : openings tokens = closings tokens

instance (tokens : List Token) : Decidable (Balanced tokens) :=
  decidable_of_iff
    ((∀ front ∈ tokens.inits, closings front ≤ openings front) ∧
      openings tokens = closings tokens)
    ⟨fun h ↦ ⟨fun front hfront ↦ h.1 front ((List.mem_inits front tokens).mpr hfront), h.2⟩,
      fun h ↦ ⟨fun front hfront ↦ h.covered front ((List.mem_inits front tokens).mp hfront),
        h.total⟩⟩

/-! ## Depth in brackets -/

/-- Neither opens nor closes a bracket. -/
def IsFlat (token : Token) : Prop := token.kind ≠ .opening ∧ token.kind ≠ .closing

/-- A place of a stream and a later one that is equally deep in brackets. -/
def AsDeep (tokens rest : List Token) : Prop :=
  openings tokens + closings rest = openings rest + closings tokens

variable {closer : Option TokenKind} {tokens middle rest : List Token} {token : Token}

@[simp]
theorem openings_append (front rest : List Token) :
    openings (front ++ rest) = openings front + openings rest :=
  List.countP_append

@[simp]
theorem closings_append (front rest : List Token) :
    closings (front ++ rest) = closings front + closings rest :=
  List.countP_append

theorem openings_cons (token : Token) (rest : List Token) :
    openings (token :: rest) = openings rest + if token.kind = .opening then 1 else 0 := by
  simp [openings, List.countP_cons]

theorem closings_cons (token : Token) (rest : List Token) :
    closings (token :: rest) = closings rest + if token.kind = .closing then 1 else 0 := by
  simp [closings, List.countP_cons]

theorem AsDeep.refl (tokens : List Token) : AsDeep tokens tokens := Eq.refl _

theorem AsDeep.trans (h : AsDeep tokens middle) (hrest : AsDeep middle rest) :
    AsDeep tokens rest := by
  unfold AsDeep at *
  omega

theorem IsFlat.asDeep (h : IsFlat token) (rest : List Token) : AsDeep (token :: rest) rest := by
  rw [AsDeep, openings_cons, closings_cons, if_neg h.1, if_neg h.2]
  rfl

theorem isFlat_of_kind {kind : TokenKind} (h : token.kind = kind)
    (hne : kind ≠ .opening ∧ kind ≠ .closing := by decide) : IsFlat token := by
  rw [IsFlat, h]
  exact hne

theorem IsFlat.of_leaf? {formula : Formula} (h : token.leaf? = some formula) : IsFlat token := by
  unfold Token.leaf? at h
  split at h
  · next hkind => exact isFlat_of_kind hkind
  · next hkind => exact isFlat_of_kind hkind
  · next hkind => exact isFlat_of_kind hkind
  · next hkind => exact isFlat_of_kind hkind
  · next hkind => exact isFlat_of_kind hkind
  · cases h

theorem IsFlat.of_isInfix {symbol : Symbol} (h : token.isInfix symbol = true) : IsFlat token :=
  isFlat_of_kind (Token.isInfix_iff.mp h).1

/-- Each bracket that opens closes behind it. None closes a bracket that opened before, unless
reading would end there. -/
structure Sheltered (closer : Option TokenKind) (tokens : List Token) : Prop where
  unending : Descent.Unending tokens
  closes : ∀ later, later <:+ tokens → openings later ≤ closings later
  covered : closer = none → ∀ front, front <+: tokens → closings front ≤ openings front

theorem Balanced.sheltered (h : Balanced tokens) (hends : Descent.Unending tokens) :
    Sheltered none tokens where
  unending := hends
  closes := by
    rintro later ⟨front, rfl⟩
    have hfront := h.covered front (List.prefix_append front later)
    have htotal := h.total
    rw [openings_append, closings_append] at htotal
    omega
  covered _ := h.covered

/-- What is read in brackets is closed off by them. -/
theorem Sheltered.inside (h : Sheltered closer tokens) (hsuffix : rest <:+ tokens)
    (kind : TokenKind) : Sheltered (some kind) rest where
  unending := h.unending.of_suffix hsuffix
  closes later hlater := h.closes later (hlater.trans hsuffix)
  covered := by rintro ⟨⟩

theorem Sheltered.move (h : Sheltered closer tokens) (hsuffix : rest <:+ tokens)
    (hdeep : AsDeep tokens rest) : Sheltered closer rest where
  unending := h.unending.of_suffix hsuffix
  closes later hlater := h.closes later (hlater.trans hsuffix)
  covered hnone front hfront := by
    obtain ⟨before, rfl⟩ := hsuffix
    have hcovered := h.covered hnone (before ++ front)
      ((List.prefix_append_right_inj before).mpr hfront)
    rw [AsDeep, openings_append, closings_append] at hdeep
    rw [openings_append, closings_append] at hcovered
    omega

theorem Sheltered.tail (h : Sheltered closer (token :: rest)) (hflat : IsFlat token) :
    Sheltered closer rest :=
  h.move (List.suffix_cons token rest) (hflat.asDeep rest)

theorem Sheltered.behind (h : Sheltered closer tokens) (hsuffix : token :: rest <:+ tokens)
    (hdeep : AsDeep tokens (token :: rest)) (hflat : IsFlat token) :
    Sheltered closer rest ∧ AsDeep tokens rest :=
  ⟨(h.move hsuffix hdeep).tail hflat, hdeep.trans (hflat.asDeep rest)⟩

/-- At the top no bracket closes. -/
theorem Sheltered.kind_ne_closing (h : Sheltered none (token :: rest)) : token.kind ≠ .closing := by
  intro hkind
  have hcovered := h.covered rfl [token] (List.prefix_append [token] rest)
  simp [openings, closings, hkind] at hcovered

/-! ## A closing bracket behind the tokens -/

section Ahead

variable {right : Token} {later : List Token}

theorem ahead_append_of_ne_nil (hne : tokens ≠ []) (later : List Token) :
    ahead (tokens ++ later) = ahead tokens := by
  obtain ⟨token, tokens, rfl⟩ := List.exists_cons_of_ne_nil hne
  rfl

/-- What is not ahead is not ahead either if the closing bracket is not it. -/
theorem kind_ahead_append_ne {kind : TokenKind} (h : (ahead tokens).kind ≠ kind)
    (hright : right.kind ≠ kind) : (ahead (tokens ++ right :: later)).kind ≠ kind := by
  cases tokens with
  | nil => exact hright
  | cons token tokens => exact h

theorem isInfix_ahead_append {symbol : Symbol} (h : (ahead tokens).isInfix symbol = false)
    (hright : right.kind = .closing) :
    (ahead (tokens ++ right :: later)).isInfix symbol = false := by
  cases tokens with
  | nil =>
    apply Token.isInfix_eq_false
    rw [List.nil_append, ahead_cons, hright]
    decide
  | cons token tokens => exact h

theorem glanced_append (h : Descent.Unending tokens) (hright : right.kind = .closing) :
    glanced (tokens ++ right :: later) = tokens ++ right :: later := by
  apply glanced_of_kind_ahead
  cases tokens with
  | nil =>
    rw [List.nil_append, ahead_cons, hright]
    decide
  | cons token tokens => exact h token List.mem_cons_self

end Ahead

/-- Reading ends as deep in brackets as it began, and goes the same way if a closing bracket
follows, which closes the bracket that is open or, if none was, one that opened before. -/
structure Carries (level : Level) (closer : Option TokenKind) (tokens : List Token)
    (result : Option Formula) (rest : List Token) : Prop where
  asDeep : AsDeep tokens rest
  reads : ∀ right later, right.kind = .closing →
    Reads level (some (closer.getD .closing)) (tokens ++ right :: later) result
      (rest ++ right :: later)

/-- Behind an item, a closing bracket ends every expression in brackets or bars. -/
theorem reads_closing {kind : TokenKind} {item : Formula} {right : Token} {later : List Token}
    (hitem : Reads .scripted (some kind) tokens (some item) (right :: later))
    (hright : right.kind = .closing) :
    Reads .expression (some kind) tokens (some item) (right :: later) := by
  have hline : (ahead (right :: later)).isInfix .frac = false :=
    Token.isInfix_eq_false (by rw [ahead_cons, hright]; decide) .frac
  have hend : (ahead (right :: later)).kind ≠ .endOfInput := by
    rw [ahead_cons, hright]
    decide
  by_cases hkind : kind = .closing
  · exact .closed hitem hline hend (by rw [ahead_cons, hright, hkind])
  · have hmore : Reads .expression (some kind) (right :: later) none (right :: later) :=
      .nothing (.absent (.closing hright))
    refine .item hitem hline hend ?_ hmore
    rw [ahead_cons, hright]
    exact fun heq ↦ hkind (Option.some.inj heq).symm

/-- Each bracket of sheltered tokens closes. -/
theorem Sheltered.kind_ne_opening {body : Option Formula} {left : Token}
    (h : Sheltered closer (left :: tokens)) (hdeep : AsDeep tokens rest)
    (hbody : Reads .expression (some .closing) tokens body rest)
    (hopen : (ahead rest).kind ≠ .closing) : left.kind ≠ .opening := by
  intro hkind
  have hends := h.unending.of_suffix (List.suffix_cons left tokens)
  rcases hbody.stops hends (.inl rfl) with rfl | ⟨kind, hcloser, hcloses⟩
  · have hopenings := h.closes (left :: tokens) List.suffix_rfl
    rw [openings_cons, closings_cons, if_pos hkind, if_neg (by rw [hkind]; decide)] at hopenings
    simp only [AsDeep, openings, closings, List.countP_nil] at hdeep hopenings
    omega
  · cases hcloser
    exact hopen (hcloses.elim id id)

theorem carries_bracket {left right : Token} {body : Option Formula} (hopens : left.Opens)
    (hfull : (ahead tokens).kind ≠ Reader.closerOf left)
    (hcloses : right.kind = Reader.closerOf left) (hends : Descent.Unending tokens)
    (hsuffix : right :: rest <:+ tokens)
    (hbody : Carries .expression (some (Reader.closerOf left)) tokens body (right :: rest)) :
    Carries .simple closer (left :: tokens) (some (Matrix.enclose left.mark body right.mark))
      rest where
  asDeep := by
    have hdeep := hbody.asDeep
    unfold AsDeep at hdeep ⊢
    rw [openings_cons, closings_cons] at hdeep ⊢
    rcases hopens with hkind | hkind <;> simp [hkind, hcloses, Reader.closerOf] at hdeep ⊢ <;> omega
  reads right' later hright := by
    have hne : tokens ≠ [] := by
      rintro rfl
      cases List.suffix_nil.mp hsuffix
    have hreads := hbody.reads right' later hright
    rw [Option.getD_some, ← glanced_append hends hright] at hreads
    rw [← ahead_append_of_ne_nil hne (right' :: later)] at hfull
    exact .bracket hopens hfull hreads hcloses

theorem carries_unclosed {left : Token} {body : Option Formula} (hkind : left.kind = .bar)
    (hfull : (ahead tokens).kind ≠ .bar) (hends : Descent.Unending tokens)
    (hsuffix : rest <:+ tokens)
    (hbody : Carries .expression (some .bar) tokens body rest) (hopen : (ahead rest).kind ≠ .bar) :
    Carries .simple closer (left :: tokens) (some (Reader.unclosed left body)) rest where
  asDeep := ((isFlat_of_kind hkind).asDeep tokens).trans hbody.asDeep
  reads right later hright := by
    have hcloser : Reader.closerOf left = .bar := if_neg (by rw [hkind]; decide)
    have hbar : right.kind ≠ .bar := by
      rw [hright]
      decide
    have hreads := hbody.reads right later hright
    rw [Option.getD_some, ← glanced_append hends hright, ← hcloser] at hreads
    rw [← glanced_append (hends.of_suffix hsuffix) hright]
    rw [← hcloser] at hfull hopen hbar
    exact .unclosed (.inr hkind) (kind_ahead_append_ne hfull hbar) hreads
      (kind_ahead_append_ne hopen hbar)

/-- Within its brackets an expression is read as at the top. -/
theorem Reads.carries {level : Level} {result : Option Formula}
    (h : Reads level closer tokens result rest) (hsheltered : Sheltered closer tokens) :
    Carries level closer tokens result rest := by
  -- the depth where a formula ends is needed to go on behind it: nothing closes there either
  induction h with
  | ended hend =>
    obtain rfl := hsheltered.unending.eq_nil hend
    exact ⟨.refl _, fun right later hright ↦ .closing hright⟩
  | leaf hleaf => exact ⟨(IsFlat.of_leaf? hleaf).asDeep _, fun right later hright ↦ .leaf hleaf⟩
  | stray hkind => exact absurd hkind hsheltered.kind_ne_closing
  | closing hkind => exact ⟨.refl _, fun right later hright ↦ .closing hkind⟩
  | unary hkind _ ih =>
    have hflat := isFlat_of_kind hkind
    have honly := ih (hsheltered.tail hflat)
    exact ⟨(hflat.asDeep _).trans honly.asDeep,
      fun right later hright ↦ .unary hkind (honly.reads right later hright)⟩
  | binary hkind hfirst _ ihfirst ihsecond =>
    have hflat := isFlat_of_kind hkind
    have hfirst' := ihfirst (hsheltered.tail hflat)
    have hsecond := ihsecond ((hsheltered.tail hflat).move hfirst.suffix hfirst'.asDeep)
    exact ⟨((hflat.asDeep _).trans hfirst'.asDeep).trans hsecond.asDeep, fun right later hright ↦
      .binary hkind (hfirst'.reads right later hright) (hsecond.reads right later hright)⟩
  | emptyBracket hopens hcloses =>
    refine ⟨?_, fun right later hright ↦ .emptyBracket hopens hcloses⟩
    unfold AsDeep
    simp only [openings_cons, closings_cons]
    rcases hopens with hkind | hkind
    · simp [hkind, hcloses, Reader.closerOf]
      omega
    · simp [hkind, hcloses, Reader.closerOf]
  | @bracket _ left _ _ _ _ hopens hfull hbody hcloses ih =>
    have hinside := hsheltered.inside (List.suffix_cons _ _) (Reader.closerOf left)
    rw [hinside.unending.glanced_eq] at hbody ih
    exact carries_bracket hopens hfull hcloses hinside.unending hbody.suffix (ih hinside)
  | @unclosed _ left tokens body rest hopens hfull hbody hopen ih =>
    have hinside := hsheltered.inside (List.suffix_cons _ _) (Reader.closerOf left)
    rw [hinside.unending.glanced_eq] at hbody ih
    rw [(hinside.unending.of_suffix hbody.suffix).glanced_eq]
    have hcarries := ih hinside
    rcases hopens with hkind | hkind
    · have hcloser : Reader.closerOf left = .closing := if_pos hkind
      rw [hcloser] at hbody hopen
      exact absurd hkind (hsheltered.kind_ne_opening hcarries.asDeep hbody hopen)
    · have hcloser : Reader.closerOf left = .bar := if_neg (by rw [hkind]; decide)
      rw [hcloser] at hfull hopen hcarries
      exact carries_unclosed hkind hfull hinside.unending hbody.suffix hcarries hopen
  | absent _ ih =>
    have hbase := ih hsheltered
    exact ⟨hbase.asDeep, fun right later hright ↦ .absent (hbase.reads right later hright)⟩
  | bare hbase hsub hsup ih =>
    have hbase' := ih hsheltered
    have hrest := hsheltered.unending.of_suffix hbase.suffix
    rw [hrest.glanced_eq]
    refine ⟨hbase'.asDeep, fun right later hright ↦ ?_⟩
    have hreads := Reads.bare (hbase'.reads right later hright) (isInfix_ahead_append hsub hright)
      (isInfix_ahead_append hsup hright)
    rwa [glanced_append hrest hright] at hreads
  | danglingSub hbase hsub _ ihbase ihlower =>
    have hbase' := ihbase hsheltered
    obtain ⟨hmiddle, hdeep⟩ :=
      hsheltered.behind hbase.suffix hbase'.asDeep (.of_isInfix hsub)
    have hlower := ihlower hmiddle
    exact ⟨hdeep.trans hlower.asDeep, fun right later hright ↦
      .danglingSub (hbase'.reads right later hright) hsub (hlower.reads right later hright)⟩
  | sub hbase hsub hlower hsup ihbase ihlower =>
    have hbase' := ihbase hsheltered
    obtain ⟨hmiddle, hdeep⟩ :=
      hsheltered.behind hbase.suffix hbase'.asDeep (.of_isInfix hsub)
    have hlower' := ihlower hmiddle
    have hrest := hmiddle.unending.of_suffix hlower.suffix
    rw [hrest.glanced_eq]
    refine ⟨hdeep.trans hlower'.asDeep, fun right later hright ↦ ?_⟩
    have hreads := Reads.sub (hbase'.reads right later hright) hsub
      (hlower'.reads right later hright) (isInfix_ahead_append hsup hright)
    rwa [glanced_append hrest hright] at hreads
  | subSup hbase hsub hlower hsup _ ihbase ihlower ihupper =>
    have hbase' := ihbase hsheltered
    obtain ⟨hmiddle, hdeep⟩ :=
      hsheltered.behind hbase.suffix hbase'.asDeep (.of_isInfix hsub)
    have hlower' := ihlower hmiddle
    obtain ⟨hlast, hdeep'⟩ :=
      hmiddle.behind hlower.suffix hlower'.asDeep (.of_isInfix hsup)
    have hupper := ihupper hlast
    exact ⟨(hdeep.trans hdeep').trans hupper.asDeep, fun right later hright ↦
      .subSup (hbase'.reads right later hright) hsub (hlower'.reads right later hright) hsup
        (hupper.reads right later hright)⟩
  | sup hbase hsup _ ihbase ihupper =>
    have hbase' := ihbase hsheltered
    obtain ⟨hmiddle, hdeep⟩ :=
      hsheltered.behind hbase.suffix hbase'.asDeep (.of_isInfix hsup)
    have hupper := ihupper hmiddle
    exact ⟨hdeep.trans hupper.asDeep, fun right later hright ↦
      .sup (hbase'.reads right later hright) hsup (hupper.reads right later hright)⟩
  | nothing _ ih =>
    have hfirst := ih hsheltered
    exact ⟨hfirst.asDeep, fun right later hright ↦ .nothing (hfirst.reads right later hright)⟩
  | fraction habove hline hbelow _ ihabove ihbelow ihmore =>
    have habove' := ihabove hsheltered
    obtain ⟨hmiddle, hdeep⟩ :=
      hsheltered.behind habove.suffix habove'.asDeep (.of_isInfix hline)
    have hbelow' := ihbelow hmiddle
    have hmore := ihmore (hmiddle.move hbelow.suffix hbelow'.asDeep)
    exact ⟨(hdeep.trans hbelow'.asDeep).trans hmore.asDeep, fun right later hright ↦
      .fraction (habove'.reads right later hright) hline (hbelow'.reads right later hright)
        (hmore.reads right later hright)⟩
  | danglingFrac habove hline hbelow _ ihabove ihbelow ihmore =>
    have habove' := ihabove hsheltered
    obtain ⟨hmiddle, hdeep⟩ :=
      hsheltered.behind habove.suffix habove'.asDeep (.of_isInfix hline)
    have hbelow' := ihbelow hmiddle
    have hmore := ihmore (hmiddle.move hbelow.suffix hbelow'.asDeep)
    exact ⟨(hdeep.trans hbelow'.asDeep).trans hmore.asDeep, fun right later hright ↦
      .danglingFrac (habove'.reads right later hright) hline (hbelow'.reads right later hright)
        (hmore.reads right later hright)⟩
  | last hitem hend ih =>
    have hitem' := ih hsheltered
    obtain rfl := (hsheltered.unending.of_suffix hitem.suffix).eq_nil hend
    exact ⟨hitem'.asDeep, fun right later hright ↦
      reads_closing (hitem'.reads right later hright) hright⟩
  | @closed closer tokens item rest hitem hline hend hcloses ih =>
    have hitem' := ih hsheltered
    refine ⟨hitem'.asDeep, fun right later hright ↦ ?_⟩
    have hne : rest ≠ [] := by
      rintro rfl
      exact hend rfl
    subst hcloses
    have hahead := ahead_append_of_ne_nil hne (right :: later)
    rw [← hahead] at hend
    exact .closed (hitem'.reads right later hright) (isInfix_ahead_append hline hright) hend
      (by rw [hahead]; rfl)
  | @item closer tokens item middle more rest hitem hline hend hcloses _ ihitem ihmore =>
    have hitem' := ihitem hsheltered
    have hmiddle := hsheltered.move hitem.suffix hitem'.asDeep
    have hmore := ihmore hmiddle
    refine ⟨hitem'.asDeep.trans hmore.asDeep, fun right later hright ↦ ?_⟩
    obtain ⟨token, middle, rfl⟩ : ∃ token later, middle = token :: later := by
      cases middle with
      | nil => exact absurd rfl hend
      | cons token later => exact ⟨token, later, rfl⟩
    refine .item (hitem'.reads right later hright) hline hend ?_ (hmore.reads right later hright)
    cases closer with
    | none => exact fun heq ↦ hmiddle.kind_ne_closing (Option.some.inj heq)
    | some kind => exact hcloses

/-- A bracket around balanced tokens encloses what they are read as alone, whatever follows. -/
theorem reads_enclosed {left right : Token} {body : Option Formula} (hleft : left.kind = .opening)
    (hright : right.kind = .closing) (hbalanced : Balanced tokens)
    (hends : Descent.Unending tokens) (hbody : Reads .expression none tokens body [])
    (later : List Token) :
    Reads .simple closer (left :: (tokens ++ right :: later))
      (some (Matrix.enclose left.mark body right.mark)) later := by
  have hcloser : Reader.closerOf left = .closing := if_pos hleft
  cases tokens with
  | nil =>
    cases body with
    | none => exact .emptyBracket (.inl hleft) (hright.trans hcloser.symm)
    | some formula => exact absurd hbody.length_lt (lt_irrefl 0)
  | cons token tokens =>
    have hsheltered := hbalanced.sheltered hends
    have hfull : (ahead (token :: tokens ++ right :: later)).kind ≠ Reader.closerOf left := by
      rw [hcloser]
      exact hsheltered.kind_ne_closing
    have hinside := (hbody.carries hsheltered).reads right later hright
    rw [← glanced_append hends hright, Option.getD_none, ← hcloser] at hinside
    exact .bracket (.inl hleft) hfull hinside (hright.trans hcloser.symm)

end Reading

namespace Lexer

open Descent Reading

variable {μ : Type} [Lexicon μ Entry]

/-- The formula of balanced tokens in brackets is the formula of these tokens alone, enclosed by
the brackets. -/
theorem formula_eq_enclose {lexer : Lexer μ} {left right : Token} {tokens : List Token}
    (hends : Lexicon.NeverEnds lexer.lexicon) (hleft : left.kind = .opening)
    (hright : right.kind = .closing) (hbalanced : Balanced tokens)
    (htokens : lexer.tokens = left :: tokens ++ [right]) :
    lexer.formula = .ok (some (Matrix.enclose left.mark (parse tokens) right.mark)) ∧
      ∀ (ν : Type) [Lexicon ν Entry] (alone : Lexer ν), Lexicon.NeverEnds alone.lexicon →
        alone.tokens = tokens → alone.formula = .ok (parse tokens) := by
  have hall : Unending (left :: (tokens ++ [right])) := by
    have htaken := lexer.unending_tokens
    rwa [htokens] at htaken
  have hinner : Unending tokens := fun token hmem ↦
    hall token (List.mem_cons_of_mem left (List.mem_append_left [right] hmem))
  constructor
  · obtain ⟨body, rest, hbody⟩ := exists_reads .expression none tokens
    obtain rfl := hbody.rest_eq_nil hinner (.inl rfl)
    have hparse : parse tokens = body := (hbody.descends hinner).1
    have hsimple : Reads .simple none (left :: (tokens ++ [right]))
        (some (Matrix.enclose left.mark body right.mark)) [] :=
      reads_enclosed hleft hright hbalanced hinner hbody []
    have hreads : Reads .expression none (left :: (tokens ++ [right]))
        (some (Matrix.enclose left.mark body right.mark)) [] :=
      .last (.bare hsimple rfl rfl) rfl
    rw [formula_eq_parse hends, htokens, hparse]
    exact congrArg Except.ok (hreads.descends hall).1
  · intro ν _ alone hends' htokens'
    rw [formula_eq_parse hends', htokens']

/-- A pair of brackets, a bar and the mark of a lower script. -/
def parentheses : Entries Entry :=
  [("(", ⟨some .leftParen, .opening, none⟩), (")", ⟨some .rightParen, .closing, none⟩),
   ("|", ⟨some .verticalBar, .bar, none⟩), ("_", ⟨some .sub, .infixOp, none⟩)]

/-- A bar without its partner and a script that lacks its formula, in brackets and alone. -/
theorem formula_eq_enclose_dangling :
    let lexer := ofString parentheses "((x)|a_)"
    let alone := ofString parentheses "(x)|a_"
    lexer.formula = .ok (some (Matrix.enclose ⟨some .leftParen, "(", .opening⟩
      (parse alone.tokens) ⟨some .rightParen, ")", .closing⟩)) ∧
      alone.formula = .ok (parse alone.tokens) := by
  intro lexer alone
  have hends : Lexicon.NeverEnds parentheses := Entries.gives (by decide)
  have hbalanced : Balanced alone.tokens := by decide +kernel
  have htokens : lexer.tokens = .ofEntry "(" ⟨some .leftParen, .opening, none⟩ :: alone.tokens ++
      [.ofEntry ")" ⟨some .rightParen, .closing, none⟩] := by decide +kernel
  have hformula := formula_eq_enclose hends rfl rfl hbalanced htokens
  exact ⟨hformula.1, hformula.2 (Entries Entry) alone hends rfl⟩

end Lexer

end FormulaMarkup
