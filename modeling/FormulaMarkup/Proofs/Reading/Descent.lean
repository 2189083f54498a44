import FormulaMarkup.Proofs.Lexicon.Trie
import FormulaMarkup.Proofs.Reading.Run

/-!
# Reading as recursive descent

`Descent.parse` reads a formula from a list of tokens by three functions, one for each level of the
grammar, which look at the head of the list and call each other. They have no lexer, give no token
back and count no steps: what they leave of the list is no longer than the list, and shorter where
they find a formula, so each call is justified by a length. On the tokens of an iteration they do
what the rules say (`Reading.Reads.descends`).

So a lexer of a lexicon that never ends the input reads what `Descent.parse` makes of its tokens,
and two lexers with equal tokens read equal formulas (`Lexer.formula_eq_of_tokens_eq`).
-/

namespace FormulaMarkup

open Reading

namespace Descent

/-- A formula, if one was found at the front of the tokens, and the tokens behind it. -/
structure Outcome (tokens : List Token) where
  formula : Option Formula
  rest : List Token
  length_le : rest.length ≤ tokens.length
  length_lt : formula.isSome = true → rest.length < tokens.length

namespace Outcome

variable {tokens : List Token}

def missing (rest : List Token) (h : rest.length ≤ tokens.length) : Outcome tokens :=
  ⟨none, rest, h, fun hsome ↦ by cases hsome⟩

def found (formula : Formula) (rest : List Token) (h : rest.length < tokens.length) :
    Outcome tokens :=
  ⟨some formula, rest, h.le, fun _ ↦ h⟩

end Outcome

/-- An item before a fraction bar, above what was read behind the bar, if anything. -/
def divided (line : Token) (above : Formula) : Option Formula → Formula
  | some below => fractionOf line above below
  | none => above

theorem length_tail_lt {rest tokens : List Token} (h : rest.length < tokens.length) :
    rest.tail.length < tokens.length :=
  (List.tail_suffix rest).length_le.trans_lt h

mutual

/-- A leaf, a bracketed expression, or an operator before one or two simple formulas. -/
def simple (closer : Option TokenKind) (tokens : List Token) : Outcome tokens :=
  match tokens with
  | [] => .missing [] le_rfl
  | token :: tokens =>
    have hbehind : tokens.length < (token :: tokens).length := length_lt_cons token tokens
    match token.kind with
    | .endOfInput => .missing (token :: tokens) le_rfl
    | .number => .found (.number token.text) tokens hbehind
    | .text => .found (.text token.text) tokens hbehind
    | .identifier => .found (.identifier token.text) tokens hbehind
    | .symbol | .infixOp => .found (.symbol token.mark) tokens hbehind
    | .unary =>
      match simple closer tokens with
      | ⟨only, rest, hrest, _⟩ => .found (unaryOf token only) rest (hrest.trans_lt hbehind)
    | .binary =>
      match simple closer tokens with
      | ⟨first, middle, hmiddle, _⟩ =>
        have hmiddle : middle.length < (token :: tokens).length := hmiddle.trans_lt hbehind
        match simple closer middle with
        | ⟨second, rest, hrest, _⟩ =>
          .found (binaryOf token first second) rest (hrest.trans_lt hmiddle)
    | .opening | .bar =>
      if (ahead tokens).kind = Reader.closerOf token then
        .found (.bracketed (some token.mark) none (some (ahead tokens).mark)) tokens.tail
          (length_tail_lt hbehind)
      else
        match expression (some (Reader.closerOf token)) tokens with
        | ⟨body, rest, hrest, _⟩ =>
          have hrest : rest.length < (token :: tokens).length := hrest.trans_lt hbehind
          if (ahead rest).kind = Reader.closerOf token then
            .found (Matrix.enclose token.mark body (ahead rest).mark) rest.tail
              (length_tail_lt hrest)
          else .found (Reader.unclosed token body) rest hrest
    | .closing =>
      if closer.isNone then .found (.symbol token.mark) tokens hbehind
      else .missing (token :: tokens) le_rfl
termination_by (tokens.length, 0)

/-- A simple formula with an optional `_` script and then an optional `^` script. -/
def scripted (closer : Option TokenKind) (tokens : List Token) : Outcome tokens :=
  match simple closer tokens with
  | ⟨none, rest, hrest, _⟩ => .missing rest hrest
  | ⟨some base, middle, _, hmiddle⟩ =>
    have hmiddle : middle.length < tokens.length := hmiddle rfl
    have hbehind : middle.tail.length < tokens.length := length_tail_lt hmiddle
    if (ahead middle).isInfix .sub then
      match simple closer middle.tail with
      | ⟨none, rest, hrest, _⟩ => .found base rest (hrest.trans_lt hbehind)
      | ⟨some lower, last, hlast, _⟩ =>
        have hlast : last.length < tokens.length := hlast.trans_lt hbehind
        have hupper : last.tail.length < tokens.length := length_tail_lt hlast
        if (ahead last).isInfix .sup then
          match simple closer last.tail with
          | ⟨upper, rest, hrest, _⟩ =>
            .found (base.withScripts (some lower) upper) rest (hrest.trans_lt hupper)
        else .found (base.withScripts (some lower) none) last hlast
    else if (ahead middle).isInfix .sup then
      match simple closer middle.tail with
      | ⟨upper, rest, hrest, _⟩ =>
        .found (base.withScripts none upper) rest (hrest.trans_lt hbehind)
    else .found base middle hmiddle
termination_by (tokens.length, 1)

/-- A run of items, each a scripted formula or two of them with a `/` between. -/
def expression (closer : Option TokenKind) (tokens : List Token) : Outcome tokens :=
  match scripted closer tokens with
  | ⟨none, rest, hrest, _⟩ => .missing rest hrest
  | ⟨some above, middle, _, hmiddle⟩ =>
    have hmiddle : middle.length < tokens.length := hmiddle rfl
    have hbehind : middle.tail.length < tokens.length := length_tail_lt hmiddle
    if (ahead middle).isInfix .frac then
      match scripted closer middle.tail with
      | ⟨below, later, hlater, _⟩ =>
        have hlater : later.length < tokens.length := hlater.trans_lt hbehind
        match expression closer later with
        | ⟨more, rest, hrest, _⟩ =>
          .found ((divided (ahead middle) above below).followedBy more) rest (hrest.trans_lt hlater)
    else if middle = [] ∨ some (ahead middle).kind = closer then .found above middle hmiddle
    else
      match expression closer middle with
      | ⟨more, rest, hrest, _⟩ => .found (above.followedBy more) rest (hrest.trans_lt hmiddle)
termination_by (tokens.length, 2)

end

/-- What the tokens of a whole input mean. -/
def parse (tokens : List Token) : Option Formula := (expression none tokens).formula

/-- The reader of a level. -/
def descend : Level → Option TokenKind → (tokens : List Token) → Outcome tokens
  | .simple => simple
  | .scripted => scripted
  | .expression => expression

/-- Recursive descent finds this at the front of the tokens, and leaves the rest. -/
def Descends (level : Level) (closer : Option TokenKind) (tokens : List Token)
    (result : Option Formula) (rest : List Token) : Prop :=
  (descend level closer tokens).formula = result ∧ (descend level closer tokens).rest = rest

theorem Descends.exists_eq {level : Level} {closer : Option TokenKind} {tokens rest : List Token}
    {result : Option Formula} (h : Descends level closer tokens result rest) :
    ∃ hle hlt, descend level closer tokens = ⟨result, rest, hle, hlt⟩ := by
  obtain ⟨rfl, rfl⟩ := h
  exact ⟨_, _, rfl⟩

/-- No token of the list ends the input. -/
def Unending (tokens : List Token) : Prop := ∀ token ∈ tokens, token.kind ≠ .endOfInput

theorem Unending.glanced_eq {tokens : List Token} (h : Unending tokens) :
    glanced tokens = tokens :=
  glanced_eq_of_unending h

theorem Unending.eq_nil {tokens : List Token} (h : Unending tokens)
    (hend : (ahead tokens).kind = .endOfInput) : tokens = [] :=
  eq_nil_of_ended h hend

theorem Unending.of_suffix {tokens rest : List Token} (h : Unending tokens)
    (hsuffix : rest <:+ tokens) : Unending rest :=
  forall_of_suffix h hsuffix

section Simple

variable {closer : Option TokenKind} {tokens rest : List Token}

theorem descends_nil : Descends .simple closer [] none [] := by
  simp only [Descends, descend]
  rw [simple.eq_def]
  exact ⟨rfl, rfl⟩

theorem descends_leaf {token : Token} {formula : Formula} (h : token.leaf? = some formula) :
    Descends .simple closer (token :: rest) (some formula) rest := by
  simp only [Descends, descend]
  rw [simple.eq_def]
  simp only [Token.leaf?] at h
  split at h <;> cases h <;> next hkind =>
    simp only [hkind]
    exact ⟨rfl, rfl⟩

theorem descends_stray {token : Token} (h : token.kind = .closing) :
    Descends .simple none (token :: rest) (some (.symbol token.mark)) rest := by
  simp only [Descends, descend]
  rw [simple.eq_def]
  simp only [h]
  exact ⟨rfl, rfl⟩

theorem descends_closing {kind : TokenKind} {token : Token} (h : token.kind = .closing) :
    Descends .simple (some kind) (token :: rest) none (token :: rest) := by
  simp only [Descends, descend]
  rw [simple.eq_def]
  simp only [h]
  exact ⟨rfl, rfl⟩

theorem descends_unary {operator : Token} {only : Option Formula} (h : operator.kind = .unary)
    (honly : Descends .simple closer tokens only rest) :
    Descends .simple closer (operator :: tokens) (some (unaryOf operator only)) rest := by
  obtain ⟨rfl, rfl⟩ := honly
  simp only [Descends, descend]
  rw [simple.eq_def]
  simp only [h]
  exact ⟨rfl, rfl⟩

theorem descends_binary {operator : Token} {first second : Option Formula} {middle : List Token}
    (h : operator.kind = .binary) (hfirst : Descends .simple closer tokens first middle)
    (hsecond : Descends .simple closer middle second rest) :
    Descends .simple closer (operator :: tokens) (some (binaryOf operator first second)) rest := by
  obtain ⟨rfl, rfl⟩ := hfirst
  obtain ⟨rfl, rfl⟩ := hsecond
  simp only [Descends, descend]
  rw [simple.eq_def]
  simp only [h]
  exact ⟨rfl, rfl⟩

theorem descends_emptyBracket {left right : Token} (hopens : left.Opens)
    (hcloses : right.kind = Reader.closerOf left) :
    Descends .simple closer (left :: right :: rest)
      (some (.bracketed (some left.mark) none (some right.mark))) rest := by
  simp only [Descends, descend]
  rw [simple.eq_def]
  rcases hopens with hkind | hkind
  all_goals
    simp only [hkind, ahead_cons, hcloses, if_true]
    exact ⟨rfl, rfl⟩

theorem descends_bracket {left right : Token} {body : Option Formula} (hopens : left.Opens)
    (hfull : (ahead tokens).kind ≠ Reader.closerOf left)
    (hbody : Descends .expression (some (Reader.closerOf left)) tokens body (right :: rest))
    (hcloses : right.kind = Reader.closerOf left) :
    Descends .simple closer (left :: tokens) (some (Matrix.enclose left.mark body right.mark))
      rest := by
  obtain ⟨_, _, hbody⟩ := hbody.exists_eq
  simp only [Descends, descend] at hbody ⊢
  rw [simple.eq_def]
  rcases hopens with hkind | hkind
  all_goals
    simp only [hkind, if_neg hfull, hbody, ahead_cons, if_pos hcloses]
    exact ⟨rfl, rfl⟩

theorem descends_unclosed {left : Token} {body : Option Formula} (hopens : left.Opens)
    (hfull : (ahead tokens).kind ≠ Reader.closerOf left)
    (hbody : Descends .expression (some (Reader.closerOf left)) tokens body rest)
    (hopen : (ahead rest).kind ≠ Reader.closerOf left) :
    Descends .simple closer (left :: tokens) (some (Reader.unclosed left body)) rest := by
  obtain ⟨_, _, hbody⟩ := hbody.exists_eq
  simp only [Descends, descend] at hbody ⊢
  rw [simple.eq_def]
  rcases hopens with hkind | hkind
  all_goals
    simp only [hkind, if_neg hfull, hbody, if_neg hopen]
    exact ⟨rfl, rfl⟩

end Simple

section Scripted

variable {closer : Option TokenKind} {tokens middle last rest : List Token}
  {base lower : Formula} {upper : Option Formula} {mark : Token}

theorem descends_absent (hbase : Descends .simple closer tokens none rest) :
    Descends .scripted closer tokens none rest := by
  obtain ⟨_, _, hbase⟩ := hbase.exists_eq
  simp only [Descends, descend] at hbase ⊢
  rw [scripted.eq_def]
  simp only [hbase]
  exact ⟨rfl, rfl⟩

theorem descends_bare (hbase : Descends .simple closer tokens (some base) rest)
    (hsub : (ahead rest).isInfix .sub = false) (hsup : (ahead rest).isInfix .sup = false) :
    Descends .scripted closer tokens (some base) rest := by
  obtain ⟨_, _, hbase⟩ := hbase.exists_eq
  simp only [Descends, descend] at hbase ⊢
  rw [scripted.eq_def]
  simp only [hbase, hsub, hsup, Bool.false_eq_true, if_false]
  exact ⟨rfl, rfl⟩

theorem descends_danglingSub (hbase : Descends .simple closer tokens (some base) (mark :: middle))
    (hsub : mark.isInfix .sub = true) (hlower : Descends .simple closer middle none rest) :
    Descends .scripted closer tokens (some base) rest := by
  obtain ⟨_, _, hbase⟩ := hbase.exists_eq
  obtain ⟨_, _, hlower⟩ := hlower.exists_eq
  simp only [Descends, descend] at hbase hlower ⊢
  rw [scripted.eq_def]
  simp only [hbase, ahead_cons, List.tail_cons, hsub, if_true, hlower]
  exact ⟨rfl, rfl⟩

theorem descends_sub (hbase : Descends .simple closer tokens (some base) (mark :: middle))
    (hsub : mark.isInfix .sub = true) (hlower : Descends .simple closer middle (some lower) rest)
    (hsup : (ahead rest).isInfix .sup = false) :
    Descends .scripted closer tokens (some (base.withScripts (some lower) none)) rest := by
  obtain ⟨_, _, hbase⟩ := hbase.exists_eq
  obtain ⟨_, _, hlower⟩ := hlower.exists_eq
  simp only [Descends, descend] at hbase hlower ⊢
  rw [scripted.eq_def]
  simp only [hbase, ahead_cons, List.tail_cons, hsub, if_true, hlower, hsup, Bool.false_eq_true,
    if_false]
  exact ⟨rfl, rfl⟩

theorem descends_subSup {mark' : Token}
    (hbase : Descends .simple closer tokens (some base) (mark :: middle))
    (hsub : mark.isInfix .sub = true)
    (hlower : Descends .simple closer middle (some lower) (mark' :: last))
    (hsup : mark'.isInfix .sup = true) (hupper : Descends .simple closer last upper rest) :
    Descends .scripted closer tokens (some (base.withScripts (some lower) upper)) rest := by
  obtain ⟨_, _, hbase⟩ := hbase.exists_eq
  obtain ⟨_, _, hlower⟩ := hlower.exists_eq
  obtain ⟨rfl, rfl⟩ := hupper
  simp only [Descends, descend] at hbase hlower ⊢
  rw [scripted.eq_def]
  simp only [hbase, ahead_cons, List.tail_cons, hsub, if_true, hlower, hsup]
  exact ⟨rfl, rfl⟩

theorem descends_sup (hbase : Descends .simple closer tokens (some base) (mark :: middle))
    (hsup : mark.isInfix .sup = true) (hupper : Descends .simple closer middle upper rest) :
    Descends .scripted closer tokens (some (base.withScripts none upper)) rest := by
  have hsub : mark.isInfix .sub = false := Token.isInfix_eq_false_of_ne hsup (by decide)
  obtain ⟨_, _, hbase⟩ := hbase.exists_eq
  obtain ⟨rfl, rfl⟩ := hupper
  simp only [Descends, descend] at hbase ⊢
  rw [scripted.eq_def]
  simp only [hbase, ahead_cons, List.tail_cons, hsub, Bool.false_eq_true, if_false, hsup,
    if_true]
  exact ⟨rfl, rfl⟩

end Scripted

section Expression

variable {closer : Option TokenKind} {tokens middle later rest : List Token} {line : Token}
  {above item : Formula} {more : Option Formula}

theorem descends_nothing (hfirst : Descends .scripted closer tokens none rest) :
    Descends .expression closer tokens none rest := by
  obtain ⟨_, _, hfirst⟩ := hfirst.exists_eq
  simp only [Descends, descend] at hfirst ⊢
  rw [expression.eq_def]
  simp only [hfirst]
  exact ⟨rfl, rfl⟩

theorem descends_divided {below : Option Formula}
    (habove : Descends .scripted closer tokens (some above) (line :: middle))
    (hline : line.isInfix .frac = true) (hbelow : Descends .scripted closer middle below later)
    (hmore : Descends .expression closer later more rest) :
    Descends .expression closer tokens (some ((divided line above below).followedBy more))
      rest := by
  obtain ⟨_, _, habove⟩ := habove.exists_eq
  obtain ⟨rfl, rfl⟩ := hbelow
  obtain ⟨rfl, rfl⟩ := hmore
  simp only [Descends, descend] at habove ⊢
  rw [expression.eq_def]
  simp only [habove, ahead_cons, List.tail_cons, hline, if_true]
  exact ⟨rfl, rfl⟩

theorem descends_last (hitem : Descends .scripted closer tokens (some item) rest)
    (hline : (ahead rest).isInfix .frac = false)
    (hends : rest = [] ∨ some (ahead rest).kind = closer) :
    Descends .expression closer tokens (some item) rest := by
  obtain ⟨_, _, hitem⟩ := hitem.exists_eq
  simp only [Descends, descend] at hitem ⊢
  rw [expression.eq_def]
  simp only [hitem, hline, Bool.false_eq_true, if_false, if_pos hends]
  exact ⟨rfl, rfl⟩

theorem descends_item (hitem : Descends .scripted closer tokens (some item) middle)
    (hline : (ahead middle).isInfix .frac = false)
    (hgoes : ¬ (middle = [] ∨ some (ahead middle).kind = closer))
    (hmore : Descends .expression closer middle more rest) :
    Descends .expression closer tokens (some (item.followedBy more)) rest := by
  obtain ⟨_, _, hitem⟩ := hitem.exists_eq
  obtain ⟨rfl, rfl⟩ := hmore
  simp only [Descends, descend] at hitem ⊢
  rw [expression.eq_def]
  simp only [hitem, hline, Bool.false_eq_true, if_false, if_neg hgoes]
  exact ⟨rfl, rfl⟩

end Expression

end Descent

namespace Reading

open Descent

/-- Where no token ends the input, recursive descent does what the rules say. -/
theorem Reads.descends {level : Level} {closer : Option TokenKind} {tokens rest : List Token}
    {result : Option Formula} (h : Reads level closer tokens result rest)
    (hends : Unending tokens) : Descends level closer tokens result rest := by
  induction h with
  | ended hend =>
    obtain rfl := hends.eq_nil hend
    exact descends_nil
  | leaf hleaf => exact descends_leaf hleaf
  | stray hkind => exact descends_stray hkind
  | closing hkind => exact descends_closing hkind
  | unary hkind _ ih => exact descends_unary hkind (ih (hends.of_suffix (List.suffix_cons _ _)))
  | binary hkind hfirst _ ihfirst ihsecond =>
    have htail := hends.of_suffix (List.suffix_cons _ _)
    exact descends_binary hkind (ihfirst htail) (ihsecond (htail.of_suffix hfirst.suffix))
  | emptyBracket hopens hcloses => exact descends_emptyBracket hopens hcloses
  | bracket hopens hfull _ hcloses ih =>
    have htail := hends.of_suffix (List.suffix_cons _ _)
    rw [htail.glanced_eq] at ih
    exact descends_bracket hopens hfull (ih htail) hcloses
  | unclosed hopens hfull hbody hopen ih =>
    have htail := hends.of_suffix (List.suffix_cons _ _)
    rw [htail.glanced_eq] at ih hbody
    rw [(htail.of_suffix hbody.suffix).glanced_eq]
    exact descends_unclosed hopens hfull (ih htail) hopen
  | absent _ ih => exact descends_absent (ih hends)
  | bare hbase hsub hsup ih =>
    rw [(hends.of_suffix hbase.suffix).glanced_eq]
    exact descends_bare (ih hends) hsub hsup
  | danglingSub hbase hsub _ ihbase ihlower =>
    have hmiddle := hends.of_suffix ((List.suffix_cons _ _).trans hbase.suffix)
    exact descends_danglingSub (ihbase hends) hsub (ihlower hmiddle)
  | sub hbase hsub hlower hsup ihbase ihlower =>
    have hmiddle := hends.of_suffix ((List.suffix_cons _ _).trans hbase.suffix)
    rw [(hmiddle.of_suffix hlower.suffix).glanced_eq]
    exact descends_sub (ihbase hends) hsub (ihlower hmiddle) hsup
  | subSup hbase hsub hlower hsup _ ihbase ihlower ihupper =>
    have hmiddle := hends.of_suffix ((List.suffix_cons _ _).trans hbase.suffix)
    have hlast := hmiddle.of_suffix ((List.suffix_cons _ _).trans hlower.suffix)
    exact descends_subSup (ihbase hends) hsub (ihlower hmiddle) hsup (ihupper hlast)
  | sup hbase hsup _ ihbase ihupper =>
    have hmiddle := hends.of_suffix ((List.suffix_cons _ _).trans hbase.suffix)
    exact descends_sup (ihbase hends) hsup (ihupper hmiddle)
  | nothing _ ih => exact descends_nothing (ih hends)
  | fraction habove hline hbelow _ ihabove ihbelow ihmore =>
    have hmiddle := hends.of_suffix ((List.suffix_cons _ _).trans habove.suffix)
    exact descends_divided (ihabove hends) hline (ihbelow hmiddle)
      (ihmore (hmiddle.of_suffix hbelow.suffix))
  | danglingFrac habove hline hbelow _ ihabove ihbelow ihmore =>
    have hmiddle := hends.of_suffix ((List.suffix_cons _ _).trans habove.suffix)
    exact descends_divided (ihabove hends) hline (ihbelow hmiddle)
      (ihmore (hmiddle.of_suffix hbelow.suffix))
  | last hitem hend ih =>
    obtain rfl := (hends.of_suffix hitem.suffix).eq_nil hend
    exact descends_last (ih hends) rfl (.inl rfl)
  | closed _ hline _ hcloses ih => exact descends_last (ih hends) hline (.inr hcloses)
  | @item closer _ _ middle _ _ hitem hline hend hcloses _ ihitem ihmore =>
    have hgoes : ¬ (middle = [] ∨ some (ahead middle).kind = closer) := by
      rintro (rfl | heq)
      · exact hend rfl
      · exact hcloses heq
    exact descends_item (ihitem hends) hline hgoes (ihmore (hends.of_suffix hitem.suffix))

/-- The rules make one thing only of tokens of which none ends the input. -/
theorem Reads.unique {level : Level} {closer : Option TokenKind} {tokens rest rest' : List Token}
    {result result' : Option Formula} (h : Reads level closer tokens result rest)
    (hother : Reads level closer tokens result' rest') (hends : Unending tokens) :
    result = result' ∧ rest = rest' := by
  obtain ⟨rfl, rfl⟩ := h.descends hends
  obtain ⟨rfl, rfl⟩ := hother.descends hends
  exact ⟨rfl, rfl⟩

end Reading

namespace Lexer

open Descent

variable {μ ν : Type} [Lexicon μ Entry] [Lexicon ν Entry]

theorem unending_scanAll {lexicon : μ} (hends : Lexicon.NeverEnds lexicon) (cs : List Char) :
    Unending (scanAll lexicon cs) :=
  fun _ hmem ↦ (origin_of_mem_scanAll hmem).kind_ne_endOfInput hends

theorem unending_tokens (lexer : Lexer μ) : Unending lexer.tokens := by
  intro token hmem
  rw [tokens_eq_takeWhile] at hmem
  simpa using List.mem_takeWhile_imp hmem

theorem formula_eq_parse_of_unending {lexer : Lexer μ} (hends : Unending lexer.stream) :
    lexer.formula = .ok (parse lexer.tokens) := by
  obtain ⟨result, rest, hformula, hreads⟩ := lexer.exists_read
  have htokens : lexer.tokens = lexer.stream := by
    rw [tokens_eq_takeWhile, List.takeWhile_eq_self_iff]
    exact fun token hmem ↦ decide_eq_true (hends token hmem)
  rw [hformula, htokens, ← (hreads.descends hends).1]
  rfl

/-- A formula is read by recursive descent over the tokens. -/
theorem formula_eq_parse {lexer : Lexer μ} (hends : Lexicon.NeverEnds lexer.lexicon) :
    lexer.formula = .ok (parse lexer.tokens) := by
  have hscanned := unending_scanAll hends lexer.rest
  cases hpending : lexer.pending with
  | none =>
    apply formula_eq_parse_of_unending
    rw [stream, hpending]
    exact hscanned
  | some token =>
    have hstream : lexer.stream = token :: scanAll lexer.lexicon lexer.rest := by
      rw [stream, hpending]
      rfl
    by_cases hend : token.kind = .endOfInput
    · have hreads : Reads .expression none lexer.stream none lexer.stream.tail :=
        .nothing (.absent (.ended (by rw [hstream]; exact hend)))
      have htokens : lexer.tokens = [] := by
        rw [tokens_eq_takeWhile, hstream]
        simp [hend]
      have hnil : Descends .expression none [] none [] :=
        descends_nothing (descends_absent descends_nil)
      rw [formula_of_reads hreads, htokens, parse]
      exact congrArg Except.ok hnil.1.symm
    · apply formula_eq_parse_of_unending
      rw [hstream]
      exact List.forall_mem_cons.mpr ⟨hend, hscanned⟩

/-- The formula that is read depends on the tokens only, whatever the texts they come from, the
blanks between them, the lexicons and a token that was given back. -/
theorem formula_eq_of_tokens_eq {first : Lexer μ} {second : Lexer ν}
    (hfirst : Lexicon.NeverEnds first.lexicon) (hsecond : Lexicon.NeverEnds second.lexicon)
    (htokens : first.tokens = second.tokens) :
    first.formula = second.formula ∧ first.formula = .ok (Descent.parse first.tokens) := by
  rw [formula_eq_parse hfirst, formula_eq_parse hsecond, htokens]
  exact ⟨rfl, rfl⟩

/-- A fraction bar, and the same bar beside a spelling that does not occur. -/
def slash : Entries Entry := [("/", ⟨some .frac, .infixOp, none⟩)]

def slashAndSum : Trie Entry := .ofEntries (slash ++ [("sum", ⟨some .sum, .symbol, none⟩)])

/-- A text in one piece, and a token given back before the rest of that text. -/
theorem formula_eq_of_tokens_eq_givenBack :
    let whole := ofString slash " x / 12 "
    let parted : Lexer (Trie Entry) := ⟨slashAndSum, "/12".toList, some (.plain .identifier "x")⟩
    whole.tokens = parted.tokens ∧ whole.formula = parted.formula ∧
      whole.formula = .ok (parse whole.tokens) := by
  intro whole parted
  have hwhole : Lexicon.NeverEnds whole.lexicon := Entries.gives (by decide)
  have hparted : Lexicon.NeverEnds parted.lexicon := (Trie.means_ofEntries _).gives (by decide)
  have htokens : whole.tokens = parted.tokens := by decide +kernel
  exact ⟨htokens, formula_eq_of_tokens_eq hwhole hparted htokens⟩

end Lexer

end FormulaMarkup
