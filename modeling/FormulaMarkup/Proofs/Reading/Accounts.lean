import FormulaMarkup.Proofs.Reading.Rules

/-!
# What a formula shows of its tokens

A formula may be shown by a list, and so may a token. If each way to make a formula shows what it
was made from, in the order of the tokens (`Accounts`), then a formula that is read shows the tokens
that it used up, and nothing else (`Reads.accounts`).

What is shown may depend on what the formulas are that were read before, as far as this is kept by
reading (`Closed`). The marks of scripts and fractions are not part of a formula, so they show
nothing.
-/

namespace FormulaMarkup.Reading

variable {α : Type}

/-- What is seen of a formula that may be missing. -/
def seenIn (seen : Formula → List α) : Option Formula → List α
  | none => []
  | some formula => seen formula

/-- Whatever a formula is made from, that is seen of it, in the order of the tokens. -/
structure Accounts (fits : Token → Prop) (single run : Formula → Prop) (view : Token → List α)
    (seen : Formula → List α) : Prop where
  closed : Closed fits single run
  unending : ∀ {token : Token}, fits token → token.kind ≠ .endOfInput
  infixMark : ∀ {token : Token} {symbol : Symbol}, fits token → token.isInfix symbol = true →
    symbol = .sub ∨ symbol = .sup ∨ symbol = .frac → view token = []
  leaf : ∀ {token : Token} {formula : Formula}, fits token → token.leaf? = some formula →
    seen formula = view token
  stray : ∀ {token : Token}, fits token → token.kind = .closing →
    seen (.symbol token.mark) = view token
  unary : ∀ {operator : Token} {only : Option Formula}, fits operator → operator.kind = .unary →
    (∀ formula ∈ only, single formula) →
    seen (unaryOf operator only) = view operator ++ seenIn seen only
  binary : ∀ {operator : Token} {first second : Option Formula}, fits operator →
    operator.kind = .binary → (∀ formula ∈ first, single formula) →
    (∀ formula ∈ second, single formula) →
    seen (binaryOf operator first second) =
      view operator ++ seenIn seen first ++ seenIn seen second
  enclose : ∀ {left right : Token} {body : Option Formula}, fits left → left.Opens →
    right.kind = Reader.closerOf left → (∀ formula ∈ body, run formula) →
    seen (Matrix.enclose left.mark body right.mark) = view left ++ seenIn seen body ++ view right
  unclosed : ∀ {left : Token} {body : Option Formula}, fits left → left.Opens →
    (∀ formula ∈ body, run formula) →
    seen (Reader.unclosed left body) = view left ++ seenIn seen body
  withScripts : ∀ {base : Formula} {lower upper : Option Formula}, single base →
    (∀ formula ∈ lower, single formula) → (∀ formula ∈ upper, single formula) →
    seen (base.withScripts lower upper) = seen base ++ seenIn seen lower ++ seenIn seen upper
  fraction : ∀ {line : Token} {above below : Formula}, fits line → line.isInfix .frac = true →
    single above → single below → seen (fractionOf line above below) = seen above ++ seen below
  followedBy : ∀ (first : Formula) (more : Option Formula),
    seen (first.followedBy more) = seen first ++ seenIn seen more

variable {fits : Token → Prop} {single run : Formula → Prop} {view : Token → List α}
  {seen : Formula → List α}

theorem Accounts.flatMap_infixMark (h : Accounts fits single run view seen) {token : Token}
    {symbol : Symbol} (hfits : fits token) (hmark : token.isInfix symbol = true)
    (hsymbol : symbol = .sub ∨ symbol = .sup ∨ symbol = .frac) (rest : List Token) :
    (token :: rest).flatMap view = rest.flatMap view := by
  rw [List.flatMap_cons, h.infixMark hfits hmark hsymbol, List.nil_append]

/-- What reading uses up is seen of the formula, in its order. -/
theorem Reads.accounts (h : Accounts fits single run view seen) {level closer tokens result rest}
    (hreads : Reads level closer tokens result rest) (hfits : ∀ token ∈ tokens, fits token) :
    tokens.flatMap view = seenIn seen result ++ rest.flatMap view := by
  have hunending : ∀ {tokens : List Token}, (∀ token ∈ tokens, fits token) →
      ∀ token ∈ tokens, token.kind ≠ .endOfInput :=
    fun hfits token hmem ↦ h.unending (hfits token hmem)
  have hglanced : ∀ {tokens : List Token}, (∀ token ∈ tokens, fits token) →
      glanced tokens = tokens := fun hfits ↦ glanced_eq_of_unending (hunending hfits)
  have hall : ∀ {level closer tokens result rest}, Reads level closer tokens result rest →
      (∀ token ∈ tokens, fits token) → ∀ formula ∈ result, level.choose single run formula :=
    fun hreads hfits ↦ hreads.forall_of_closedAt h.closed hfits
  have hnone : ∀ holds : Formula → Prop, ∀ formula ∈ (none : Option Formula), holds formula := by
    simp
  -- a token that was looked at is only given back if it is not the end of the input, so each
  -- reader that comes later needs to know that its tokens fit too
  induction hreads with
  | ended hend =>
    rw [eq_nil_of_ended (hunending hfits) hend]
    rfl
  | leaf hleaf => rw [List.flatMap_cons, seenIn, h.leaf (hfits _ List.mem_cons_self) hleaf]
  | stray hkind => rw [List.flatMap_cons, seenIn, h.stray (hfits _ List.mem_cons_self) hkind]
  | closing => rfl
  | unary hkind honly ih =>
    obtain ⟨hoperator, htail⟩ := List.forall_mem_cons.mp hfits
    rw [List.flatMap_cons, ih htail, seenIn, h.unary hoperator hkind (hall honly htail),
      List.append_assoc]
  | binary hkind hfirst hsecond ihfirst ihsecond =>
    obtain ⟨hoperator, htail⟩ := List.forall_mem_cons.mp hfits
    have hmiddle := forall_of_suffix htail hfirst.suffix
    rw [List.flatMap_cons, ihfirst htail, ihsecond hmiddle, seenIn,
      h.binary hoperator hkind (hall hfirst htail) (hall hsecond hmiddle), List.append_assoc,
      List.append_assoc]
  | emptyBracket hopens hcloses =>
    have hseen := h.enclose (hfits _ List.mem_cons_self) hopens hcloses (hnone run)
    rw [List.flatMap_cons, List.flatMap_cons, ← List.append_assoc, seenIn]
    rw [seenIn, List.append_nil] at hseen
    exact congrArg (· ++ _) hseen.symm
  | @bracket _ left tokens body right rest hopens _ hbody hcloses ih =>
    obtain ⟨hleft, htail⟩ := List.forall_mem_cons.mp hfits
    rw [hglanced htail] at hbody ih
    calc (left :: tokens).flatMap view
      _ = view left ++ (seenIn seen body ++ (right :: rest).flatMap view) := by
        rw [List.flatMap_cons, ih htail]
      _ = view left ++ seenIn seen body ++ view right ++ rest.flatMap view := by
        rw [List.flatMap_cons, List.append_assoc, List.append_assoc]
      _ = seen (Matrix.enclose left.mark body right.mark) ++ rest.flatMap view := by
        rw [h.enclose hleft hopens hcloses (hall hbody htail)]
  | unclosed hopens _ hbody _ ih =>
    obtain ⟨hleft, htail⟩ := List.forall_mem_cons.mp hfits
    rw [hglanced htail] at hbody ih
    rw [List.flatMap_cons, ih htail, hglanced (forall_of_suffix htail hbody.suffix), seenIn,
      h.unclosed hleft hopens (hall hbody htail), List.append_assoc]
  | absent _ ih => exact ih hfits
  | bare hbase _ _ ih => rw [ih hfits, hglanced (forall_of_suffix hfits hbase.suffix)]
  | danglingSub hbase hsub _ ihbase ihlower =>
    obtain ⟨hmark, hmiddle⟩ := List.forall_mem_cons.mp (forall_of_suffix hfits hbase.suffix)
    rw [ihbase hfits, h.flatMap_infixMark hmark hsub (.inl rfl), ihlower hmiddle]
    rfl
  | @sub _ tokens base sub middle lower rest hbase hsub hlower _ ihbase ihlower =>
    obtain ⟨hmark, hmiddle⟩ := List.forall_mem_cons.mp (forall_of_suffix hfits hbase.suffix)
    have hscripts := h.withScripts (hall hbase hfits _ rfl) (hall hlower hmiddle)
      (hnone single)
    calc tokens.flatMap view
      _ = seen base ++ (sub :: middle).flatMap view := ihbase hfits
      _ = seen base ++ (seen lower ++ rest.flatMap view) := by
        rw [h.flatMap_infixMark hmark hsub (.inl rfl), ihlower hmiddle, seenIn]
      _ = seen (base.withScripts (some lower) none) ++ (glanced rest).flatMap view := by
        rw [hglanced (forall_of_suffix hmiddle hlower.suffix), hscripts]
        simp [seenIn]
  | @subSup _ tokens base sub middle lower sup last upper rest hbase hsub hlower hsup hupper ihbase
      ihlower ihupper =>
    obtain ⟨hmark, hmiddle⟩ := List.forall_mem_cons.mp (forall_of_suffix hfits hbase.suffix)
    obtain ⟨hmark', hlast⟩ := List.forall_mem_cons.mp (forall_of_suffix hmiddle hlower.suffix)
    calc tokens.flatMap view
      _ = seen base ++ (sub :: middle).flatMap view := ihbase hfits
      _ = seen base ++ (seen lower ++ (sup :: last).flatMap view) := by
        rw [h.flatMap_infixMark hmark hsub (.inl rfl), ihlower hmiddle, seenIn]
      _ = seen base ++ (seen lower ++ (seenIn seen upper ++ rest.flatMap view)) := by
        rw [h.flatMap_infixMark hmark' hsup (.inr (.inl rfl)), ihupper hlast]
      _ = seen (base.withScripts (some lower) upper) ++ rest.flatMap view := by
        rw [h.withScripts (hall hbase hfits _ rfl) (hall hlower hmiddle) (hall hupper hlast)]
        simp [seenIn]
  | @sup _ tokens base sup middle upper rest hbase hsup hupper ihbase ihupper =>
    obtain ⟨hmark, hmiddle⟩ := List.forall_mem_cons.mp (forall_of_suffix hfits hbase.suffix)
    have hscripts := h.withScripts (hall hbase hfits _ rfl) (hnone single)
      (hall hupper hmiddle)
    calc tokens.flatMap view
      _ = seen base ++ (sup :: middle).flatMap view := ihbase hfits
      _ = seen base ++ (seenIn seen upper ++ rest.flatMap view) := by
        rw [h.flatMap_infixMark hmark hsup (.inr (.inl rfl)), ihupper hmiddle]
      _ = seen (base.withScripts none upper) ++ rest.flatMap view := by
        rw [hscripts]
        simp [seenIn]
  | nothing _ ih => exact ih hfits
  | @fraction _ tokens above line middle below later more rest habove hline hbelow _ ihabove
      ihbelow ihmore =>
    obtain ⟨hmark, hmiddle⟩ := List.forall_mem_cons.mp (forall_of_suffix hfits habove.suffix)
    have hlater := forall_of_suffix hmiddle hbelow.suffix
    calc tokens.flatMap view
      _ = seen above ++ (line :: middle).flatMap view := ihabove hfits
      _ = seen above ++ (seen below ++ later.flatMap view) := by
        rw [h.flatMap_infixMark hmark hline (.inr (.inr rfl)), ihbelow hmiddle, seenIn]
      _ = seen (fractionOf line above below) ++ (seenIn seen more ++ rest.flatMap view) := by
        rw [h.fraction hmark hline (hall habove hfits _ rfl) (hall hbelow hmiddle _ rfl),
          ihmore hlater, List.append_assoc]
      _ = seen ((fractionOf line above below).followedBy more) ++ rest.flatMap view := by
        rw [h.followedBy, List.append_assoc]
  | @danglingFrac _ tokens above line middle later more rest habove hline hbelow _ ihabove ihbelow
      ihmore =>
    obtain ⟨hmark, hmiddle⟩ := List.forall_mem_cons.mp (forall_of_suffix hfits habove.suffix)
    have hlater := forall_of_suffix hmiddle hbelow.suffix
    calc tokens.flatMap view
      _ = seen above ++ (line :: middle).flatMap view := ihabove hfits
      _ = seen above ++ later.flatMap view := by
        rw [h.flatMap_infixMark hmark hline (.inr (.inr rfl)), ihbelow hmiddle]
        rfl
      _ = seen (above.followedBy more) ++ rest.flatMap view := by
        rw [ihmore hlater, h.followedBy, List.append_assoc]
  | last hitem hend ih =>
    have hrest := forall_of_suffix hfits hitem.suffix
    rw [ih hfits, eq_nil_of_ended (hunending hrest) hend]
    rfl
  | closed _ _ _ _ ih => exact ih hfits
  | item hitem _ _ _ _ ihitem ihmore =>
    rw [ihitem hfits, ihmore (forall_of_suffix hfits hitem.suffix), seenIn, seenIn, h.followedBy,
      List.append_assoc]

end FormulaMarkup.Reading
