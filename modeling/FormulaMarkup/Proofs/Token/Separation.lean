import FormulaMarkup.Proofs.Token.Leading

/-!
# Blanks separate tokens

A scanner looks ahead of the token that it returns, but never past a blank: no number, no spelling
in a window and no mark of a quotation goes on behind one (`Token.scan_append`). The exceptions are
a quotation that is still open and a backslash, which takes the blank along. In a text without
these at its end (`Terminated`), the tokens before a blank are those of the text alone, and those
behind it are those of the rest alone (`Lexer.scanAll_append`), whatever the lexicon. If no spelling
ends the input, the same holds of the tokens of an iteration (`Lexer.tokens_append`).

A standard spelling between two blanks is one token (`Symbol.scanAll_spelling`).
-/

namespace FormulaMarkup

namespace Scan

/-- A quotation starts here that nothing closes. -/
def Unclosed (cs : List Char) : Prop :=
  (∃ body, cs = '"' :: body ∧ '"' ∉ body) ∨
    ∃ body, cs = ['t', 'e', 'x', 't', '('] ++ body ∧ ')' ∉ body

section Append

variable {blank : Char} {cs : List Char}

theorem takeWhile_append_of_neg {p : Char → Bool} (h : p blank = false) (cs more : List Char) :
    (cs ++ blank :: more).takeWhile p = cs.takeWhile p := by
  induction cs with
  | nil => simp [h]
  | cons c cs ih => simp [List.takeWhile_cons, ih]

theorem dropWhile_append_of_neg {p : Char → Bool} (h : p blank = false) (cs more : List Char) :
    (cs ++ blank :: more).dropWhile p = cs.dropWhile p ++ blank :: more := by
  induction cs with
  | nil => simp [h]
  | cons c cs ih =>
    simp only [List.cons_append, List.dropWhile_cons, ih]
    split <;> rfl

/-- A text without a blank that starts what reaches past a blank starts what is before it. -/
theorem isPrefix_of_isPrefix_append {front more : List Char} (hblank : Unicode.isBlank blank = true)
    (hfront : front.any Unicode.isBlank = false) (h : front <+: cs ++ blank :: more) :
    front <+: cs := by
  induction front generalizing cs with
  | nil => exact List.nil_prefix
  | cons c front ih =>
    rw [List.any_cons, Bool.or_eq_false_iff] at hfront
    cases cs with
    | nil =>
      obtain ⟨rfl, -⟩ := List.cons_prefix_cons.mp h
      rw [hfront.1] at hblank
      cases hblank
    | cons d cs =>
      obtain ⟨rfl, hrest⟩ := List.cons_prefix_cons.mp h
      exact List.cons_prefix_cons.mpr ⟨rfl, ih hfront.2 hrest⟩

/-! ## Quotations -/

theorem exists_quotation {text rest : List Char} (h : quotation? cs = some (text, rest)) :
    (∃ body, cs = '"' :: body ∧ Quotes '"' body text rest) ∨
      ∃ body, cs = ['t', 'e', 'x', 't', '('] ++ body ∧ Quotes ')' body text rest := by
  simp only [quotation?] at h
  split at h
  · next hfound =>
    cases h
    exact .inl (exists_quotes hfound)
  · exact .inr (exists_quotes h)

theorem Quotes.suffix {closing : Char} {body text rest : List Char}
    (h : Quotes closing body text rest) : rest <:+ body := by
  cases h with
  | closed => exact (List.suffix_cons _ _).trans (List.suffix_append _ _)
  | unclosed => exact List.nil_suffix

theorem Quotes.append {closing : Char} {body text rest : List Char}
    (h : Quotes closing body text rest) (hmem : closing ∈ body) (more : List Char) :
    Quotes closing (body ++ more) text (rest ++ more) := by
  cases h with
  | closed htext =>
    rw [List.append_assoc, List.cons_append]
    exact .closed htext
  | unclosed htext => exact absurd hmem htext

theorem quotation?_append {text rest : List Char} (hclosed : ¬ Unclosed cs)
    (h : quotation? cs = some (text, rest)) (more : List Char) :
    quotation? (cs ++ more) = some (text, rest ++ more) := by
  simp only [Unclosed, not_or, not_exists, not_and, not_not] at hclosed
  rcases exists_quotation h with ⟨body, rfl, hquotes⟩ | ⟨body, rfl, hquotes⟩
  · exact quotation?_quoted (hquotes.append (hclosed.1 body rfl) more)
  · rw [List.append_assoc]
    exact quotation?_command (hquotes.append (hclosed.2 body rfl) more)

theorem not_isPrefix_of_quotation?_eq_none (h : quotation? cs = none) :
    ¬ ['"'] <+: cs ∧ ¬ ['t', 'e', 'x', 't', '('] <+: cs := by
  constructor
  · rintro ⟨body, rfl⟩
    rw [List.singleton_append, quotation?_quoted (quotes_takeWhile '"' body)] at h
    cases h
  · rintro ⟨body, rfl⟩
    rw [quotation?_command (quotes_takeWhile ')' body)] at h
    cases h

theorem quotation?_append_eq_none (hblank : Unicode.isBlank blank = true)
    (h : quotation? cs = none) (more : List Char) : quotation? (cs ++ blank :: more) = none := by
  obtain ⟨hquote, hcommand⟩ := not_isPrefix_of_quotation?_eq_none h
  rw [quotation?, delimited?_eq_none fun hfits ↦
      hquote (isPrefix_of_isPrefix_append hblank (by decide) hfits),
    delimited?_eq_none fun hfits ↦
      hcommand (isPrefix_of_isPrefix_append hblank (by decide) hfits)]

/-! ## Numbers and windows -/

theorem ne_of_isBlank {c : Char} (hblank : Unicode.isBlank blank = true)
    (hc : Unicode.isBlank c = false) : blank ≠ c := by
  rintro rfl
  rw [hc] at hblank
  cases hblank

theorem toNat_of_isDigit {c : Char} (h : c.isDigit = true) : 48 ≤ c.toNat ∧ c.toNat ≤ 57 := by
  simp only [Char.isDigit, Bool.and_eq_true, decide_eq_true_eq, ge_iff_le,
    UInt32.le_iff_toNat_le] at h
  exact h

theorem isDigit_of_isBlank (hblank : Unicode.isBlank blank = true) : blank.isDigit = false := by
  have hranges : ∀ range ∈ Unicode.blankRanges, range.2 < 48 ∨ 57 < range.1 := by decide
  obtain ⟨range, hmem, hlow, hhigh⟩ := Unicode.exists_mem_of_covers hblank
  have happart := hranges range hmem
  by_contra hdigit
  have hbounds := toNat_of_isDigit (Bool.not_eq_false _ ▸ hdigit)
  omega

theorem number_append_blank (hblank : Unicode.isBlank blank = true) (cs more : List Char) :
    number (cs ++ blank :: more) = ((number cs).1, (number cs).2 ++ blank :: more) := by
  have hdigit := isDigit_of_isBlank hblank
  have hpoint : blank ≠ '.' := ne_of_isBlank hblank (by decide)
  simp only [number, takeWhile_append_of_neg hdigit, dropWhile_append_of_neg hdigit]
  cases hrest : cs.dropWhile Char.isDigit with
  | nil => simp [hpoint]
  | cons c tail =>
    by_cases hc : c = '.'
    · subst hc
      simp only [List.cons_append, takeWhile_append_of_neg hdigit, dropWhile_append_of_neg hdigit]
      split <;> rfl
    · simp [hc]

theorem window_of_ends {c : Char} (hc : endsSpelling c = true) (cs : List Char) (room : Nat) :
    window (c :: cs) (room + 1) = [] := by
  rw [window]
  · exact if_pos hc
  · rintro next cs rfl
    rw [endsSpelling_backslash] at hc
    cases hc

theorem getLast?_of_suffix {cs rest : List Char} {c : Char} (h : rest <:+ cs)
    (hlast : cs.getLast? ≠ some c) : rest.getLast? ≠ some c := by
  obtain ⟨front, rfl⟩ := h
  intro hrest
  rw [List.getLast?_append, hrest] at hlast
  exact hlast rfl

theorem window_append (room : Nat) (hblank : Unicode.isBlank blank = true) (more : List Char)
    (hlast : cs.getLast? ≠ some '\\') : window (cs ++ blank :: more) room = window cs room := by
  have hends : endsSpelling blank = true := by rw [endsSpelling, hblank, Bool.true_or]
  fun_induction window cs room with
  | case1 cs => simp [window]
  | case2 room hroom =>
    obtain ⟨room, rfl⟩ := Nat.exists_eq_succ_of_ne_zero hroom
    exact window_of_ends hends more room
  | case3 next cs room hnext ih =>
    rw [List.cons_append, List.cons_append, window, if_pos hnext,
      ih (getLast?_of_suffix ((List.suffix_cons _ _).trans (List.suffix_cons _ _)) hlast)]
  | case4 next cs room hnext ih =>
    rw [List.cons_append, List.cons_append, window, if_neg hnext, ← List.cons_append,
      ih (getLast?_of_suffix (List.suffix_cons _ _) hlast)]
  | case5 c cs room _ hc => exact window_of_ends hc _ room
  | case6 c cs room hlone hc ih =>
    rw [List.cons_append, window, if_neg hc, ih (getLast?_of_suffix (List.suffix_cons _ _) hlast)]
    -- a backslash before the blank would be the last character
    rintro next later rfl happend
    cases cs with
    | nil => exact hlast rfl
    | cons d cs => exact hlone d cs rfl rfl

end Append

end Scan

/-! ## Tokens -/

variable {μ : Type} [Lexicon μ Entry] (lexicon : μ)

namespace Token

open Scan

variable {blank : Char} {cs : List Char}

/-- A token does not depend on what stands behind a blank. -/
theorem scan_append (hblank : Unicode.isBlank blank = true) (hne : cs ≠ [])
    (hclosed : ¬ Unclosed cs) (hlast : cs.getLast? ≠ some '\\') (more : List Char) :
    scan lexicon (cs ++ blank :: more) =
      ((scan lexicon cs).1, (scan lexicon cs).2 ++ blank :: more) := by
  obtain ⟨c, rest, rfl⟩ := List.exists_cons_of_ne_nil hne
  cases hquotation : quotation? (c :: rest) with
  | some found =>
    obtain ⟨text, later⟩ := found
    rw [scan_of_quotation (quotation?_append hclosed hquotation _), scan_of_quotation hquotation]
  | none =>
    have hnone := quotation?_append_eq_none hblank hquotation more
    by_cases hdigit : c.isDigit = true
    · have happend := number_append_blank hblank (c :: rest) more
      rw [List.cons_append] at hnone happend ⊢
      rw [scan_of_digit hnone hdigit, scan_of_digit hquotation hdigit, happend]
    · have hwindow := window_append Symbol.maxSpelling hblank more hlast
      rw [List.cons_append] at hnone hwindow ⊢
      simp only [scan, hnone, hquotation, hdigit, Bool.false_eq_true, if_false, hwindow]
      cases Lexicon.longest? lexicon (window (c :: rest) Symbol.maxSpelling) with
      | none => rfl
      | some hit =>
        have hfront :=
          (Utf8.splitAt_isPrefix hit.size (window (c :: rest) Symbol.maxSpelling)).trans
            (window_isPrefix (c :: rest) Symbol.maxSpelling)
        cases hspelling : (Utf8.splitAt hit.size (window (c :: rest) Symbol.maxSpelling)).1 with
        | nil => simp only [hspelling]
        | cons d spelling =>
          rw [hspelling] at hfront
          simp only [hspelling, ← List.cons_append, List.drop_append_of_le_length hfront.length_le]

/-- What follows a token is the end of the text. -/
theorem scan_suffix (cs : List Char) : (scan lexicon cs).2 <:+ cs := by
  cases cs with
  | nil => exact List.suffix_rfl
  | cons c rest =>
    simp only [scan]
    split
    · next hfound =>
      rcases exists_quotation hfound with ⟨body, hbody, hquotes⟩ | ⟨body, hbody, hquotes⟩
      · rw [hbody]
        exact hquotes.suffix.trans (List.suffix_cons _ _)
      · rw [hbody]
        exact hquotes.suffix.trans (List.suffix_append _ _)
    · split
      · exact ⟨_, number_append (c :: rest)⟩
      · split
        · split
          · exact List.suffix_cons c rest
          · exact List.drop_suffix _ _
        · exact List.suffix_cons c rest

end Token

namespace Lexer

/-- No quotation in the text is left open: none starts unclosed at a token of the text. -/
inductive Terminated : List Char → Prop
  | blank {cs} (hblank : cs.dropWhile Unicode.isBlank = []) : Terminated cs
  | token {cs} (hne : cs.dropWhile Unicode.isBlank ≠ [])
      (hclosed : ¬ Scan.Unclosed (cs.dropWhile Unicode.isBlank))
      (hrest : Terminated (Token.scan lexicon (cs.dropWhile Unicode.isBlank)).2) : Terminated cs

variable {lexicon}

theorem scanAll_congr {cs ds : List Char}
    (h : cs.dropWhile Unicode.isBlank = ds.dropWhile Unicode.isBlank) :
    scanAll lexicon cs = scanAll lexicon ds := by
  by_cases hnil : cs.dropWhile Unicode.isBlank = []
  · rw [scanAll_of_blank lexicon hnil, scanAll_of_blank lexicon (h ▸ hnil)]
  · have hother : ds.dropWhile Unicode.isBlank ≠ [] := h ▸ hnil
    rw [scanAll_of_ne_nil lexicon hnil, scanAll_of_ne_nil lexicon hother, h]

/-- The tokens around a blank are those of the text before it and those of the text behind it. -/
theorem scanAll_append {cs : List Char} (h : Terminated lexicon cs)
    (hlast : cs.getLast? ≠ some '\\') {blank : Char} (hblank : Unicode.isBlank blank = true)
    (more : List Char) :
    scanAll lexicon (cs ++ blank :: more) = scanAll lexicon cs ++ scanAll lexicon more := by
  induction h with
  | @blank cs hnil =>
    rw [scanAll_of_blank lexicon hnil, List.nil_append]
    apply scanAll_congr
    rw [List.dropWhile_append_of_pos (List.dropWhile_eq_nil_iff.mp hnil),
      List.dropWhile_cons_of_pos hblank]
  | @token cs hne hclosed hrest ih =>
    have happend : (cs ++ blank :: more).dropWhile Unicode.isBlank =
        cs.dropWhile Unicode.isBlank ++ blank :: more := by
      rw [List.dropWhile_append, if_neg (by simpa using hne)]
    have hlater : (cs.dropWhile Unicode.isBlank).getLast? ≠ some '\\' :=
      Scan.getLast?_of_suffix (List.dropWhile_suffix _) hlast
    have hscan := Token.scan_append lexicon hblank hne hclosed hlater more
    rw [scanAll_of_ne_nil lexicon hne, scanAll_of_ne_nil lexicon (by rw [happend]; simp), happend,
      hscan, ih (Scan.getLast?_of_suffix (Token.scan_suffix lexicon _) hlater), List.cons_append]

/-- Further blanks change nothing. -/
theorem scanAll_append_blanks {cs blanks : List Char} (h : Terminated lexicon cs)
    (hlast : cs.getLast? ≠ some '\\') (hne : blanks ≠ [])
    (hblanks : ∀ c ∈ blanks, Unicode.isBlank c = true) (more : List Char) :
    scanAll lexicon (cs ++ blanks ++ more) = scanAll lexicon cs ++ scanAll lexicon more := by
  obtain ⟨blank, blanks, rfl⟩ := List.exists_cons_of_ne_nil hne
  obtain ⟨hblank, hblanks⟩ := List.forall_mem_cons.mp hblanks
  rw [List.append_assoc, List.cons_append, scanAll_append h hlast hblank]
  apply congrArg (scanAll lexicon cs ++ ·)
  exact scanAll_congr (List.dropWhile_append_of_pos hblanks)

/-- Blanks between two texts separate their tokens and mean nothing else, unless the first text
leaves a quotation open or its last character is a backslash. -/
theorem tokens_append (hends : Lexicon.NeverEnds lexicon) {before blanks : String}
    (hbefore : Terminated lexicon before.toList) (hlast : before.toList.getLast? ≠ some '\\')
    (hne : blanks ≠ "") (hblanks : ∀ c ∈ blanks.toList, Unicode.isBlank c = true)
    (after : String) :
    (ofString lexicon (before ++ blanks ++ after)).tokens =
      (ofString lexicon before).tokens ++ (ofString lexicon after).tokens := by
  have hchars : (before ++ blanks ++ after).toList =
      before.toList ++ blanks.toList ++ after.toList := by
    rw [String.toList_append, String.toList_append]
  have hscan := scanAll_append_blanks hbefore hlast (by simpa using hne) hblanks after.toList
  rw [← hchars] at hscan
  rw [tokens_eq_stream hends, tokens_eq_stream hends, tokens_eq_stream hends]
  exact hscan

/-- A spelling with a blank in it, and one that begins with a point. -/
def gaps : Entries Entry :=
  [("\\ ", { symbol := none, kind := .symbol }), (".5", { symbol := none, kind := .unary })]

/-- A quotation that ends in a backslash, and a number whose point is behind the blanks. -/
theorem tokens_append_gaps :
    Lexicon.NeverEnds gaps ∧ Terminated gaps "\"\\\"1".toList ∧
      (ofString gaps ("\"\\\"1" ++ " \t" ++ ".5")).tokens =
        (ofString gaps "\"\\\"1").tokens ++ (ofString gaps ".5").tokens := by
  have hends : Lexicon.NeverEnds gaps := Entries.gives (by decide)
  have hquotation : "\"\\\"1".toList.dropWhile Unicode.isBlank = ['"', '\\', '"', '1'] := by
    decide +kernel
  have hnumber : (Token.scan gaps ['"', '\\', '"', '1']).2.dropWhile Unicode.isBlank = ['1'] := by
    decide +kernel
  have hend : (Token.scan gaps ['1']).2.dropWhile Unicode.isBlank = [] := by decide +kernel
  have hbefore : Terminated gaps "\"\\\"1".toList := by
    apply Terminated.token
    all_goals rw [hquotation]
    · simp
    · simp [Scan.Unclosed]
    apply Terminated.token
    all_goals rw [hnumber]
    · simp
    · simp [Scan.Unclosed]
    exact .blank hend
  have hblanks : " \t".toList.all Unicode.isBlank = true := by decide +kernel
  exact ⟨hends, hbefore, tokens_append hends hbefore (by decide) (by decide)
    (List.all_eq_true.mp hblanks) ".5"⟩

end Lexer

/-! ## Standard spellings -/

namespace Symbol

open Scan

theorem isDigit_of_endsSpelling {c : Char} (h : endsSpelling c = false) : c.isDigit = false := by
  by_contra hdigit
  have hbounds := toNat_of_isDigit (Bool.not_eq_false _ ▸ hdigit)
  have hnumeral : Unicode.isNumeral c = true := by
    rw [Unicode.isNumeral, Unicode.numeralRanges, Unicode.covers, if_neg (by omega),
      decide_eq_true hbounds.2, Bool.true_or]
  simp [endsSpelling, hnumeral] at h

/-- No standard spelling begins like a quotation, and only the escaped blank has a blank in it. -/
theorem quotation?_table : ∀ entry ∈ table, quotation? entry.1.toList = none ∧
    (entry.1 = "\\ " ∨ entry.1.toList.any Unicode.isBlank = false) := by
  decide +kernel

theorem ne_backslash_table : ∀ entry ∈ table, entry.1 ≠ "\\" := by
  decide +kernel

section Spelling

variable {key : String} {entry : Entry} {blank : Char}

theorem maySpell_append (h : (key, entry) ∈ table) (hblank : Unicode.isBlank blank = true)
    (more : List Char) : MaySpell (key.toList ++ blank :: more) := by
  have hquotation := not_isPrefix_of_quotation?_eq_none (quotation?_table _ h).1
  refine ⟨fun hfits ↦ hquotation.1 (isPrefix_of_isPrefix_append hblank (by decide) hfits),
    fun hfits ↦ hquotation.2 (isPrefix_of_isPrefix_append hblank (by decide) hfits), ?_⟩
  intro c hmem
  obtain ⟨d, rest, hkey⟩ := List.exists_cons_of_ne_nil (toList_ne_nil_of_mem_table h)
  have hhead := (isSpelling_table _ h).1.head
  simp only [hkey] at hhead hmem
  exact isDigit_of_endsSpelling (hhead c hmem)

/-- A spelling before a blank is not the front of a longer one. -/
theorem length_le_of_isPrefix_append (h : (key, entry) ∈ table)
    (hblank : Unicode.isBlank blank = true) {more : List Char} {other : String × Entry}
    (hother : other ∈ table)
    (hfits : other.1.toList <+: key.toList ++ blank :: more) : other.1.length ≤ key.length := by
  by_contra hlonger
  have hlength : (key.toList ++ [blank]).length ≤ other.1.toList.length := by
    rw [List.length_append, String.length_toList, String.length_toList]
    exact Nat.lt_of_not_le hlonger
  have hfront : key.toList ++ [blank] <+: other.1.toList :=
    List.prefix_of_prefix_length_le (by simp) hfits hlength
  rcases (quotation?_table _ hother).2 with hescaped | hnone
  · rw [hescaped] at hfront hlength
    obtain ⟨c, rest, hkey⟩ := List.exists_cons_of_ne_nil (toList_ne_nil_of_mem_table h)
    rw [hkey] at hfront hlength
    have hnil : rest = [] := by
      have htwo : "\\ ".toList.length = 2 := by decide
      rw [← List.length_eq_zero_iff]
      simp only [List.length_append, List.length_cons, List.length_nil, htwo] at hlength
      omega
    have hbackslash : c = '\\' := (List.cons_prefix_cons.mp hfront).1
    rw [hnil, hbackslash] at hkey
    exact ne_backslash_table _ h (String.toList_inj.mp hkey)
  · have hmem : blank ∈ other.1.toList := hfront.subset (by simp)
    rw [List.any_eq_false] at hnone
    exact hnone blank hmem hblank

theorem dropWhile_spelling_append (h : (key, entry) ∈ table) (more : List Char) :
    (key.toList ++ more).dropWhile Unicode.isBlank = key.toList ++ more := by
  obtain ⟨c, rest, hkey⟩ := List.exists_cons_of_ne_nil (toList_ne_nil_of_mem_table h)
  have hhead := (isSpelling_table _ h).1.head c (by simp [hkey])
  rw [endsSpelling, Bool.or_eq_false_iff] at hhead
  rw [hkey, List.cons_append, List.dropWhile_cons_of_neg (by simp [hhead.1])]

/-- A spelling before a blank is a token of its own. -/
theorem scanAll_spelling {μ : Type} [Lexicon μ Entry] {lexicon : μ}
    (hmeans : Lexicon.Means lexicon table) (h : IsLast table key entry)
    (hblank : Unicode.isBlank blank = true) (more : List Char) :
    Lexer.scanAll lexicon (key.toList ++ blank :: more) =
      .ofEntry key entry :: Lexer.scanAll lexicon more := by
  have hscan : Token.scan lexicon (key.toList ++ blank :: more) =
      (.ofEntry key entry, blank :: more) :=
    Token.First.scan_eq hmeans (.spelling (maySpell_append h.mem hblank more) h
      fun _ ↦ length_le_of_isPrefix_append h.mem hblank)
  have hdrop := dropWhile_spelling_append h.mem (blank :: more)
  rw [Lexer.scanAll_of_ne_nil lexicon (by rw [hdrop]; simp), hdrop, hscan]
  apply congrArg (Token.ofEntry key entry :: ·)
  exact Lexer.scanAll_congr (List.dropWhile_cons_of_pos hblank)

end Spelling

end Symbol

end FormulaMarkup
