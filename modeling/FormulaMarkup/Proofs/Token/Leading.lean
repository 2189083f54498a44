import FormulaMarkup.Proofs.Reading.Stream
import FormulaMarkup.Proofs.Token.Window

/-!
# The first token of a text

`Token.First` says which token of the standard spellings a text starts with and where it ends: a
quotation, the longest number, the entry of the longest spelling at the front of the whole text, or
one character. It knows no window and no data structure. Each text starts with such a token
(`Token.exists_first`), and scanning finds this one and no other (`Token.scan_eq_iff`), so it is
what a lexer answers behind the blanks (`Lexer.next_eq_iff_first`).
-/

namespace FormulaMarkup

namespace Scan

/-! ## Numbers -/

def IsDigits (cs : List Char) : Prop := cs ≠ [] ∧ ∀ c ∈ cs, c.isDigit = true

/-- A decimal number, with digits on both sides of the point if it has one. -/
inductive IsNumber : List Char → Prop
  | whole {digits : List Char} (hdigits : IsDigits digits) : IsNumber digits
  | fraction {digits decimals : List Char} (hdigits : IsDigits digits)
      (hdecimals : IsDigits decimals) : IsNumber (digits ++ '.' :: decimals)

/-- The longest number that the text starts with. -/
structure IsLongestNumber (cs number : List Char) : Prop where
  isNumber : IsNumber number
  isPrefix : number <+: cs
  longest : ∀ other, IsNumber other → other <+: cs → other.length ≤ number.length

theorem isDigits_takeWhile {cs : List Char} (h : cs.takeWhile Char.isDigit ≠ []) :
    IsDigits (cs.takeWhile Char.isDigit) :=
  ⟨h, fun _ ↦ List.mem_takeWhile_imp⟩

theorem isNumber_number {c : Char} {cs : List Char} (h : c.isDigit = true) :
    IsNumber (number (c :: cs)).1 := by
  have hwhole : IsDigits ((c :: cs).takeWhile Char.isDigit) :=
    isDigits_takeWhile (by simp [h])
  simp only [number]
  split
  · split
    · exact .whole hwhole
    · next hne => exact .fraction hwhole (isDigits_takeWhile hne)
  · exact .whole hwhole

theorem number_fraction {digits decimals : List Char} (hdigits : IsDigits digits)
    (hdecimals : IsDigits decimals) (more : List Char) :
    number (digits ++ '.' :: (decimals ++ more)) =
      (digits ++ '.' :: (decimals ++ more.takeWhile Char.isDigit),
        more.dropWhile Char.isDigit) := by
  have hpoint : Char.isDigit '.' = false := by decide
  have hwhole : (digits ++ '.' :: (decimals ++ more)).takeWhile Char.isDigit = digits := by
    rw [List.takeWhile_append_of_pos hdigits.2, List.takeWhile_cons_of_neg (by simp [hpoint]),
      List.append_nil]
  have hrest : (digits ++ '.' :: (decimals ++ more)).dropWhile Char.isDigit =
      '.' :: (decimals ++ more) := by
    rw [List.dropWhile_append_of_pos hdigits.2, List.dropWhile_cons_of_neg (by simp [hpoint])]
  have htake : (decimals ++ more).takeWhile Char.isDigit =
      decimals ++ more.takeWhile Char.isDigit :=
    List.takeWhile_append_of_pos hdecimals.2
  have hdrop : (decimals ++ more).dropWhile Char.isDigit = more.dropWhile Char.isDigit :=
    List.dropWhile_append_of_pos hdecimals.2
  simp only [number, hwhole, hrest, htake, hdrop]
  split
  · next hnil => exact absurd (List.append_eq_nil_iff.mp hnil).1 hdecimals.1
  · rfl

theorem IsNumber.isPrefix_number {found cs : List Char} (h : IsNumber found)
    (hfits : found <+: cs) : found <+: (number cs).1 := by
  obtain ⟨more, rfl⟩ := hfits
  cases h with
  | whole hdigits =>
    have hfront : found <+: (found ++ more).takeWhile Char.isDigit := by
      rw [List.takeWhile_append_of_pos hdigits.2]
      exact List.prefix_append _ _
    simp only [number]
    split
    · split
      · exact hfront
      · exact hfront.trans (List.prefix_append _ _)
    · exact hfront
  | @fraction digits decimals hdigits hdecimals =>
    rw [List.append_assoc, List.cons_append, number_fraction hdigits hdecimals]
    exact List.prefix_append_right_inj _ |>.mpr
      (List.cons_prefix_cons.mpr ⟨rfl, List.prefix_append _ _⟩)

theorem IsNumber.exists_eq_cons {number : List Char} (h : IsNumber number) :
    ∃ c cs, number = c :: cs ∧ c.isDigit = true := by
  cases h with
  | whole hdigits =>
    obtain ⟨c, cs, rfl⟩ := List.exists_cons_of_ne_nil hdigits.1
    exact ⟨c, cs, rfl, hdigits.2 c List.mem_cons_self⟩
  | fraction hdigits _ =>
    obtain ⟨c, cs, rfl⟩ := List.exists_cons_of_ne_nil hdigits.1
    exact ⟨c, _, rfl, hdigits.2 c List.mem_cons_self⟩

theorem isLongestNumber_number {c : Char} (cs : List Char) (h : c.isDigit = true) :
    IsLongestNumber (c :: cs) (number (c :: cs)).1 where
  isNumber := isNumber_number h
  isPrefix := ⟨_, number_append (c :: cs)⟩
  longest _ hother hfits := (hother.isPrefix_number hfits).length_le

theorem IsLongestNumber.number_eq {digits rest : List Char}
    (h : IsLongestNumber (digits ++ rest) digits) : number (digits ++ rest) = (digits, rest) := by
  obtain ⟨c, cs, rfl, hc⟩ := h.isNumber.exists_eq_cons
  have hfound : IsNumber (number (c :: cs ++ rest)).1 := isNumber_number hc
  have happend := number_append (c :: cs ++ rest)
  have hfirst : c :: cs = (number (c :: cs ++ rest)).1 :=
    (h.isNumber.isPrefix_number h.isPrefix).eq_of_length_le
      (h.longest _ hfound ⟨_, happend⟩)
  rw [← hfirst] at happend
  exact Prod.ext hfirst.symm (List.append_cancel_left happend)

/-! ## Quotations -/

/-- The text of a quotation, up to the closing character or, if there is none, to the end. -/
inductive Quotes (closing : Char) : List Char → List Char → List Char → Prop
  | closed {text rest : List Char} (htext : closing ∉ text) :
      Quotes closing (text ++ closing :: rest) text rest
  | unclosed {text : List Char} (htext : closing ∉ text) : Quotes closing text text []

theorem quotes_takeWhile (closing : Char) (body : List Char) :
    Quotes closing body (body.takeWhile (· ≠ closing)) (body.dropWhile (· ≠ closing)).tail := by
  have hbefore : closing ∉ body.takeWhile (· ≠ closing) := by
    intro hmem
    simpa using List.mem_takeWhile_imp hmem
  have happend := List.takeWhile_append_dropWhile (p := (· ≠ closing)) (l := body)
  cases hrest : body.dropWhile (· ≠ closing) with
  | nil =>
    rw [hrest, List.append_nil] at happend
    rw [happend] at hbefore ⊢
    exact .unclosed hbefore
  | cons c rest =>
    have hhead := List.head?_dropWhile_not (· ≠ closing) body
    rw [hrest] at hhead happend
    obtain rfl : c = closing := by simpa using hhead
    have hclosed : Quotes c _ _ rest := .closed hbefore
    rwa [happend] at hclosed

theorem Quotes.eq_takeWhile {closing : Char} {body text rest : List Char}
    (h : Quotes closing body text rest) :
    body.takeWhile (· ≠ closing) = text ∧ (body.dropWhile (· ≠ closing)).tail = rest := by
  have hbefore : ∀ {text : List Char}, closing ∉ text →
      ∀ c ∈ text, decide (c ≠ closing) = true := by
    intro text htext c hmem
    exact decide_eq_true fun heq ↦ htext (heq ▸ hmem)
  cases h with
  | closed htext =>
    rw [List.takeWhile_append_of_pos (hbefore htext), List.dropWhile_append_of_pos (hbefore htext)]
    simp
  | unclosed htext =>
    rw [List.takeWhile_eq_self_iff.mpr (hbefore htext),
      List.dropWhile_eq_nil_iff.mpr (hbefore htext)]
    exact ⟨rfl, rfl⟩

theorem delimited?_append (opening : List Char) (closing : Char) (body : List Char) :
    delimited? opening closing (opening ++ body) =
      some (body.takeWhile (· ≠ closing), (body.dropWhile (· ≠ closing)).tail) := by
  have hfront : opening.isPrefixOf (opening ++ body) = true :=
    List.isPrefixOf_iff_prefix.mpr (List.prefix_append _ _)
  rw [delimited?, if_pos hfront, List.drop_left]

theorem delimited?_eq_none {opening : List Char} {closing : Char} {cs : List Char}
    (h : ¬ opening <+: cs) : delimited? opening closing cs = none :=
  if_neg fun hfront ↦ h (List.isPrefixOf_iff_prefix.mp hfront)

theorem Quotes.delimited?_eq {closing : Char} {body text rest : List Char}
    (h : Quotes closing body text rest) (opening : List Char) :
    delimited? opening closing (opening ++ body) = some (text, rest) := by
  rw [delimited?_append, h.eq_takeWhile.1, h.eq_takeWhile.2]

theorem exists_quotes {opening cs text rest : List Char} {closing : Char}
    (h : delimited? opening closing cs = some (text, rest)) :
    ∃ body, cs = opening ++ body ∧ Quotes closing body text rest := by
  by_cases hfront : opening <+: cs
  · obtain ⟨body, rfl⟩ := hfront
    rw [delimited?_append] at h
    cases h
    exact ⟨body, rfl, quotes_takeWhile closing body⟩
  · rw [delimited?_eq_none hfront] at h
    cases h

theorem quotation?_quoted {body text rest : List Char} (h : Quotes '"' body text rest) :
    quotation? ('"' :: body) = some (text, rest) := by
  have hfound : delimited? ['"'] '"' ('"' :: body) = some (text, rest) := h.delimited?_eq ['"']
  rw [quotation?, hfound]

theorem quotation?_command {body text rest : List Char} (h : Quotes ')' body text rest) :
    quotation? (['t', 'e', 'x', 't', '('] ++ body) = some (text, rest) := by
  have hnone : delimited? ['"'] '"' (['t', 'e', 'x', 't', '('] ++ body) = none :=
    delimited?_eq_none (by simp)
  rw [quotation?, hnone]
  exact h.delimited?_eq _

theorem quotation?_of_digit {c : Char} {cs : List Char} (h : c.isDigit = true) :
    quotation? (c :: cs) = none := by
  have hquote : c ≠ '"' := by
    rintro rfl
    exact absurd h (by decide)
  have hletter : c ≠ 't' := by
    rintro rfl
    exact absurd h (by decide)
  rw [quotation?, delimited?_eq_none (by simp [hquote.symm]),
    delimited?_eq_none (by simp [hletter.symm])]

/-- Neither a quotation nor a number starts the text, so a spelling may. -/
def MaySpell (cs : List Char) : Prop :=
  ¬ ['"'] <+: cs ∧ ¬ ['t', 'e', 'x', 't', '('] <+: cs ∧ ∀ c ∈ cs.head?, c.isDigit = false

theorem MaySpell.quotation?_eq_none {cs : List Char} (h : MaySpell cs) : quotation? cs = none := by
  rw [quotation?, delimited?_eq_none h.1, delimited?_eq_none h.2.1]

end Scan

namespace Token

open Scan

/-- The first token of a text without a blank in front, by the standard spellings, and what follows
it in the text. -/
inductive First : List Char → Token → List Char → Prop
  | endOfInput : First [] .endOfInput []
  | quoted {body text rest : List Char} (hquotes : Quotes '"' body text rest) :
      First ('"' :: body) (.plain .text (String.ofList text)) rest
  | command {body text rest : List Char} (hquotes : Quotes ')' body text rest) :
      First ("text(".toList ++ body) (.plain .text (String.ofList text)) rest
  | number {digits rest : List Char} (hlongest : IsLongestNumber (digits ++ rest) digits) :
      First (digits ++ rest) (.plain .number (String.ofList digits)) rest
  | spelling {key : String} {entry : Entry} {rest : List Char}
      (hmay : MaySpell (key.toList ++ rest)) (hentry : IsLast Symbol.table key entry)
      (hlongest : ∀ other ∈ Symbol.table, other.1.toList <+: key.toList ++ rest →
        other.1.length ≤ key.length) :
      First (key.toList ++ rest) (.ofEntry key entry) rest
  | identifier {c : Char} {rest : List Char} (hmay : MaySpell (c :: rest))
      (hnone : ∀ entry ∈ Symbol.table, ¬ entry.1.toList <+: c :: rest) :
      First (c :: rest) (.plain .identifier (String.ofList [c])) rest

variable {μ : Type} [Lexicon μ Entry] {lexicon : μ}

theorem scan_of_quotation {cs text rest : List Char} (h : quotation? cs = some (text, rest)) :
    scan lexicon cs = (.plain .text (String.ofList text), rest) := by
  cases cs with
  | nil => simp [quotation?, delimited?] at h
  | cons c cs => simp only [scan, h]

theorem scan_of_digit {c : Char} {cs : List Char} (hquotation : quotation? (c :: cs) = none)
    (h : c.isDigit = true) : scan lexicon (c :: cs) =
      (.plain .number (String.ofList (number (c :: cs)).1), (number (c :: cs)).2) := by
  simp only [scan, hquotation, h, if_true]

theorem scan_of_none {c : Char} {cs : List Char} (hmay : MaySpell (c :: cs))
    (hnone : Lexicon.longest? lexicon (window (c :: cs) Symbol.maxSpelling) = none) :
    scan lexicon (c :: cs) = (.plain .identifier (String.ofList [c]), cs) := by
  have hdigit : c.isDigit = false := hmay.2.2 c rfl
  simp only [scan, hmay.quotation?_eq_none, hdigit, Bool.false_eq_true, if_false, hnone]

theorem scan_of_some {key cs : List Char} {hit : Hit Entry} (hmay : MaySpell (key ++ cs))
    (hne : key ≠ [])
    (hhit : Lexicon.longest? lexicon (window (key ++ cs) Symbol.maxSpelling) = some hit)
    (hsize : hit.size = Utf8.size key) (hfits : key <+: window (key ++ cs) Symbol.maxSpelling) :
    scan lexicon (key ++ cs) = (.ofEntry (String.ofList key) hit.value, cs) := by
  obtain ⟨c, key, rfl⟩ := List.exists_cons_of_ne_nil hne
  have hdigit : c.isDigit = false := hmay.2.2 c rfl
  obtain ⟨more, hmore⟩ := hfits
  have hsplit : Utf8.splitAt hit.size (window (c :: key ++ cs) Symbol.maxSpelling) =
      (c :: key, more) := by
    rw [← hmore, hsize, Utf8.splitAt_size]
  rw [List.cons_append] at *
  simp only [scan, hmay.quotation?_eq_none, hdigit, Bool.false_eq_true, if_false, hhit, hsplit]
  rw [← List.cons_append, List.drop_left]

theorem First.scan_eq (h : Lexicon.Means lexicon Symbol.table) {cs rest : List Char}
    {token : Token} (hfirst : First cs token rest) : scan lexicon cs = (token, rest) := by
  cases hfirst with
  | endOfInput => rfl
  | quoted hquotes => exact scan_of_quotation (quotation?_quoted hquotes)
  | command hquotes => exact scan_of_quotation (quotation?_command hquotes)
  | @number digits _ hlongest =>
    obtain ⟨c, cs, rfl, hc⟩ := hlongest.isNumber.exists_eq_cons
    have hscan : scan lexicon (c :: (cs ++ rest)) = _ :=
      scan_of_digit (quotation?_of_digit hc) hc
    rw [← List.cons_append, hlongest.number_eq] at hscan
    exact hscan
  | @spelling key entry _ hmay hentry hlongest =>
    have hspelling := Symbol.isSpelling_table _ hentry.mem
    have hfits : key.toList <+: key.toList ++ rest := List.prefix_append _ _
    have hhit : Lexicon.longest? lexicon (window (key.toList ++ rest) Symbol.maxSpelling) =
        some ⟨key.utf8ByteSize, entry⟩ := by
      rw [h.longest?_window Symbol.isSpelling_table, h.longest?_eq_some]
      exact ⟨key, hfits, rfl, hentry, fun other hmem hother ↦
        (Utf8.utf8ByteSize_le_iff hother hfits).mpr (hlongest other hmem hother)⟩
    have hscan := scan_of_some hmay (Symbol.toList_ne_nil_of_mem_table hentry.mem) hhit
      (Utf8.size_toList key).symm (isPrefix_window hspelling.1 hfits hspelling.2)
    rwa [String.ofList_toList] at hscan
  | identifier hmay hnone =>
    apply scan_of_none hmay
    rw [h.longest?_window Symbol.isSpelling_table]
    exact (h.longest?_eq_none _).mpr hnone

theorem First.of_maySpell {c : Char} {cs : List Char} (hmay : MaySpell (c :: cs)) :
    ∃ token rest, First (c :: cs) token rest := by
  have hanswers := (Entries.means Symbol.table).answers (c :: cs)
  cases hlongest : Lexicon.longest? Symbol.table (c :: cs) with
  | none =>
    rw [hlongest] at hanswers
    exact ⟨_, _, .identifier hmay hanswers⟩
  | some hit =>
    rw [hlongest] at hanswers
    obtain ⟨key, hfits, -, hentry, hlongest⟩ := hanswers
    have hlength : ∀ other ∈ Symbol.table, other.1.toList <+: c :: cs →
        other.1.length ≤ key.length :=
      fun other hmem hother ↦
        (Utf8.utf8ByteSize_le_iff hother hfits).mp (hlongest other hmem hother)
    obtain ⟨rest, hrest⟩ := hfits
    rw [← hrest] at hmay hlength ⊢
    exact ⟨_, _, .spelling hmay hentry hlength⟩

theorem exists_first (cs : List Char) : ∃ token rest, First cs token rest := by
  cases cs with
  | nil => exact ⟨_, _, .endOfInput⟩
  | cons c cs =>
    by_cases hquoted : ['"'] <+: c :: cs
    · obtain ⟨body, hbody⟩ := hquoted
      rw [← hbody]
      exact ⟨_, _, .quoted (quotes_takeWhile '"' body)⟩
    by_cases hcommand : ['t', 'e', 'x', 't', '('] <+: c :: cs
    · obtain ⟨body, hbody⟩ := hcommand
      rw [← hbody]
      exact ⟨_, _, .command (quotes_takeWhile ')' body)⟩
    by_cases hdigit : c.isDigit = true
    · have hlongest := isLongestNumber_number cs hdigit
      have happend := number_append (c :: cs)
      generalize number (c :: cs) = found at hlongest happend
      rw [← happend] at hlongest ⊢
      exact ⟨_, _, .number hlongest⟩
    · refine First.of_maySpell ⟨hquoted, hcommand, ?_⟩
      simpa using hdigit

/-- What is scanned is the first token. -/
theorem scan_eq_iff (h : Lexicon.Means lexicon Symbol.table) {cs rest : List Char} {token : Token} :
    scan lexicon cs = (token, rest) ↔ First cs token rest := by
  constructor
  · intro hscan
    obtain ⟨token', rest', hfirst⟩ := exists_first cs
    rw [hfirst.scan_eq h] at hscan
    cases hscan
    exact hfirst
  · exact First.scan_eq h

end Token

namespace Lexer

theorem dropWhile_blanks_append {blanks text : List Char}
    (hblanks : ∀ c ∈ blanks, Unicode.isBlank c = true)
    (htext : ∀ c ∈ text.head?, Unicode.isBlank c = false) :
    (blanks ++ text).dropWhile Unicode.isBlank = text := by
  rw [List.dropWhile_append_of_pos hblanks, List.dropWhile_eq_self_iff]
  intro hlength
  have hhead := htext text[0] (by simp [List.head?_eq_getElem?])
  simp [hhead]

/-- Behind the blanks a lexer of the standard spellings answers with the first token of the text,
and a spelling that is looked up in a window is the one that the whole text starts with. This does
not depend on the kind of tree that the spellings are in. -/
theorem next_eq_iff_first (τ : Type) [KeyTree τ Entry] [LawfulKeyTree τ] :
    (∀ text, Lexicon.longest? (Symbol.standardIn τ) (Scan.window text Symbol.maxSpelling) =
      Lexicon.longest? (Symbol.standardIn τ) text) ∧
    ∀ (cs : List Char) (token : Token) (later : Lexer (TreeLexicon τ)),
      ({ lexicon := Symbol.standardIn τ, rest := cs } : Lexer (TreeLexicon τ)).next =
          (token, later) ↔
        ∃ blanks text rest, cs = blanks ++ text ∧ (∀ c ∈ blanks, Unicode.isBlank c = true) ∧
          (∀ c ∈ text.head?, Unicode.isBlank c = false) ∧ Token.First text token rest ∧
            later = { lexicon := Symbol.standardIn τ, rest } := by
  refine ⟨Symbol.longest?_standardIn_window τ, fun cs token later ↦ ?_⟩
  have hmeans := Symbol.means_standardIn τ
  constructor
  · intro hnext
    simp only [next, Prod.mk.injEq] at hnext
    obtain ⟨rfl, rfl⟩ := hnext
    refine ⟨cs.takeWhile Unicode.isBlank, cs.dropWhile Unicode.isBlank, _,
      List.takeWhile_append_dropWhile.symm, fun _ ↦ List.mem_takeWhile_imp, ?_,
      (Token.scan_eq_iff hmeans).mp rfl, rfl⟩
    intro c hmem
    have hhead := List.head?_dropWhile_not Unicode.isBlank cs
    rw [hmem] at hhead
    exact hhead
  · rintro ⟨blanks, text, rest, rfl, hblanks, htext, hfirst, rfl⟩
    simp only [next, dropWhile_blanks_append hblanks htext, hfirst.scan_eq hmeans]

/-- Behind a blank, a spelling that begins like a shorter one. -/
theorem next_eq_iff_first_lessEqual :
    let lexer : Lexer (Trie Entry) := { lexicon := Symbol.standard, rest := " <=x".toList }
    lexer.next.1 = .ofEntry "<=" ⟨some .lessEqual, .symbol, none⟩ ∧
      ∃ blanks text rest, " <=x".toList = blanks ++ text ∧
        (∀ c ∈ blanks, Unicode.isBlank c = true) ∧
        (∀ c ∈ text.head?, Unicode.isBlank c = false) ∧
        Token.First text (.ofEntry "<=" ⟨some .lessEqual, .symbol, none⟩) rest ∧
        lexer.next.2 = { lexicon := Symbol.standard, rest } := by
  intro lexer
  have htoken : lexer.next.1 = .ofEntry "<=" ⟨some .lessEqual, .symbol, none⟩ := by
    decide +kernel
  obtain ⟨-, hnext⟩ := next_eq_iff_first (ByteTree Entry)
  refine ⟨htoken, ?_⟩
  rw [← htoken]
  exact (hnext " <=x".toList lexer.next.1 lexer.next.2).mp (Prod.eta lexer.next).symm

end Lexer

end FormulaMarkup
