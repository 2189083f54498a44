import FormulaMarkup.Proofs.Token.Separation

/-!
# The text behind the tokens

A lexer loses nothing of its input. `Token.Written` says from which characters a token was read: its
own text, or the text of a quotation with its delimiters, of which the closing one is missing only
where the input ends. A step of the lexer takes such characters and the blanks before them off the
input (`Lexer.Takes`), so the input is what its steps took, and each step up to the end takes at
least one character (`Lexer.exists_spans`). This holds for every lexicon.
-/

namespace FormulaMarkup

namespace Scan

/-- The delimiters of a quotation. -/
inductive Delimits : List Char → Char → Prop
  | quotes : Delimits ['"'] '"'
  | command : Delimits "text(".toList ')'

end Scan

variable {μ : Type} [Lexicon μ Entry]

namespace Token

open Scan

/-- The token is read from the characters `raw`, behind which `later` follows. -/
inductive Written (lexicon : μ) : Token → List Char → List Char → Prop
  | endOfInput : Written lexicon .endOfInput [] []
  | number {raw later} (hnumber : IsNumber raw) :
      Written lexicon (.plain .number (String.ofList raw)) raw later
  | spelling {raw later hit} (hne : raw ≠ [])
      (hhit : Lexicon.longest? lexicon (window (raw ++ later) Symbol.maxSpelling) = some hit) :
      Written lexicon (.ofEntry (String.ofList raw) hit.value) raw later
  | identifier {c later} : Written lexicon (.plain .identifier (String.ofList [c])) [c] later
  | closed {opening closing text later} (hdelimits : Delimits opening closing)
      (htext : closing ∉ text) :
      Written lexicon (.plain .text (String.ofList text)) (opening ++ text ++ [closing]) later
  | unclosed {opening closing text} (hdelimits : Delimits opening closing)
      (htext : closing ∉ text) :
      Written lexicon (.plain .text (String.ofList text)) (opening ++ text) []

variable {lexicon : μ} {token : Token} {raw later : List Char}

/-- Only the end of the input is read from nothing. -/
theorem Written.eq_of_raw_eq_nil (h : Written lexicon token [] later) :
    token = .endOfInput ∧ later = [] := by
  generalize hraw : [] = raw at h
  cases h with
  | endOfInput => exact ⟨rfl, rfl⟩
  | number hnumber =>
    obtain ⟨c, cs, hcons, -⟩ := hnumber.exists_eq_cons
    rw [hcons] at hraw
    cases hraw
  | spelling hne => exact absurd hraw.symm hne
  | identifier => cases hraw
  | closed hdelimits => simp at hraw
  | unclosed hdelimits => cases hdelimits <;> simp at hraw

theorem written_quotation {opening body text : List Char} {closing : Char}
    (hdelimits : Delimits opening closing) (hquotes : Quotes closing body text later) :
    ∃ raw, opening ++ body = raw ++ later ∧
      Written lexicon (.plain .text (String.ofList text)) raw later := by
  cases hquotes with
  | closed htext => exact ⟨opening ++ text ++ [closing], by simp, .closed hdelimits htext⟩
  | unclosed htext => exact ⟨opening ++ body, by simp, .unclosed hdelimits htext⟩

theorem written_spelling {cs : List Char} {hit : Hit Entry}
    (hhit : Lexicon.longest? lexicon (window cs Symbol.maxSpelling) = some hit)
    (hraw : raw <+: window cs Symbol.maxSpelling) (hne : raw ≠ []) :
    cs = raw ++ cs.drop raw.length ∧
      Written lexicon (.ofEntry (String.ofList raw) hit.value) raw (cs.drop raw.length) := by
  obtain ⟨later, hlater⟩ := hraw.trans (window_isPrefix cs Symbol.maxSpelling)
  have happend : cs = raw ++ cs.drop raw.length := by rw [← hlater, List.drop_left]
  exact ⟨happend, .spelling hne (happend ▸ hhit)⟩

/-- Scanning takes the characters of the token off the front of the text. -/
theorem exists_written (lexicon : μ) (cs : List Char) :
    ∃ raw, cs = raw ++ (scan lexicon cs).2 ∧
      Written lexicon (scan lexicon cs).1 raw (scan lexicon cs).2 := by
  cases cs with
  | nil => exact ⟨[], rfl, .endOfInput⟩
  | cons c rest =>
    cases hquotation : quotation? (c :: rest) with
    | some found =>
      obtain ⟨text, later⟩ := found
      rw [scan_of_quotation hquotation]
      rcases exists_quotation hquotation with ⟨body, hbody, hquotes⟩ | ⟨body, hbody, hquotes⟩
      · rw [hbody]
        exact written_quotation .quotes hquotes
      · rw [hbody]
        exact written_quotation .command hquotes
    | none =>
      by_cases hdigit : c.isDigit = true
      · rw [scan_of_digit hquotation hdigit]
        exact ⟨_, (number_append (c :: rest)).symm, .number (isNumber_number hdigit)⟩
      · have hsingle : ∃ raw, c :: rest = raw ++ rest ∧
            Written lexicon (.plain .identifier (String.ofList [c])) raw rest :=
          ⟨[c], rfl, .identifier⟩
        simp only [scan, hquotation, hdigit, Bool.false_eq_true, if_false]
        split
        · next hit hhit =>
          split
          · exact hsingle
          · next hne => exact ⟨_, written_spelling hhit (Utf8.splitAt_isPrefix _ _) hne⟩
        · exact hsingle

end Token

/-- A token, the blanks before it and the characters that it is read from. -/
structure Span where
  blanks : List Char
  raw : List Char
  token : Token

def Span.chars (span : Span) : List Char := span.blanks ++ span.raw

namespace Lexer

/-- The lexer takes the span off its input and moves on. -/
structure Takes (lexer : Lexer μ) (span : Span) (later : Lexer μ) : Prop where
  next_eq : lexer.next = (span.token, later)
  rest_eq : lexer.rest = span.chars ++ later.rest
  isBlank : ∀ c ∈ span.blanks, Unicode.isBlank c = true
  isBlank_head : ∀ c ∈ span.raw.head?, Unicode.isBlank c = false
  written : Token.Written lexer.lexicon span.token span.raw later.rest

/-- The lexer takes the spans off its input, one after the other. -/
inductive TakesAll : Lexer μ → List Span → Lexer μ → Prop
  | done {lexer} : TakesAll lexer [] lexer
  | more {lexer span later spans last} (htakes : Takes lexer span later)
      (hmore : TakesAll later spans last) : TakesAll lexer (span :: spans) last

variable {lexer later last : Lexer μ} {span : Span} {spans : List Span}

/-- What is taken is nothing only where nothing but blanks is left. -/
theorem Takes.raw_eq_nil_iff (h : lexer.Takes span later) :
    span.raw = [] ↔ ∀ c ∈ lexer.rest, Unicode.isBlank c = true := by
  rw [h.rest_eq, Span.chars]
  constructor
  · intro hraw
    have hwritten := h.written
    rw [hraw] at hwritten
    rw [hraw, hwritten.eq_of_raw_eq_nil.2, List.append_nil, List.append_nil]
    exact h.isBlank
  · intro hblank
    cases hraw : span.raw with
    | nil => rfl
    | cons c raw =>
      have hhead := h.isBlank_head c (by rw [hraw]; rfl)
      rw [hblank c (by simp [hraw])] at hhead
      cases hhead

theorem Takes.length_lt (h : lexer.Takes span later) (hne : span.raw ≠ []) :
    later.rest.length < lexer.rest.length := by
  have hpos := List.length_pos_iff.mpr hne
  rw [h.rest_eq, Span.chars, List.length_append, List.length_append]
  omega

theorem exists_takes (lexicon : μ) (cs : List Char) : ∃ span rest,
    Takes { lexicon, rest := cs } span { lexicon, rest } := by
  obtain ⟨raw, hraw, hwritten⟩ := Token.exists_written lexicon (cs.dropWhile Unicode.isBlank)
  generalize hscan : Token.scan lexicon (cs.dropWhile Unicode.isBlank) = found at hraw hwritten
  refine ⟨⟨cs.takeWhile Unicode.isBlank, raw, found.1⟩, found.2, ?_, ?_, ?_, ?_, hwritten⟩
  · simp only [next, hscan]
  · have happend := List.takeWhile_append_dropWhile (p := Unicode.isBlank) (l := cs)
    rw [hraw, ← List.append_assoc] at happend
    exact happend.symm
  · exact fun _ ↦ List.mem_takeWhile_imp
  · intro c hmem
    have hhead := List.head?_dropWhile_not Unicode.isBlank cs
    rw [hraw, List.head?_append, hmem] at hhead
    exact hhead

/-! ## The whole input -/

theorem TakesAll.rest_eq (h : lexer.TakesAll spans last) :
    lexer.rest = spans.flatMap Span.chars ++ last.rest := by
  induction h with
  | done => rfl
  | more htakes _ ih => rw [htakes.rest_eq, ih, List.flatMap_cons, List.append_assoc]

theorem TakesAll.length_le (h : lexer.TakesAll spans last) (hne : ∀ span ∈ spans, span.raw ≠ []) :
    spans.length ≤ lexer.rest.length := by
  induction h with
  | done => exact Nat.zero_le _
  | more htakes _ ih =>
    obtain ⟨hspan, hspans⟩ := List.forall_mem_cons.mp hne
    exact Nat.lt_of_le_of_lt (ih hspans) (htakes.length_lt hspan)

theorem exists_takesAll (lexicon : μ) (cs : List Char) : ∃ spans rest,
    TakesAll { lexicon, rest := cs } spans { lexicon, rest } ∧
      (∀ span ∈ spans, span.raw ≠ []) ∧ (∀ c ∈ rest, Unicode.isBlank c = true) ∧
      spans.map Span.token = scanAll lexicon cs := by
  fun_induction scanAll lexicon cs with
  | case1 cs hblank => exact ⟨[], cs, .done, by simp, List.dropWhile_eq_nil_iff.mp hblank, rfl⟩
  | case2 cs c text hcons ih =>
    obtain ⟨span, rest, htakes⟩ := exists_takes lexicon cs
    have hnext := htakes.next_eq
    simp only [next, hcons, Prod.mk.injEq, mk.injEq, true_and, and_true] at hnext
    obtain ⟨htoken, rfl⟩ := hnext
    obtain ⟨spans, rest, hmore, hspans, hrest, htokens⟩ := ih
    have hne : span.raw ≠ [] := by
      intro hraw
      have hblank := List.dropWhile_eq_nil_iff.mpr (htakes.raw_eq_nil_iff.mp hraw)
      rw [hcons] at hblank
      cases hblank
    refine ⟨span :: spans, rest, .more htakes hmore, List.forall_mem_cons.mpr ⟨hne, hspans⟩,
      hrest, ?_⟩
    rw [List.map_cons, htokens, htoken]

theorem next_of_blank (lexicon : μ) {cs : List Char} (h : ∀ c ∈ cs, Unicode.isBlank c = true) :
    ({ lexicon, rest := cs } : Lexer μ).next = (.endOfInput, { lexicon, rest := [] }) := by
  simp [next, List.dropWhile_eq_nil_iff.mpr h, Token.scan]

/-- Each step takes a span off the input, which is nothing only at the end. The whole input is the
spans of its tokens, of which there are no more than characters, and the blanks behind them. -/
theorem exists_spans (lexicon : μ) :
    (∀ cs, ∃ span rest, Takes { lexicon, rest := cs } span { lexicon, rest } ∧
      (span.raw = [] ↔ ∀ c ∈ cs, Unicode.isBlank c = true) ∧
      (span.raw = [] → span.token = .endOfInput ∧ rest = [])) ∧
    ∀ input : String, ∃ spans rest,
      TakesAll (ofString lexicon input) spans { lexicon, rest } ∧
        input.toList = spans.flatMap Span.chars ++ rest ∧
        (∀ span ∈ spans, span.raw ≠ []) ∧ spans.length ≤ input.length ∧
        (∀ c ∈ rest, Unicode.isBlank c = true) ∧
        ({ lexicon, rest } : Lexer μ).next = (.endOfInput, { lexicon, rest := [] }) ∧
        (ofString lexicon input).tokens =
          (spans.map Span.token).takeWhile fun token ↦ token.kind ≠ .endOfInput := by
  constructor
  · intro cs
    obtain ⟨span, rest, htakes⟩ := exists_takes lexicon cs
    refine ⟨span, rest, htakes, htakes.raw_eq_nil_iff, fun hraw ↦ ?_⟩
    have hwritten := htakes.written
    rw [hraw] at hwritten
    exact hwritten.eq_of_raw_eq_nil
  · intro input
    obtain ⟨spans, rest, htakes, hspans, hrest, htokens⟩ := exists_takesAll lexicon input.toList
    refine ⟨spans, rest, htakes, htakes.rest_eq, hspans, ?_, hrest, next_of_blank lexicon hrest, ?_⟩
    · rw [← String.length_toList]
      exact htakes.length_le hspans
    · rw [htokens]
      exact tokens_eq_takeWhile _

end Lexer

end FormulaMarkup
