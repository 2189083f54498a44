import Mathlib.Data.List.TakeWhile
import FormulaMarkup.Proofs.Lexicon.Meaning
import FormulaMarkup.Token.Lexer

/-!
# The stream of tokens ahead of a lexer

`Lexer.stream` lists all tokens that a lexer still has to give, up to the end of its input. A token
of kind `endOfInput` that an entry gave to a spelling is part of it, since the lexer moves on behind
such a token. In this view `next` takes the first token away, and a token that is given back stands
in front again unless it has the kind `endOfInput`.

Where no entry has that kind, the stream is the list `Lexer.tokens` of an iteration.
-/

namespace FormulaMarkup

/-- No spelling ends the input. -/
def Lexicon.NeverEnds {μ : Type} [Lexicon μ Entry] (lexicon : μ) : Prop :=
  Lexicon.Gives lexicon fun entry ↦ entry.kind ≠ .endOfInput

/-- Where the token of a text comes from: it is scanned without the lexicon, or it is a spelling
with the entry that the lexicon gave for it. -/
inductive Token.Origin {μ : Type} [Lexicon μ Entry] (lexicon : μ) : Token → Prop
  | text (written : String) : Origin lexicon (.plain .text written)
  | number (written : String) : Origin lexicon (.plain .number written)
  | identifier {written : String} (hne : written ≠ "") : Origin lexicon (.plain .identifier written)
  | entry {text : List Char} {hit : Hit Entry} {spelling : String} (hne : spelling ≠ "")
      (hhit : Lexicon.longest? lexicon text = some hit) :
      Origin lexicon (.ofEntry spelling hit.value)

theorem Token.scan_origin {μ : Type} [Lexicon μ Entry] (lexicon : μ) {cs : List Char}
    (hne : cs ≠ []) : Token.Origin lexicon (Token.scan lexicon cs).1 := by
  obtain ⟨c, rest, rfl⟩ := List.exists_cons_of_ne_nil hne
  have hsingle : Token.Origin lexicon (.plain .identifier (String.ofList [c])) :=
    .identifier (by simp)
  simp only [Token.scan]
  split
  · exact .text _
  · split
    · exact .number _
    · split
      · next hit hhit =>
        split
        · exact hsingle
        · next hfront => exact .entry (by simpa using hfront) hhit
      · exact hsingle

theorem Token.Origin.kind_ne_endOfInput {μ : Type} [Lexicon μ Entry] {lexicon : μ} {token : Token}
    (h : Token.Origin lexicon token) (hends : Lexicon.NeverEnds lexicon) :
    token.kind ≠ .endOfInput := by
  cases h with
  | text | number | identifier => simp [Token.plain, Token.ofEntry]
  | entry hne hhit => exact hends _ _ hhit

/-- Only a quotation can be empty. -/
theorem Token.Origin.text_ne_empty {μ : Type} [Lexicon μ Entry] {lexicon : μ} {token : Token}
    (h : Token.Origin lexicon token) (hkind : token.kind = .identifier) : token.text ≠ "" := by
  cases h with
  | text | number => simp [Token.plain, Token.ofEntry] at hkind
  | identifier hne => exact hne
  | entry hne hhit => exact hne

namespace Reading

/-- The next token, which is the end of the input once nothing is left. -/
def ahead (tokens : List Token) : Token := tokens.headD .endOfInput

/-- What is ahead after the next token was taken and given back. -/
def glanced (tokens : List Token) : List Token :=
  if (ahead tokens).kind = .endOfInput then tokens.tail else tokens

@[simp]
theorem ahead_nil : ahead [] = .endOfInput := rfl

@[simp]
theorem ahead_cons (token : Token) (tokens : List Token) : ahead (token :: tokens) = token := rfl

theorem glanced_of_kind_ahead {tokens : List Token} (h : (ahead tokens).kind ≠ .endOfInput) :
    glanced tokens = tokens := if_neg h

theorem glanced_suffix (tokens : List Token) : glanced tokens <:+ tokens := by
  simp only [glanced]
  split
  · exact List.tail_suffix tokens
  · exact List.suffix_rfl

/-- A token ahead that is not the end of the input starts the stream. -/
theorem eq_cons_of_kind_ahead {tokens : List Token} (h : (ahead tokens).kind ≠ .endOfInput) :
    tokens = ahead tokens :: tokens.tail := by
  cases tokens with
  | nil => exact absurd rfl h
  | cons token tokens => rfl

end Reading

namespace Lexer

variable {μ : Type} [Lexicon μ Entry]

/-- All tokens of a text, of whatever kind. -/
def scanAll (lexicon : μ) (cs : List Char) : List Token :=
  match _hcons : cs.dropWhile Unicode.isBlank with
  | [] => []
  | c :: rest =>
    (Token.scan lexicon (c :: rest)).1 :: scanAll lexicon (Token.scan lexicon (c :: rest)).2
termination_by cs.length
decreasing_by
  have hscan := Token.length_scan_lt lexicon (List.cons_ne_nil c rest)
  have hblank := (List.dropWhile_suffix (l := cs) Unicode.isBlank).length_le
  rw [_hcons] at hblank
  omega

theorem scanAll_of_blank (lexicon : μ) {cs : List Char} (h : cs.dropWhile Unicode.isBlank = []) :
    scanAll lexicon cs = [] := by
  rw [scanAll]
  split
  · rfl
  · next hcons => rw [h] at hcons; cases hcons

theorem scanAll_of_ne_nil (lexicon : μ) {cs : List Char}
    (h : cs.dropWhile Unicode.isBlank ≠ []) :
    scanAll lexicon cs = (Token.scan lexicon (cs.dropWhile Unicode.isBlank)).1 ::
      scanAll lexicon (Token.scan lexicon (cs.dropWhile Unicode.isBlank)).2 := by
  rw [scanAll]
  split
  · next hnil => exact absurd hnil h
  · next hcons => rw [hcons]

theorem length_scanAll_le (lexicon : μ) (cs : List Char) :
    (scanAll lexicon cs).length ≤ cs.length := by
  fun_induction scanAll lexicon cs with
  | case1 => simp
  | case2 cs c rest h ih =>
    have hscan := Token.length_scan_lt lexicon (List.cons_ne_nil c rest)
    have hblank := (List.dropWhile_suffix (l := cs) Unicode.isBlank).length_le
    rw [h] at hblank
    simp only [List.length_cons] at hscan hblank ⊢
    omega

/-- What holds of each token that is scanned holds of all tokens of a text. -/
theorem forall_mem_scanAll {lexicon : μ} {property : Token → Prop}
    (h : ∀ c rest, property (Token.scan lexicon (c :: rest)).1) (cs : List Char) :
    ∀ token ∈ scanAll lexicon cs, property token := by
  fun_induction scanAll lexicon cs with
  | case1 => simp
  | case2 cs c rest hcons ih => exact List.forall_mem_cons.mpr ⟨h c rest, ih⟩

theorem origin_of_mem_scanAll {lexicon : μ} {cs : List Char} {token : Token}
    (h : token ∈ scanAll lexicon cs) : Token.Origin lexicon token :=
  forall_mem_scanAll (fun c rest ↦ Token.scan_origin lexicon (List.cons_ne_nil c rest)) cs token h

/-- All tokens that follow up to the end of the input. -/
def stream (lexer : Lexer μ) : List Token :=
  lexer.pending.toList ++ scanAll lexer.lexicon lexer.rest

theorem length_stream_le_size (lexer : Lexer μ) : lexer.stream.length ≤ lexer.size := by
  have hscan := length_scanAll_le lexer.lexicon lexer.rest
  simp only [stream, size, List.length_append]
  omega

theorem origin_of_mem_stream {lexicon : μ} {input : String} {token : Token}
    (h : token ∈ (ofString lexicon input).stream) : Token.Origin lexicon token :=
  origin_of_mem_scanAll h

theorem next_eq_ahead (lexer : Lexer μ) : ∃ later : Lexer μ,
    lexer.next = (Reading.ahead lexer.stream, later) ∧ later.pending = none ∧
      later.stream = lexer.stream.tail := by
  obtain ⟨lexicon, rest, pending⟩ := lexer
  cases pending with
  | some token => exact ⟨⟨lexicon, rest, none⟩, rfl, rfl, rfl⟩
  | none =>
    by_cases h : rest.dropWhile Unicode.isBlank = []
    · have hstream : (⟨lexicon, rest, none⟩ : Lexer μ).stream = [] := scanAll_of_blank lexicon h
      refine ⟨⟨lexicon, [], none⟩, ?_, rfl, ?_⟩
      · rw [hstream]
        simp [next, h, Token.scan]
      · rw [hstream]
        exact scanAll_of_blank lexicon rfl
    · have hstream := scanAll_of_ne_nil lexicon h
      refine ⟨⟨lexicon, (Token.scan lexicon (rest.dropWhile Unicode.isBlank)).2, none⟩, ?_, rfl, ?_⟩
      · simp [next, stream, hstream]
      · simp [stream, hstream]

/-- After a look at the next token the lexer gives it back without a fault. -/
theorem pushBack_ahead {lexer later : Lexer μ} (hpending : later.pending = none)
    (hlater : later.stream = lexer.stream.tail) : ∃ back : Lexer μ,
      later.pushBack (Reading.ahead lexer.stream) = .ok back ∧
        back.stream = Reading.glanced lexer.stream := by
  by_cases h : (Reading.ahead lexer.stream).kind = .endOfInput
  · exact ⟨later, by simp [pushBack, h], by rw [hlater, Reading.glanced, if_pos h]⟩
  · refine ⟨{ later with pending := some (Reading.ahead lexer.stream) }, ?_, ?_⟩
    · simp [pushBack, h, hpending]
    · rw [Reading.glanced, if_neg h]
      have hscan : scanAll later.lexicon later.rest = lexer.stream.tail := by
        rw [← hlater, stream, hpending]
        rfl
      rw [Reading.eq_cons_of_kind_ahead h, ← hscan]
      rfl

theorem take_eq_takeWhile (lexer : Lexer μ) (count : Nat) (h : lexer.stream.length < count) :
    (lexer.take count).1 = lexer.stream.takeWhile fun token ↦ token.kind ≠ .endOfInput := by
  induction count generalizing lexer with
  | zero => omega
  | succ count ih =>
    obtain ⟨later, hnext, -, hlater⟩ := lexer.next_eq_ahead
    by_cases hend : (Reading.ahead lexer.stream).kind = .endOfInput
    · have hnil : lexer.stream.takeWhile (fun token ↦ token.kind ≠ .endOfInput) = [] := by
        cases hstream : lexer.stream with
        | nil => rfl
        | cons token tokens =>
          rw [hstream, Reading.ahead_cons] at hend
          simp [hend]
      rw [hnil]
      simp [take, next?, hnext, hend]
    · have hcons := Reading.eq_cons_of_kind_ahead hend
      have hlength : later.stream.length < count := by
        rw [hcons, List.length_cons, ← hlater] at h
        omega
      rw [hcons, List.takeWhile_cons, ← hlater, if_pos (by simpa using hend), ← ih later hlength]
      simp [take, next?, hnext, hend]

/-- The tokens of an iteration are those before the first end of the input. -/
theorem tokens_eq_takeWhile (lexer : Lexer μ) :
    lexer.tokens = lexer.stream.takeWhile fun token ↦ token.kind ≠ .endOfInput :=
  take_eq_takeWhile lexer _ (Nat.lt_succ_of_le lexer.length_stream_le_size)

theorem kind_ne_endOfInput_of_mem_stream {lexicon : μ} (hends : Lexicon.NeverEnds lexicon)
    (input : String) : ∀ token ∈ (ofString lexicon input).stream, token.kind ≠ .endOfInput :=
  fun _ hmem ↦ (origin_of_mem_stream hmem).kind_ne_endOfInput hends

theorem tokens_eq_stream {lexicon : μ} (hends : Lexicon.NeverEnds lexicon) (input : String) :
    (ofString lexicon input).tokens = (ofString lexicon input).stream := by
  rw [tokens_eq_takeWhile, List.takeWhile_eq_self_iff]
  simpa using kind_ne_endOfInput_of_mem_stream hends input

end Lexer

end FormulaMarkup
