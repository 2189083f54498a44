import FormulaMarkup.Proofs.Reading.Ending

/-!
# Iterating over tokens

`Lexer.next?` answers with the tokens of the stream one after the other, and with `none` for each of
kind `endOfInput` (`Lexer.answer?_eq_none_iff`). The lexer moves on in both cases, so a token can
still follow a `none`: iterating is fused, which means that `none` stays the answer for good,
exactly where the first token of that kind is followed by none of another kind (`Lexer.fused_iff`).

Where no spelling ends the input, such a token comes only at its end. This is kept by every call of
the lexer, and iterating is fused in whatever state it begins (`Lexer.fused_of_reached`). An entry
of kind `endOfInput` breaks this where another token stands behind its spelling.

The first answers are those of `Lexer.tokens`. Their number is within `Lexer.sizeBounds` in every
state that calls lead to, whatever tokens were given back (`Lexer.length_tokens_within_sizeBounds`):
a token is waiting only if it does not end the input, and each other token takes up a byte.
-/

namespace FormulaMarkup

namespace Lexer

variable {μ : Type} [Lexicon μ Entry]

/-- The lexer after a number of calls of `next?`. -/
def advanced (lexer : Lexer μ) : Nat → Lexer μ
  | 0 => lexer
  | count + 1 => advanced lexer.next?.2 count

/-- The answer of `next?` after a number of calls. -/
def answer? (lexer : Lexer μ) (count : Nat) : Option Token := (lexer.advanced count).next?.1

/-- Behind a missing answer all answers are missing. -/
def Fused (lexer : Lexer μ) : Prop :=
  ∀ count later, count ≤ later → lexer.answer? count = none → lexer.answer? later = none

/-- What calls of `next` and `pushBack` make of a lexer, in any order and with any tokens given
back. A call of `next?` moves the lexer as one of `next`. -/
inductive Reached (start : Lexer μ) : Lexer μ → Prop
  | start : Reached start start
  | next {lexer} (h : Reached start lexer) : Reached start lexer.next.2
  | pushBack {lexer token back} (h : Reached start lexer)
      (hback : lexer.pushBack token = .ok back) : Reached start back

/-! ## The answers and the stream -/

theorem stream_next? (lexer : Lexer μ) : lexer.next?.2.stream = lexer.stream.tail := by
  obtain ⟨later, hnext, -, hlater⟩ := lexer.next_eq_ahead
  simp only [next?, hnext, hlater]

theorem next?_eq_filter (lexer : Lexer μ) :
    lexer.next?.1 = lexer.stream.head?.filter (·.kind ≠ .endOfInput) := by
  obtain ⟨later, hnext, -, -⟩ := lexer.next_eq_ahead
  rw [next?, hnext, Reading.ahead, List.headD_eq_head?_getD]
  cases lexer.stream.head? with
  | none => rfl
  | some token => by_cases hkind : token.kind = .endOfInput <;> simp [hkind, Option.filter]

theorem stream_advanced (lexer : Lexer μ) (count : Nat) :
    (lexer.advanced count).stream = lexer.stream.drop count := by
  induction count generalizing lexer with
  | zero => rfl
  | succ count ih => rw [advanced, ih, stream_next?, List.drop_tail]

theorem answer?_eq_filter (lexer : Lexer μ) (count : Nat) :
    lexer.answer? count = lexer.stream[count]?.filter (·.kind ≠ .endOfInput) := by
  rw [answer?, next?_eq_filter, stream_advanced, List.head?_drop]

theorem answer?_eq_none_iff (lexer : Lexer μ) (count : Nat) :
    lexer.answer? count = none ↔ ∀ token ∈ lexer.stream[count]?, token.kind = .endOfInput := by
  simp [answer?_eq_filter, Option.filter_eq_none_iff]

/-- Iterating is fused where the end of the input is not followed by another token. -/
theorem fused_iff (lexer : Lexer μ) : lexer.Fused ↔
    ∀ token ∈ lexer.stream.dropWhile fun token ↦ token.kind ≠ .endOfInput,
      token.kind = .endOfInput := by
  have happend := List.takeWhile_append_dropWhile
    (p := fun token : Token ↦ token.kind ≠ .endOfInput) (l := lexer.stream)
  have hhead := List.head?_dropWhile_not (fun token : Token ↦ token.kind ≠ .endOfInput) lexer.stream
  have hfront : ∀ token ∈ lexer.stream.takeWhile fun token ↦ token.kind ≠ .endOfInput,
      token.kind ≠ .endOfInput := fun token hmem ↦ by simpa using List.mem_takeWhile_imp hmem
  generalize lexer.stream.takeWhile _ = front at happend hfront
  generalize lexer.stream.dropWhile _ = back at happend hhead
  have hbehind (count : Nat) : lexer.stream[front.length + count]? = back[count]? := by
    rw [← happend, List.getElem?_append_right (Nat.le_add_right _ _), Nat.add_sub_cancel_left]
  constructor
  · intro hfused token hmem
    obtain ⟨count, hcount⟩ := List.mem_iff_getElem?.mp hmem
    have hend : lexer.answer? (front.length + 0) = none := by
      rw [answer?_eq_none_iff, hbehind]
      cases back with
      | nil => cases hmem
      | cons first back => simpa using hhead
    exact (answer?_eq_none_iff ..).mp (hfused _ _ (Nat.le_add_right _ count) hend) token
      ((hbehind count).trans hcount)
  · intro hback count later hle hcount
    rw [answer?_eq_none_iff] at hcount ⊢
    intro token hlater
    have hreached : front.length ≤ count := by
      by_contra hbefore
      have hlt := Nat.lt_of_not_le hbefore
      rw [← happend, List.getElem?_append_left hlt, List.getElem?_eq_getElem hlt] at hcount
      exact hfront front[count] (List.getElem_mem hlt) (hcount _ rfl)
    obtain ⟨more, rfl⟩ := Nat.exists_eq_add_of_le (hreached.trans hle)
    rw [hbehind] at hlater
    exact hback token (List.mem_of_getElem? hlater)

theorem Reached.endsTruly {start lexer : Lexer μ} (h : Reached start lexer)
    (hstart : start.EndsTruly) : lexer.EndsTruly := by
  induction h with
  | start => exact hstart
  | next _ ih => exact ih.next
  | pushBack _ hback ih => exact ih.pushBack hback

theorem EndsTruly.kind_ne_endOfInput {lexer : Lexer μ} (h : lexer.EndsTruly) :
    ∀ token ∈ lexer.stream, token.kind ≠ .endOfInput := by
  intro token hmem
  rcases List.mem_append.mp hmem with hpending | hscan
  · exact h.2 token (by simpa using hpending)
  · exact (origin_of_mem_scanAll hscan).kind_ne_endOfInput h.1

theorem EndsTruly.fused {lexer : Lexer μ} (h : lexer.EndsTruly) : lexer.Fused := by
  rw [fused_iff, List.dropWhile_eq_nil_iff.mpr]
  · simp
  · simpa using h.kind_ne_endOfInput

/-- Iterating is fused exactly where behind the first end of the input there is no other token.
Where no spelling ends the input, it is fused whatever calls were made before. -/
theorem fused_of_reached (lexicon : μ) :
    (∀ lexer : Lexer μ, lexer.Fused ↔
      ∀ token ∈ lexer.stream.dropWhile fun token ↦ token.kind ≠ .endOfInput,
        token.kind = .endOfInput) ∧
    (Lexicon.NeverEnds lexicon → ∀ input lexer, Reached (ofString lexicon input) lexer →
      lexer.Fused) := by
  refine ⟨fused_iff, fun hends input lexer hreached ↦ ?_⟩
  have hstart : (ofString lexicon input).EndsTruly := ⟨hends, by rintro token ⟨⟩⟩
  exact (hreached.endsTruly hstart).fused

/-- A spelling that ends the input. -/
def stop : Entries Entry := [("x", { symbol := none, kind := .endOfInput })]

/-- The letter behind the spelling is found after the end. Among bars there is no such spelling, and
the bar that is given back is found again before the end. -/
theorem fused_of_reached_stop : ¬ (ofString stop "x y").Fused ∧
    ∃ back, (ofString bars "|a").next.2.pushBack (ofString bars "|a").next.1 = .ok back ∧
      back.Fused := by
  have hstream : (ofString stop "x y").stream.dropWhile (fun token ↦ token.kind ≠ .endOfInput) =
      [.ofEntry "x" { symbol := none, kind := .endOfInput }, .plain .identifier "y"] := by
    decide +kernel
  have hends : Lexicon.NeverEnds bars := Entries.gives (by decide)
  obtain ⟨later, hnext, hpending, hlater⟩ := (ofString bars "|a").next_eq_ahead
  obtain ⟨back, hback, -⟩ := pushBack_ahead hpending hlater
  have hreached : Reached (ofString bars "|a") (ofString bars "|a").next.2 := .next .start
  rw [hnext] at hreached ⊢
  refine ⟨?_, back, hback, (fused_of_reached bars).2 hends "|a" back (hreached.pushBack hback)⟩
  rw [(fused_of_reached stop).1, hstream]
  simp [Token.plain, Token.ofEntry]

/-! ## How many answers there are -/

/-- Up to the first one that is missing, the answers are the tokens of an iteration. -/
theorem answer?_eq_tokens (lexer : Lexer μ) {count : Nat} (hcount : count ≤ lexer.tokens.length) :
    lexer.answer? count = lexer.tokens[count]? := by
  rw [tokens_eq_takeWhile] at hcount ⊢
  rw [answer?_eq_filter]
  generalize lexer.stream = stream at hcount ⊢
  induction stream generalizing count with
  | nil => rfl
  | cons token stream ih =>
    by_cases hkind : token.kind = .endOfInput
    · obtain rfl : count = 0 := by simpa [hkind] using hcount
      simp [hkind]
    · rw [List.takeWhile_cons_of_pos (by simpa using hkind)] at hcount ⊢
      cases count with
      | zero => simp [hkind]
      | succ count => exact ih (Nat.le_of_succ_le_succ hcount)

/-- A token that is waiting does not end the input, whatever was given back before. -/
theorem Reached.kind_ne_of_pending {start lexer : Lexer μ} (h : Reached start lexer)
    (hstart : start.pending = none) : ∀ token ∈ lexer.pending, token.kind ≠ .endOfInput := by
  induction h with
  | start => simp [hstart]
  | @next lexer _ _ =>
    obtain ⟨later, hnext, hpending, -⟩ := lexer.next_eq_ahead
    simp [hnext, hpending]
  | pushBack _ hback ih =>
    rcases pushBack_eq_ok hback with ⟨-, rfl⟩ | ⟨hkind, rfl⟩
    · exact ih
    · simpa using hkind

theorem length_pending_le_tokens {lexer : Lexer μ}
    (h : ∀ token ∈ lexer.pending, token.kind ≠ .endOfInput) :
    lexer.pending.toList.length ≤ lexer.tokens.length := by
  rw [tokens_eq_takeWhile, stream]
  cases hpending : lexer.pending with
  | none => exact Nat.zero_le _
  | some token =>
    have hkind := h token hpending
    simp [hkind]

/-- Each token that follows was given back or takes up a byte. -/
theorem length_tokens_le (lexer : Lexer μ) :
    lexer.tokens.length ≤ Utf8.size lexer.rest + lexer.pending.toList.length := by
  calc lexer.tokens.length
    _ ≤ lexer.stream.length := by
      rw [tokens_eq_takeWhile]
      exact (List.takeWhile_prefix _).length_le
    _ ≤ lexer.rest.length + lexer.pending.toList.length := lexer.length_stream_le_size
    _ ≤ Utf8.size lexer.rest + lexer.pending.toList.length :=
      Nat.add_le_add_right (Utf8.length_le_size lexer.rest) _

/-- The answers up to the first one that is missing are the tokens of an iteration, and there are as
many as the bounds say, of which the upper one counts the bytes ahead and a token given back. -/
theorem length_tokens_within_sizeBounds (lexicon : μ) {input : String} {lexer : Lexer μ}
    (h : Reached (ofString lexicon input) lexer) :
    (∀ count ≤ lexer.tokens.length, lexer.answer? count = lexer.tokens[count]?) ∧
      lexer.sizeBounds.1 ≤ lexer.tokens.length ∧ lexer.tokens.length ≤ lexer.sizeBounds.2 ∧
      lexer.sizeBounds.2 = lexer.remaining.utf8ByteSize + lexer.pending.toList.length := by
  refine ⟨fun count ↦ lexer.answer?_eq_tokens, ?_, lexer.length_tokens_le, ?_⟩
  · exact length_pending_le_tokens (h.kind_ne_of_pending rfl)
  · rw [sizeBounds, remaining, ← Utf8.size_toList, String.toList_ofList]

/-- Behind a bar a number is given back that was never read. -/
theorem length_tokens_within_sizeBounds_number :
    ∃ back, (ofString bars "|€").next.2.pushBack (.plain .number "7") = .ok back ∧
      back.sizeBounds = (1, 4) ∧ 1 ≤ back.tokens.length ∧ back.tokens.length ≤ 4 := by
  let back : Lexer (Entries Entry) := ⟨bars, ['€'], some (.plain .number "7")⟩
  have hback : (ofString bars "|€").next.2.pushBack (.plain .number "7") = .ok back := rfl
  have hreached : Reached (ofString bars "|€") back := .pushBack (.next .start) hback
  have hbounds : back.sizeBounds = (1, 4) := rfl
  have hwithin := length_tokens_within_sizeBounds bars hreached
  rw [hbounds] at hwithin
  exact ⟨back, hback, hbounds, hwithin.2.1, hwithin.2.2.1⟩

end Lexer

end FormulaMarkup
