import FormulaMarkup.Proofs.Drawing.Writer

/-!
# The output of a formula

The output is the written form of the one element that a formula is drawn as, into any sink that
takes all of it (`Formula.render_some`). Writing stops at the first character that a sink refuses,
wherever in a tag, an attribute or a text that is, and what it took before is what comes before that
character in the output.

A bounded sink refuses the first character that it has no room for. So it is left with as much of
the output as it has room for, and writing succeeds just where that is all of it
(`Formula.writeTo_bounded`).
-/

namespace FormulaMarkup

namespace Formula

/-- What is written of a formula is the written form of the one element that it is drawn as. -/
theorem says_write {σ : Type} [Sink σ] (options : Options) (formula : Formula) :
    (write options (some formula) : Writing σ Unit).Says
      ((formula.markup options).map (Markup.chars options.escapeNonAscii)) := by
  have hcontent : (Writing.node .omit ⟨formula, formula.content options⟩ : Writing σ Unit).Writes
      options _ := (isDrawn options formula).node .omit
  have hback : (Writing.put "</math>" : Writing σ Unit) =
      Writing.chars (Markup.closeTag Tag.math.name) := rfl
  have hdocument := hcontent.element .math options.attributes (Writing.startTag_document options)
    hback
  simp only [bind_assoc] at hdocument
  refine Writing.Says.congr hdocument ?_
  rw [markup]
  cases formula.draw options with
  | error => rfl
  | ok drawing => exact congrArg Except.ok (List.append_nil _)

theorem render_some (options : Options) (formula : Formula) :
    render options (some formula) =
      (formula.markup options).map (Markup.write options.escapeNonAscii) := by
  have hchars : ∀ cs, (Writing.chars cs : Writing String Unit) "" = .ok () (String.ofList cs) := by
    intro cs
    rw [Writing.chars, Sink.putChars_string, String.empty_append]
  have hsays := @says_write String _ options formula
  rw [render, writeTo]
  generalize formula.markup options = outcome at hsays ⊢
  generalize (write options (some formula) : Writing String Unit) = writing at hsays ⊢
  cases outcome with
  | error fault =>
    cases hsays with
    | @fault front _ h =>
      have hrun : writing "" = .error (.fault fault) (String.ofList front) := by
        rw [h]
        change EStateM.bind (Writing.chars front : Writing String Unit) _ "" = _
        rw [EStateM.bind, hchars]
        rfl
      rw [hrun]
      rfl
  | ok markup =>
    cases hsays with
    | text h =>
      rw [h, hchars]
      rfl

/-- Into any sink, what is written of a formula is what it is rendered as. -/
theorem writeTo_eq_putChars {σ : Type} [Sink σ] {options : Options} {tree : Option Formula}
    {output : String} (h : render options tree = .ok output) (sink : σ) :
    writeTo options sink tree = .ok (Sink.putChars output.toList sink) := by
  cases tree with
  | none =>
    cases h
    rfl
  | some formula =>
    rw [render_some] at h
    obtain ⟨markup, hmarkup, rfl⟩ := exists_of_map_eq_ok h
    have hsays := @says_write σ _ options formula
    rw [hmarkup] at hsays
    cases hsays with
    | text hwrite =>
      rw [writeTo, hwrite, Writing.chars, Markup.write, String.toList_ofList]
      cases Sink.putChars (markup.chars options.escapeNonAscii) sink with
      | ok => rfl
      | error => rfl

/-- Writing to a sink is putting the rendered formula there up to the first character that the sink
refuses. A sink with room for some characters is left with that many of them, and writing to it
succeeds if and only if these are all. Where there is no formula it is not touched. -/
theorem writeTo_bounded {options : Options} {tree : Option Formula} {output : String}
    (h : render options tree = .ok output) (room : Nat) :
    (∀ (σ : Type) [Sink σ] (sink : σ),
      writeTo options sink tree = .ok (Sink.putChars output.toList sink)) ∧
    ∃ result, writeTo options ({ room } : Bounded) tree = .ok result ∧
      (Sink.reached result).written =
        String.ofList (output.toList.take (min room output.length)) ∧
      ((∃ sink, result = .ok sink) ↔ output.length ≤ room) ∧
      (tree = none → result = .ok { room }) := by
  refine ⟨fun σ _ sink ↦ writeTo_eq_putChars h sink, _, writeTo_eq_putChars h _, ?_, ?_, ?_⟩
  · rw [← String.length_toList]
    exact Bounded.written_putChars output.toList room
  · rw [← String.length_toList]
    exact Bounded.isOk_putChars_iff output.toList room
  · rintro rfl
    cases h
    rfl

/-- The room ends within the reference for a character of markup. -/
theorem writeTo_bounded_reference :
    render {} (some (.text "a<b")) = .ok "<math><mtext>a&lt;b</mtext></math>" ∧
      ∃ result, writeTo {} ({ room := 16 } : Bounded) (some (.text "a<b")) = .ok result ∧
        (Sink.reached result).written = "<math><mtext>a&l" ∧ ¬ ∃ sink, result = .ok sink := by
  have hrender : render {} (some (.text "a<b")) = .ok "<math><mtext>a&lt;b</mtext></math>" := by
    rfl
  obtain ⟨-, result, hresult, hwritten, hok, -⟩ := writeTo_bounded hrender 16
  exact ⟨hrender, result, hresult, hwritten, fun hsink ↦ absurd (hok.mp hsink) (by decide)⟩

end Formula

end FormulaMarkup
