import FormulaMarkup.Markup.Sink

/-!
# What a sink takes

Texts put one after another are put like one text, up to the first character that is refused. A
string refuses none. A bounded sink refuses the first character that it has no room for, so it is
left with as much of a text as it has room for, and putting succeeds just where that is all of it.
-/

namespace FormulaMarkup

namespace Sink

variable {σ : Type} [Sink σ]

/-- The sink with what it took, whether or not it refused a character. -/
def reached : Except σ σ → σ
  | .ok sink | .error sink => sink

/-- Characters are put one after another. -/
theorem putChars_append (front rest : List Char) (sink : σ) :
    putChars (front ++ rest) sink = (putChars front sink).bind (putChars rest) := by
  induction front generalizing sink with
  | nil => rfl
  | cons c front ih =>
    rw [List.cons_append, putChars, putChars]
    cases put? sink c with
    | none => rfl
    | some sink => exact ih sink

theorem putChars_string (cs : List Char) (text : String) :
    putChars cs text = .ok (text ++ String.ofList cs) := by
  induction cs generalizing text with
  | nil => simp [putChars]
  | cons c cs ih =>
    have hput : put? text c = some (text.push c) := rfl
    rw [putChars, hput]
    refine (ih (text.push c)).trans (congrArg Except.ok ?_)
    rw [← String.toList_inj]
    simp

end Sink

namespace Bounded

/-- A bounded sink takes as many characters as it has room for. -/
theorem putChars_eq (cs : List Char) (room : Nat) (taken : List Char) :
    Sink.putChars cs (⟨room, taken⟩ : Bounded) =
      if cs.length ≤ room then .ok ⟨room - cs.length, cs.reverse ++ taken⟩
      else .error ⟨0, (cs.take room).reverse ++ taken⟩ := by
  induction cs generalizing room taken with
  | nil => simp [Sink.putChars]
  | cons c cs ih =>
    cases room with
    | zero => simp [Sink.putChars, Sink.put?]
    | succ room =>
      have hput : Sink.put? (⟨room + 1, taken⟩ : Bounded) c = some ⟨room, c :: taken⟩ := rfl
      rw [Sink.putChars, hput]
      simp only [ih, List.length_cons, Nat.add_le_add_iff_right, Nat.add_sub_add_right,
        List.reverse_cons, List.take_succ_cons, List.append_assoc, List.singleton_append]

theorem written_putChars (cs : List Char) (room : Nat) :
    (Sink.reached (Sink.putChars cs (⟨room, []⟩ : Bounded))).written =
      String.ofList (cs.take (min room cs.length)) := by
  rw [putChars_eq]
  split
  · next hroom => simp [Sink.reached, written, Nat.min_eq_right hroom]
  · next hfull => simp [Sink.reached, written, Nat.min_eq_left (Nat.le_of_not_le hfull)]

theorem isOk_putChars_iff (cs : List Char) (room : Nat) :
    (∃ sink : Bounded, Sink.putChars cs ⟨room, []⟩ = .ok sink) ↔ cs.length ≤ room := by
  rw [putChars_eq]
  split
  · next hroom => exact iff_of_true ⟨_, rfl⟩ hroom
  · next hfull => exact iff_of_false (by rintro ⟨sink, ⟨⟩⟩) hfull

end Bounded

/-! ## Writing -/

namespace Writing

variable {σ : Type} [Sink σ]

@[simp]
theorem chars_nil : (chars [] : Writing σ Unit) = pure () := rfl

theorem chars_append (front rest : List Char) :
    (chars (front ++ rest) : Writing σ Unit) = (do chars front; chars rest) := by
  funext sink
  rw [chars, Sink.putChars_append]
  change _ = EStateM.bind (chars front) (fun _ ↦ chars rest) sink
  rw [EStateM.bind, chars]
  cases Sink.putChars front sink with
  | ok sink => rfl
  | error sink => rfl

theorem putAll_eq_chars (pieces : List String) :
    (putAll pieces : Writing σ Unit) = chars (pieces.flatMap String.toList) := by
  induction pieces with
  | nil => rfl
  | cons piece pieces ih => rw [putAll, ih, List.flatMap_cons, chars_append, put]

theorem escaped_eq_chars (nonAscii quotes : Bool) (text : List Char) :
    (escaped nonAscii quotes text : Writing σ Unit) =
      chars (Markup.escape nonAscii quotes text) := by
  induction text with
  | nil => rfl
  | cons c text ih => rw [escaped, ih, Markup.escape_cons, chars_append]

/-- The writing puts a text, or the front of one and ends there in a fault. -/
inductive Says (writing : Writing σ Unit) : Except Fault (List Char) → Prop
  | text {text : List Char} (h : writing = chars text) : Says writing (.ok text)
  | fault {front : List Char} {fault : Fault}
      (h : writing = (do chars front; throw (.fault fault))) : Says writing (.error fault)

theorem says_chars (text : List Char) : (chars text : Writing σ Unit).Says (.ok text) := .text rfl

theorem says_throw (fault : Fault) :
    (throw (.fault fault) : Writing σ Unit).Says (.error fault) := by
  have hfront : (throw (.fault fault) : Writing σ Unit) = (do chars []; throw (.fault fault)) := by
    rw [chars_nil, pure_bind]
  exact .fault hfront

theorem Says.congr {writing : Writing σ Unit} {outcome outcome' : Except Fault (List Char)}
    (h : writing.Says outcome) (heq : outcome = outcome') : writing.Says outcome' := heq ▸ h

/-- One writing after another says both texts, and nothing of the second behind a fault. -/
theorem Says.append {first second : Writing σ Unit} {outcome outcome' : Except Fault (List Char)}
    (h : first.Says outcome) (h' : second.Says outcome') :
    (do first; second : Writing σ Unit).Says (do return (← outcome) ++ (← outcome')) := by
  cases h with
  | fault h =>
    rw [h, bind_assoc]
    exact .fault (congrArg _ (funext fun _ ↦ rfl))
  | @text front h =>
    cases h' with
    | text h' => exact .text (by rw [h, h', chars_append])
    | @fault later fault h' =>
      have hboth : (do first; second : Writing σ Unit) =
          (do chars (front ++ later); throw (.fault fault)) := by
        rw [h, h', chars_append, bind_assoc]
      exact .fault hboth

end Writing

end FormulaMarkup
