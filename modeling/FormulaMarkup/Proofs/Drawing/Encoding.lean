import FormulaMarkup.Proofs.Drawing.Respelling
import FormulaMarkup.Proofs.Markup.References

/-!
# What the encoding changes

Whether characters that are not ASCII are written as references matters to the writer in its texts
and attributes only, and no drawing depends on it. The values that it puts without an escape are
plain ASCII (`Symbol.isPlain_font`, `Rgb.isPlain_hexDigits`), so an escape would leave them as they
are. The two outputs of a formula are then the same markup written in two ways, and the one without
references is what the other one is decoded to (`Formula.render_decoded`).
-/

namespace FormulaMarkup.Formula

theorem draw_escapeNonAscii (options : Options) (escapes : Bool) (formula : Formula) :
    draw { options with escapeNonAscii := escapes } formula = draw options formula := by
  induction formula with
  | empty | number | text | identifier | symbol | color => rfl
  | sequence items ih =>
    have hitems := drawItems_map ih
    rw [List.map_id'] at hitems
    rw [draw, draw, hitems]
  | bracketed left body right ih =>
    have hbody := drawBody_map ih
    rw [Option.map_id'] at hbody
    rw [draw, draw, hbody]
    rfl
  | grouped left body right ih =>
    have hbody := drawBody_map ih
    rw [Option.map_id'] at hbody
    rw [draw, draw, hbody]
  | matrix left rows right ih =>
    have hrows := drawRows_map ih
    simp only [List.map_id'] at hrows
    rw [draw, draw, hrows]
    rfl
  | unary operator operand ih =>
    rw [draw, draw, ih]
    rfl
  | binary operator first second ihfirst ihsecond =>
    rw [draw, draw, ihfirst, ihsecond]
    rfl
  | infixOp operator first second ihfirst ihsecond =>
    rw [draw, draw, ihfirst, ihsecond]
    rfl
  | sub base script ihbase ihscript | sup base script ihbase ihscript =>
    rw [draw, draw, ihbase, ihscript]
  | subSup base lower upper ihbase ihlower ihupper =>
    rw [draw, draw, ihbase, ihlower, ihupper]

theorem markup_escapeNonAscii (options : Options) (escapes : Bool) (formula : Formula) :
    markup { options with escapeNonAscii := escapes } formula = markup options formula := by
  rw [markup, markup, draw_escapeNonAscii]
  rfl

theorem render_escapeNonAscii (options : Options) (escapes : Bool) (formula : Formula) :
    render { options with escapeNonAscii := escapes } (some formula) =
      (formula.markup options).map (Markup.write escapes) := by
  rw [render_some, markup_escapeNonAscii]

/-- What is written with references is ASCII, and with these references decoded it is what is
written without them. -/
theorem render_decoded (options : Options) (tree : Option Formula) :
    render { options with escapeNonAscii := false } tree =
        (render { options with escapeNonAscii := true } tree).map
          (fun output ↦ String.ofList (Markup.decode output.toList)) ∧
      ∀ output, render { options with escapeNonAscii := true } tree = .ok output →
        ∀ c ∈ output.toList, c.toNat < 0x80 := by
  cases tree with
  | none =>
    refine ⟨rfl, ?_⟩
    rintro _ ⟨⟩
    exact List.forall_mem_nil _
  | some formula =>
    rw [render_escapeNonAscii, render_escapeNonAscii]
    cases formula.markup options with
    | error fault =>
      refine ⟨rfl, ?_⟩
      rintro _ ⟨⟩
    | ok markup =>
      refine ⟨congrArg Except.ok (Markup.decode_write markup), ?_⟩
      rintro _ ⟨⟩
      rw [Markup.write, String.toList_ofList]
      exact (Markup.encodes_chars markup).isAscii

/-- A letter that is not ASCII, before a text that looks like a reference. -/
def accented : Formula := .sup (.text "\u03b1") (.text "&#xE9;")

def accentedOutput : String :=
  "<math title=\"&#xE9;\"><msup><mtext>&#x3B1;</mtext><mtext>&amp;#xE9;</mtext></msup></math>"

theorem render_decoded_accented :
    let options : Options := { title := some "\u00e9" }
    render { options with escapeNonAscii := true } (some accented) = .ok accentedOutput ∧
      render { options with escapeNonAscii := false } (some accented) =
        .ok ("<math title=\"\u00e9\"><msup><mtext>\u03b1</mtext>" ++
          "<mtext>&amp;#xE9;</mtext></msup></math>") ∧
      ∀ c ∈ accentedOutput.toList, c.toNat < 0x80 := by
  intro options
  obtain ⟨hdecoded, hascii⟩ := render_decoded options (some accented)
  have hrender : render { options with escapeNonAscii := true } (some accented) =
      .ok accentedOutput := by
    rw [render_some]
    rfl
  rw [hrender] at hdecoded
  exact ⟨hrender, hdecoded, hascii accentedOutput hrender⟩

end FormulaMarkup.Formula
