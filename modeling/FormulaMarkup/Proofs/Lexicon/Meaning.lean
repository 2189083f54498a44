import FormulaMarkup.Lexicon.Basic
import FormulaMarkup.Proofs.Text.Utf8

/-!
# What a lexicon means

`IsLast` says which value the last entry of a key gives, and `Entries.IsLongest` which key is the
longest one at the front of a text. A lexicon means a list of entries if it answers all queries
accordingly (`Lexicon.Means`); then each hit ends between two characters, and the answers do not
depend on the data structure (`Lexicon.Means.longest?_eq`).

It is enough to look at the longest keys (`Lexicon.Means.of_answers`). The list of entries means
itself (`Entries.means`). What holds of the value of each entry holds of every answer
(`Lexicon.Means.gives`), which is how facts about a table reach the tokens.
-/

namespace FormulaMarkup

/-! ## The last value of a key -/

section Last

variable {κ ι α : Type}

/-- The value is the last one that is given for the key. -/
def IsLast (entries : List (κ × α)) (key : κ) (value : α) : Prop :=
  ∃ before after, entries = before ++ (key, value) :: after ∧ ∀ entry ∈ after, entry.1 ≠ key

variable {entries : List (κ × α)} {entry : κ × α} {key : κ} {value : α}

theorem not_isLast_nil : ¬ IsLast ([] : List (κ × α)) key value := by
  rintro ⟨before, after, heq, -⟩
  simp at heq

theorem isLast_cons (entry : κ × α) : IsLast (entry :: entries) key value ↔
    IsLast entries key value ∨ entry = (key, value) ∧ ∀ other ∈ entries, other.1 ≠ key := by
  constructor
  · rintro ⟨before, after, heq, hafter⟩
    cases before with
    | nil =>
      obtain ⟨rfl, rfl⟩ := List.cons.inj heq
      exact .inr ⟨rfl, hafter⟩
    | cons first before =>
      obtain ⟨rfl, rfl⟩ := List.cons.inj heq
      exact .inl ⟨before, after, rfl, hafter⟩
  · rintro (⟨before, after, rfl, hafter⟩ | ⟨rfl, hafter⟩)
    · exact ⟨entry :: before, after, rfl, hafter⟩
    · exact ⟨[], entries, rfl, hafter⟩

theorem isLast_concat : IsLast (entries ++ [entry]) key value ↔
    entry = (key, value) ∨ entry.1 ≠ key ∧ IsLast entries key value := by
  constructor
  · rintro ⟨before, after, heq, hafter⟩
    cases after using List.reverseRecOn with
    | nil => exact .inl (List.append_inj_right' heq rfl |> List.cons.inj).1
    | append_singleton after last =>
      rw [← List.cons_append, ← List.append_assoc] at heq
      obtain ⟨rfl, hlast⟩ := List.append_inj' heq rfl
      obtain rfl := (List.cons.inj hlast).1
      rw [List.forall_mem_append, List.forall_mem_singleton] at hafter
      exact .inr ⟨hafter.2, before, after, rfl, hafter.1⟩
  · rintro (rfl | ⟨hne, before, after, rfl, hafter⟩)
    · exact ⟨entries, [], rfl, by simp⟩
    · refine ⟨before, after ++ [entry], by simp, ?_⟩
      rw [List.forall_mem_append, List.forall_mem_singleton]
      exact ⟨hafter, hne⟩

theorem IsLast.mem (h : IsLast entries key value) : (key, value) ∈ entries := by
  obtain ⟨before, after, rfl, -⟩ := h
  simp

theorem IsLast.unique {other : α} (h : IsLast entries key value)
    (hother : IsLast entries key other) : value = other := by
  induction entries using List.reverseRecOn with
  | nil => exact absurd h not_isLast_nil
  | append_singleton entries entry ih =>
    rcases isLast_concat.mp h with rfl | ⟨hne, h⟩
    · rcases isLast_concat.mp hother with heq | ⟨hne, -⟩
      · exact (Prod.mk.inj heq).2
      · exact absurd rfl hne
    · rcases isLast_concat.mp hother with rfl | ⟨-, hother⟩
      · exact absurd rfl hne
      · exact ih h hother

theorem exists_isLast_of_mem (h : entry ∈ entries) : ∃ value, IsLast entries entry.1 value := by
  induction entries using List.reverseRecOn with
  | nil => cases h
  | append_singleton entries last ih =>
    by_cases heq : last.1 = entry.1
    · exact ⟨last.2, isLast_concat.mpr (.inl (Prod.ext heq rfl))⟩
    · rcases List.mem_append.mp h with hmem | hmem
      · obtain ⟨value, hvalue⟩ := ih hmem
        exact ⟨value, isLast_concat.mpr (.inr ⟨heq, hvalue⟩)⟩
      · rw [List.mem_singleton.mp hmem] at heq
        exact absurd rfl heq

/-- Other names for the keys do not change which value is the last. -/
theorem isLast_map {name : κ → ι} (hname : Function.Injective name) :
    IsLast (entries.map fun entry ↦ (name entry.1, entry.2)) (name key) value ↔
      IsLast entries key value := by
  induction entries with
  | nil => exact iff_of_false not_isLast_nil not_isLast_nil
  | cons entry entries ih =>
    rw [List.map_cons, isLast_cons, isLast_cons, ih, List.forall_mem_map]
    simp only [Prod.ext_iff, ne_eq, hname.eq_iff]

/-- An insertion that replaces the value of its key, done for each entry in turn, leaves the last
value of each key. -/
theorem get?_foldl_iff {σ : Type} {insert : σ → κ → α → σ} {get? : σ → κ → Option α} {empty : σ}
    (hempty : ∀ key, get? empty key = none)
    (hself : ∀ table key value, get? (insert table key value) key = some value)
    (hother : ∀ table key value other, key ≠ other →
      get? (insert table key value) other = get? table other) :
    get? (entries.foldl (fun table entry ↦ insert table entry.1 entry.2) empty) key = some value ↔
      IsLast entries key value := by
  induction entries using List.reverseRecOn with
  | nil => simp [hempty, not_isLast_nil]
  | append_singleton entries entry ih =>
    rw [List.foldl_append, List.foldl_cons, List.foldl_nil, isLast_concat]
    by_cases heq : entry.1 = key
    · subst heq
      simp [hself, Prod.ext_iff]
    · rw [hother _ _ _ _ heq, ih]
      simp [Prod.ext_iff, heq]

end Last

/-! ## The longest key -/

variable {α : Type}

namespace Entries

/-- The hit is the longest key at the front of the text, with the last value of that key. -/
def IsLongest (entries : Entries α) (text : List Char) (hit : Hit α) : Prop :=
  ∃ key : String, key.toList <+: text ∧ hit.size = key.utf8ByteSize ∧ IsLast entries key hit.value ∧
    ∀ entry ∈ entries, entry.1.toList <+: text → entry.1.utf8ByteSize ≤ key.utf8ByteSize

/-- The answer that the entries give to a text. -/
def Answers (entries : Entries α) (text : List Char) : Option (Hit α) → Prop
  | some hit => entries.IsLongest text hit
  | none => ∀ entry ∈ entries, ¬ entry.1.toList <+: text

variable {entries : Entries α} {text : List Char} {hit : Hit α}

theorem IsLongest.unique {other : Hit α} (h : entries.IsLongest text hit)
    (hother : entries.IsLongest text other) : hit = other := by
  obtain ⟨key, hkey, hsize, hlast, hlongest⟩ := h
  obtain ⟨key', hkey', hsize', hlast', hlongest'⟩ := hother
  have heq : key.utf8ByteSize = key'.utf8ByteSize :=
    Nat.le_antisymm (hlongest' _ hlast.mem hkey) (hlongest _ hlast'.mem hkey')
  obtain rfl : key = key' := by
    rw [← Utf8.size_toList, ← Utf8.size_toList] at heq
    exact String.toList_inj.mp (Utf8.eq_of_size_eq hkey hkey' heq)
  rcases hit with ⟨size, value⟩
  rcases other with ⟨size', value'⟩
  simp only [Hit.mk.injEq]
  exact ⟨hsize.trans hsize'.symm, hlast.unique hlast'⟩

theorem Answers.unique {answer other : Option (Hit α)} (h : entries.Answers text answer)
    (hother : entries.Answers text other) : answer = other := by
  have hexcluded : ∀ {hit}, entries.IsLongest text hit →
      ¬ ∀ entry ∈ entries, ¬ entry.1.toList <+: text := by
    rintro hit ⟨key, hkey, -, hlast, -⟩ hnone
    exact hnone _ hlast.mem hkey
  cases answer with
  | none =>
    cases other with
    | none => rfl
    | some other => exact absurd h (hexcluded hother)
  | some hit =>
    cases other with
    | none => exact absurd hother (hexcluded h)
    | some other => exact congrArg some (IsLongest.unique h hother)

/-- A whole text that is a key is the longest one. -/
theorem isLongest_self (key : String) {value : α} (h : IsLast entries key value) :
    entries.IsLongest key.toList ⟨key.utf8ByteSize, value⟩ := by
  refine ⟨key, List.prefix_rfl, rfl, h, ?_⟩
  rintro entry - ⟨rest, hrest⟩
  rw [← Utf8.size_toList, ← Utf8.size_toList, ← hrest, Utf8.size_append]
  exact Nat.le_add_right _ _

/-- An answer to a front of a text is one to the text if no longer front is a key. -/
theorem Answers.of_isPrefix {front : List Char} {answer : Option (Hit α)}
    (h : entries.Answers front answer) (hfront : front <+: text)
    (hkeys : ∀ entry ∈ entries, entry.1.toList <+: text → entry.1.toList <+: front) :
    entries.Answers text answer := by
  cases answer with
  | none => exact fun entry hmem hfits ↦ h entry hmem (hkeys entry hmem hfits)
  | some hit =>
    obtain ⟨key, hkey, hsize, hlast, hlongest⟩ := h
    exact ⟨key, hkey.trans hfront, hsize, hlast,
      fun entry hmem hfits ↦ hlongest entry hmem (hkeys entry hmem hfits)⟩

end Entries

namespace Lexicon

variable {μ ν : Type} [Lexicon μ α] [Lexicon ν α]

/-- All answers of a lexicon have the property. -/
def Gives (lexicon : μ) (property : α → Prop) : Prop :=
  ∀ text hit, longest? lexicon text = some hit → property hit.value

/-- The lexicon answers to all queries as the entries mean it. -/
structure Means (lexicon : μ) (entries : Entries α) : Prop where
  longest?_eq_some : ∀ text hit, longest? lexicon text = some hit ↔ entries.IsLongest text hit
  longest?_eq_none : ∀ text, longest? lexicon text = none ↔
    ∀ entry ∈ entries, ¬ entry.1.toList <+: text
  value?_eq_some : ∀ (key : String) (value : α),
    value? lexicon key.toList = some value ↔ IsLast entries key value
  value?_eq_none : ∀ key : String, value? lexicon key.toList = none ↔
    ∀ entry ∈ entries, entry.1 ≠ key

variable {lexicon : μ} {entries : Entries α}

theorem isLast_of_value?_eq_some
    (h : ∀ text, entries.Answers text (longest? lexicon text)) {key : String} {value : α}
    (hvalue : value? lexicon key.toList = some value) : IsLast entries key value := by
  have hanswers := h key.toList
  unfold value? at hvalue
  split at hvalue
  · next hit hhit =>
    rw [hhit] at hanswers
    split at hvalue
    · next hsize =>
      cases hvalue
      obtain ⟨found, hfound, hhit, hlast, -⟩ := hanswers
      rw [hsize, ← Utf8.size_toList] at hhit
      have heq := String.toList_inj.mp (Utf8.eq_of_size_eq hfound List.prefix_rfl hhit.symm)
      exact heq ▸ hlast
    · cases hvalue
  · cases hvalue

theorem value?_eq_some_of_isLast
    (h : ∀ text, entries.Answers text (longest? lexicon text)) {key : String} {value : α}
    (hlast : IsLast entries key value) : value? lexicon key.toList = some value := by
  have hanswers := h key.toList
  unfold value?
  cases hhit : longest? lexicon key.toList with
  | none =>
    rw [hhit] at hanswers
    exact absurd List.prefix_rfl (hanswers _ hlast.mem)
  | some hit =>
    rw [hhit] at hanswers
    obtain rfl := Entries.IsLongest.unique hanswers (Entries.isLongest_self key hlast)
    exact if_pos (Utf8.size_toList key).symm

/-- All queries are about the longest keys. -/
theorem Means.of_answers (h : ∀ text, entries.Answers text (longest? lexicon text)) :
    Means lexicon entries where
  longest?_eq_some text hit := by
    constructor
    · intro hhit
      have hanswers := h text
      rwa [hhit] at hanswers
    · intro hlongest
      have hother : entries.Answers text (some hit) := hlongest
      exact (h text).unique hother
  longest?_eq_none text := by
    constructor
    · intro hnone
      have hanswers := h text
      rwa [hnone] at hanswers
    · intro hnone
      have hother : entries.Answers text none := hnone
      exact (h text).unique hother
  value?_eq_some key value := ⟨isLast_of_value?_eq_some h, value?_eq_some_of_isLast h⟩
  value?_eq_none key := by
    constructor
    · rintro hnone entry hmem rfl
      obtain ⟨value, hlast⟩ := exists_isLast_of_mem hmem
      rw [value?_eq_some_of_isLast h hlast] at hnone
      cases hnone
    · intro hnone
      by_contra hsome
      obtain ⟨value, hvalue⟩ := Option.ne_none_iff_exists'.mp hsome
      exact hnone _ (isLast_of_value?_eq_some h hvalue).mem rfl

theorem Means.answers (h : Means lexicon entries) (text : List Char) :
    entries.Answers text (longest? lexicon text) := by
  cases hhit : longest? lexicon text with
  | none => exact (h.longest?_eq_none text).mp hhit
  | some hit => exact (h.longest?_eq_some text hit).mp hhit

/-- The entries alone decide an answer. -/
theorem Means.longest?_eq {other : ν} (h : Means lexicon entries) (hother : Means other entries)
    (text : List Char) : longest? lexicon text = longest? other text :=
  (h.answers text).unique (hother.answers text)

/-- A hit ends between two characters. -/
theorem Means.exists_front (h : Means lexicon entries) {text : List Char} {hit : Hit α}
    (hhit : longest? lexicon text = some hit) :
    ∃ front rest, text = front ++ rest ∧ hit.size = Utf8.size front := by
  obtain ⟨key, ⟨rest, hrest⟩, hsize, -, -⟩ := (h.longest?_eq_some text hit).mp hhit
  exact ⟨key.toList, rest, hrest.symm, by rw [hsize, Utf8.size_toList]⟩

/-- What holds of the value of each entry holds of all answers. -/
theorem Means.gives {property : α → Prop} (h : Means lexicon entries)
    (hentries : ∀ entry ∈ entries, property entry.2) : Gives lexicon property := by
  intro text hit hhit
  obtain ⟨key, -, -, hlast, -⟩ := (h.longest?_eq_some text hit).mp hhit
  exact hentries _ hlast.mem

end Lexicon

/-! ## The list of entries -/

namespace Entries

theorem last?_eq_some_iff {entries : Entries α} {key : String} {value : α} :
    entries.last? key.toList = some value ↔ IsLast entries key value := by
  simp only [last?, String.toList_inj]
  induction entries using List.reverseRecOn with
  | nil => simp [not_isLast_nil]
  | append_singleton entries entry ih =>
    rw [List.reverse_append, List.reverse_singleton, List.singleton_append, List.find?_cons,
      isLast_concat, ← ih]
    by_cases heq : entry.1 = key
    · simp [heq, Prod.ext_iff]
    · simp [heq, Prod.ext_iff]

theorem ne_of_last?_eq_none {entries : Entries α} (key : String)
    (h : entries.last? key.toList = none) : ∀ entry ∈ entries, entry.1 ≠ key := by
  rintro entry hmem rfl
  obtain ⟨value, hlast⟩ := exists_isLast_of_mem hmem
  rw [last?_eq_some_iff.mpr hlast] at h
  cases h

theorem eq_take_or_isPrefix_take {front text : List Char} {count : Nat}
    (h : front <+: text.take (count + 1)) :
    front = text.take (count + 1) ∨ front <+: text.take count := by
  by_cases hle : front.length ≤ count
  · exact .inr (List.prefix_take_iff.mpr ⟨h.trans (List.take_prefix _ _), hle⟩)
  · refine .inl (h.eq_of_length_le ?_)
    have := List.length_take_le (count + 1) text
    omega

theorem answers_longestWithin? (entries : Entries α) (text : List Char) (count : Nat) :
    entries.Answers (text.take count) (entries.longestWithin? text count) := by
  induction count with
  | zero =>
    rw [longestWithin?, List.take_zero]
    cases hlast : entries.last? [] with
    | none =>
      intro entry hmem hfits
      exact ne_of_last?_eq_none "" hlast entry hmem
        (String.toList_inj.mp (List.prefix_nil.mp hfits))
    | some value => exact isLongest_self "" (last?_eq_some_iff.mp hlast)
  | succ count ih =>
    obtain ⟨key, hkey⟩ : ∃ key : String, text.take (count + 1) = key.toList :=
      ⟨String.ofList _, String.toList_ofList.symm⟩
    rw [longestWithin?]
    cases hlast : entries.last? (text.take (count + 1)) with
    | none =>
      apply ih.of_isPrefix (List.take_prefix_take_left (Nat.le_succ count))
      intro entry hmem hfits
      refine (eq_take_or_isPrefix_take hfits).resolve_left fun heq ↦ ?_
      rw [hkey] at hlast heq
      exact ne_of_last?_eq_none _ hlast entry hmem (String.toList_inj.mp heq)
    | some value =>
      rw [hkey] at hlast ⊢
      rw [Utf8.size_toList]
      exact isLongest_self _ (last?_eq_some_iff.mp hlast)

/-- A list of entries, as a lexicon, means itself. -/
theorem means (entries : Entries α) : Lexicon.Means entries entries := by
  apply Lexicon.Means.of_answers
  intro text
  have hanswers := answers_longestWithin? entries text text.length
  rwa [List.take_length] at hanswers

theorem gives {entries : Entries α} {property : α → Prop}
    (h : ∀ entry ∈ entries, property entry.2) : Lexicon.Gives entries property :=
  (means entries).gives h

end Entries

end FormulaMarkup
