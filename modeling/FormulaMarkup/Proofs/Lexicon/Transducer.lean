import FormulaMarkup.Lexicon.Transducer
import FormulaMarkup.Proofs.Lexicon.Bytes
import FormulaMarkup.Proofs.Lexicon.KeepLast

/-!
# Streamed keys answer as their entries mean

`LawfulKeyMap` says what a lexicon of indexed values relies on: a map can be built from ascending
keys, knows them exactly, and streams those that an automaton accepts. The sorted entries, each key
with its last value, have ascending keys, and the index of a value stays its place
(`Indexed.exists_holds_ofEntries?`). The streamed fronts of a text ascend, so the last one is the
longest (`Indexed.frontAnswers_longestIndex?`). Hence the lexicon means its entries, whatever the
map, and `KeyList` is lawful.
-/

namespace FormulaMarkup

/-! ## Automata -/

namespace Automaton

variable {σ : Type}

/-- From a state that may not accept no key is accepted. -/
def Sound (automaton : Automaton σ) : Prop :=
  ∀ state key, automaton.mayAccept state = false → automaton.acceptsFrom state key = false

theorem acceptsFrom_cons (automaton : Automaton σ) (state : σ) (byte : UInt8) (key : List UInt8) :
    automaton.acceptsFrom state (byte :: key) =
      automaton.acceptsFrom (automaton.advance state byte) key := rfl

theorem acceptsFrom_frontOf_none (text key : List UInt8) :
    (frontOf text).acceptsFrom none key = false := by
  induction key with
  | nil => rfl
  | cons byte key ih => exact ih

theorem sound_frontOf (text : List UInt8) : (frontOf text).Sound := by
  intro state key hmay
  obtain rfl : state = none := Option.not_isSome_iff_eq_none.mp (Bool.eq_false_iff.mp hmay)
  exact acceptsFrom_frontOf_none text key

theorem acceptsFrom_frontOf_some {text key : List UInt8} {count : Nat} :
    (frontOf text).acceptsFrom (some count) key = true ↔ key <+: text.drop count := by
  induction key generalizing count with
  | nil => exact iff_of_true rfl List.nil_prefix
  | cons byte key ih =>
    rw [acceptsFrom_cons]
    by_cases hbyte : text[count]? = some byte
    · obtain ⟨hlt, rfl⟩ := List.getElem?_eq_some_iff.mp hbyte
      have hadvance : (frontOf text).advance (some count) text[count] = some (count + 1) :=
        if_pos hbyte
      rw [hadvance, ih, List.drop_eq_getElem_cons hlt, List.cons_prefix_cons]
      exact iff_and_self.mpr fun _ ↦ rfl
    · have hadvance : (frontOf text).advance (some count) byte = none := if_neg hbyte
      rw [hadvance, acceptsFrom_frontOf_none]
      refine iff_of_false Bool.false_ne_true ?_
      rintro ⟨rest, hrest⟩
      apply hbyte
      rw [← Nat.add_zero count, ← List.getElem?_drop, ← hrest]
      rfl

/-- The automaton of a text accepts its fronts. -/
theorem acceptsFrom_frontOf_start {text key : List UInt8} :
    (frontOf text).acceptsFrom (frontOf text).start key = true ↔ key <+: text :=
  acceptsFrom_frontOf_some

end Automaton

/-! ## What a map is relied on for -/

/-- Entries whose keys come one after another in byte order. -/
def Ascending (entries : List (List UInt8 × Nat)) : Prop :=
  entries.Pairwise fun a b ↦ a.1 < b.1

namespace KeyMap

variable {μ : Type} [KeyMap μ]

/-- Adds the entries one by one. -/
def insertAll? (builder : Builder μ) (entries : List (List UInt8 × Nat)) : Option (Builder μ) :=
  entries.foldlM (fun builder entry ↦ insert? builder entry.1 entry.2) builder

/-- The map knows the entries, and streams those that are accepted. It may stream the empty key or
leave it out. -/
structure Holds (map : μ) (entries : List (List UInt8 × Nat)) : Prop where
  get?_eq_some : ∀ key index, get? map key = some index ↔ (key, index) ∈ entries
  search_eq : ∀ (σ : Type) (automaton : Automaton σ), automaton.Sound →
    ((search map automaton).filter fun entry ↦ !entry.1.isEmpty) =
      entries.filter fun entry ↦
        !entry.1.isEmpty && automaton.acceptsFrom automaton.start entry.1

end KeyMap

/-- Maps that can be built from ascending keys, and then hold them. -/
class LawfulKeyMap (μ : Type) [KeyMap μ] : Prop where
  exists_holds : ∀ entries : List (List UInt8 × Nat), Ascending entries →
    ∃ builder, KeyMap.insertAll? (KeyMap.start : KeyMap.Builder μ) entries = some builder ∧
      KeyMap.Holds (KeyMap.finish builder) entries

namespace Indexed

variable {μ α : Type} [KeyMap μ]

/-! ## Indices of values -/

/-- The indices are the numbers up to the number of values. -/
def Numbered (indices : List (α × Nat)) : Prop :=
  (indices.map (·.2)).Perm (List.range indices.length)

theorem numbered_nil : Numbered ([] : List (α × Nat)) := List.Perm.refl _

/-- In the order of their indices the values stand at their indices. -/
theorem Numbered.getElem?_valuesOf {indices : List (α × Nat)} (h : Numbered indices) {value : α}
    {index : Nat} (hmem : (value, index) ∈ indices) : (valuesOf indices)[index]? = some value := by
  have hperm := List.mergeSort_perm indices fun a b ↦ decide (a.2 ≤ b.2)
  have hsorted : ((indices.mergeSort fun a b ↦ decide (a.2 ≤ b.2)).map (·.2)) =
      List.range indices.length := by
    apply List.Perm.eq_of_pairwise (fun _ _ _ _ ↦ Nat.le_antisymm) _ List.pairwise_le_range
      ((hperm.map _).trans h)
    rw [List.pairwise_map]
    apply (List.pairwise_mergeSort _ _ indices).imp of_decide_eq_true
    · intro a b c hab hbc
      exact decide_eq_true ((of_decide_eq_true hab).trans (of_decide_eq_true hbc))
    · intro a b
      simpa using Nat.le_total a.2 b.2
  obtain ⟨place, hplace⟩ := List.mem_iff_getElem?.mp (hperm.mem_iff.mpr hmem)
  have hindex : (List.range indices.length)[place]? = some index := by
    rw [← hsorted, List.getElem?_map, hplace]
    rfl
  obtain ⟨_, heq⟩ := List.getElem?_eq_some_iff.mp hindex
  rw [List.getElem_range] at heq
  subst heq
  rw [valuesOf, List.getElem?_map, hplace]
  rfl

section Number

variable [DecidableEq α]

theorem Numbered.number {indices : List (α × Nat)} (h : Numbered indices) (value : α) :
    Numbered (number indices value).2 := by
  unfold Indexed.number
  split
  · exact h
  · rw [Numbered, List.map_cons, List.length_cons, List.range_succ]
    exact (h.cons _).trans (List.perm_append_singleton _ _).symm

theorem mem_number (indices : List (α × Nat)) (value : α) :
    (value, (number indices value).1) ∈ (number indices value).2 := by
  unfold number
  split
  · next index hlookup =>
    obtain ⟨before, after, rfl, -⟩ := List.lookup_eq_some_iff.mp hlookup
    simp
  · exact List.mem_cons_self

theorem subset_number (indices : List (α × Nat)) (value : α) :
    indices ⊆ (number indices value).2 := by
  unfold number
  split
  · exact List.Subset.refl _
  · exact List.subset_cons_self _ _

/-- The entries with the bytes of their keys and the indices of their values, and all indices. -/
def numberAll (indices : List (α × Nat)) :
    Entries α → List (List UInt8 × Nat) × List (α × Nat)
  | [] => ([], indices)
  | (key, value) :: entries =>
    let numbered := numberAll (number indices value).2 entries
    ((Utf8.bytes key.toList, (number indices value).1) :: numbered.1, numbered.2)

theorem extend?_eq (builder : KeyMap.Builder μ) (indices : List (α × Nat)) (entries : Entries α) :
    extend? builder indices entries =
      (KeyMap.insertAll? builder (numberAll indices entries).1).map
        fun builder ↦ (builder, (numberAll indices entries).2) := by
  induction entries generalizing builder indices with
  | nil => rfl
  | cons entry entries ih =>
    obtain ⟨key, value⟩ := entry
    rw [extend?, numberAll, KeyMap.insertAll?, List.foldlM_cons]
    cases hinsert : KeyMap.insert? builder (Utf8.bytes key.toList) (number indices value).1 with
    | none => simp only [hinsert, Option.bind_eq_bind, Option.bind_none, Option.map_none]
    | some builder =>
      simp only [hinsert, ih, Option.bind_eq_bind, Option.bind_some]
      rfl

theorem map_fst_numberAll (indices : List (α × Nat)) (entries : Entries α) :
    (numberAll indices entries).1.map (·.1) =
      entries.map fun entry ↦ Utf8.bytes entry.1.toList := by
  induction entries generalizing indices with
  | nil => rfl
  | cons entry entries ih => rw [numberAll, List.map_cons, List.map_cons, ih]

theorem Numbered.numberAll {indices : List (α × Nat)} (h : Numbered indices)
    (entries : Entries α) : Numbered (numberAll indices entries).2 := by
  induction entries generalizing indices with
  | nil => exact h
  | cons entry entries ih => exact ih (h.number entry.2)

theorem subset_numberAll (indices : List (α × Nat)) (entries : Entries α) :
    indices ⊆ (numberAll indices entries).2 := by
  induction entries generalizing indices with
  | nil => exact List.Subset.refl _
  | cons entry entries ih => exact List.Subset.trans (subset_number indices entry.2) (ih _)

theorem exists_mem_numberAll (indices : List (α × Nat)) {entries : Entries α} {key : String}
    {value : α} (hmem : (key, value) ∈ entries) :
    ∃ index, (Utf8.bytes key.toList, index) ∈ (numberAll indices entries).1 ∧
      (value, index) ∈ (numberAll indices entries).2 := by
  induction entries generalizing indices with
  | nil => cases hmem
  | cons entry entries ih =>
    rcases List.mem_cons.mp hmem with rfl | hmem
    · exact ⟨_, List.mem_cons_self, subset_numberAll _ entries (mem_number indices value)⟩
    · obtain ⟨index, hkey, hvalue⟩ := ih (number indices entry.2).2 hmem
      exact ⟨index, List.mem_cons_of_mem _ hkey, hvalue⟩

theorem exists_of_mem_numberAll {indices : List (α × Nat)} {entries : Entries α}
    {key : List UInt8} {index : Nat} (hmem : (key, index) ∈ (numberAll indices entries).1) :
    ∃ entry ∈ entries, key = Utf8.bytes entry.1.toList ∧
      (entry.2, index) ∈ (numberAll indices entries).2 := by
  induction entries generalizing indices with
  | nil => cases hmem
  | cons entry entries ih =>
    rcases List.mem_cons.mp hmem with heq | hmem
    · obtain ⟨rfl, rfl⟩ := Prod.mk.inj heq
      exact ⟨entry, List.mem_cons_self, rfl,
        subset_numberAll _ entries (mem_number indices entry.2)⟩
    · obtain ⟨other, hother, hkey, hvalue⟩ := ih hmem
      exact ⟨other, List.mem_cons_of_mem _ hother, hkey, hvalue⟩

end Number

/-! ## Building -/

theorem ordersKeys_inOrder : OrdersKeys (inOrder : String × α → String × α → Bool) where
  trans a b c hab hbc :=
    decide_eq_true (List.le_trans (of_decide_eq_true hab) (of_decide_eq_true hbc))
  total a b := by
    simpa [inOrder] using List.le_total (Utf8.bytes a.1.toList) (Utf8.bytes b.1.toList)
  antisymm a b hab hba :=
    Utf8.bytes_toList_injective
      (List.le_antisymm (of_decide_eq_true hab) (of_decide_eq_true hba))
  of_eq a b heq := by
    rw [inOrder, heq]
    exact decide_eq_true (List.le_refl _)

theorem lt_of_inOrder {a b : String × α} (h : inOrder a b = true) (hne : a.1 ≠ b.1) :
    Utf8.bytes a.1.toList < Utf8.bytes b.1.toList := by
  by_contra hnot
  apply hne
  exact Utf8.bytes_toList_injective
    (List.le_antisymm (of_decide_eq_true h) (List.not_lt.mp hnot))

variable [DecidableEq α]

/-- The keys of sorted entries, each once, ascend as the builder wants them. -/
theorem ascending_numberAll (indices : List (α × Nat)) (entries : Entries α) :
    Ascending (numberAll indices (keepLast (entries.mergeSort inOrder))).1 := by
  have hsorted :=
    ordersKeys_inOrder.pairwise_keepLast (ordersKeys_inOrder.pairwise_mergeSort entries)
  have hkeys : ((numberAll indices (keepLast (entries.mergeSort inOrder))).1.map (·.1)).Pairwise
      (· < ·) := by
    rw [map_fst_numberAll, List.pairwise_map]
    exact hsorted.imp fun h ↦ lt_of_inOrder h.1 h.2
  exact List.pairwise_map.mp hkeys

/-- The value that a lexicon holds for the bytes of a key. -/
def held? (lexicon : Indexed μ α) (key : List UInt8) : Option α :=
  (KeyMap.get? lexicon.map key).bind (lexicon.values[·]?)

/-- The lexicon holds each key once, in byte order, with the index of its last value. -/
structure Holds (lexicon : Indexed μ α) (entries : Entries α) : Prop where
  values_eq : lexicon.values = valuesOf (numberAll [] (keepLast (entries.mergeSort inOrder))).2
  map_holds : KeyMap.Holds lexicon.map (numberAll [] (keepLast (entries.mergeSort inOrder))).1

/-- A lexicon is always made, since the builder refuses none of the sorted keys. -/
theorem exists_holds_ofEntries? (μ : Type) [KeyMap μ] [LawfulKeyMap μ] (entries : Entries α) :
    ∃ lexicon : Indexed μ α, ofEntries? entries = some lexicon ∧ lexicon.Holds entries := by
  obtain ⟨builder, hbuilder, hholds⟩ :=
    LawfulKeyMap.exists_holds (μ := μ) _ (ascending_numberAll [] entries)
  refine ⟨⟨KeyMap.finish builder, _⟩, ?_, ⟨rfl, hholds⟩⟩
  rw [ofEntries?, extend?_eq, hbuilder]
  rfl

variable {lexicon : Indexed μ α} {entries : Entries α}

/-- Each key of the map has an index, and at this index stands the last value of the key. -/
theorem Holds.exists_getElem?_values (h : lexicon.Holds entries) {key : List UInt8} {index : Nat}
    (hindex : KeyMap.get? lexicon.map key = some index) :
    ∃ value, lexicon.values[index]? = some value ∧ IsLast entries.keyed key value := by
  have hnumbered : Numbered (numberAll [] (keepLast (entries.mergeSort inOrder))).2 :=
    numbered_nil.numberAll _
  obtain ⟨entry, hmem, rfl, hvalue⟩ :=
    exists_of_mem_numberAll ((h.map_holds.get?_eq_some key index).mp hindex)
  refine ⟨entry.2, ?_, ?_⟩
  · rw [h.values_eq]
    exact hnumbered.getElem?_valuesOf hvalue
  · exact Entries.isLast_keyed.mpr (ordersKeys_inOrder.mem_keepLast_mergeSort_iff.mp hmem)

theorem Holds.held?_eq_some_iff (h : lexicon.Holds entries) (key : List UInt8) (value : α) :
    lexicon.held? key = some value ↔ IsLast entries.keyed key value := by
  constructor
  · intro hvalue
    obtain ⟨index, hindex, hvalue⟩ := Option.bind_eq_some_iff.mp hvalue
    obtain ⟨found, hfound, hkeyed⟩ := h.exists_getElem?_values hindex
    rw [hvalue] at hfound
    cases hfound
    exact hkeyed
  · intro hkeyed
    obtain ⟨name, rfl, hlast⟩ := Entries.exists_of_isLast_keyed hkeyed
    obtain ⟨index, hkey, -⟩ :=
      exists_mem_numberAll [] (ordersKeys_inOrder.mem_keepLast_mergeSort_iff.mpr hlast)
    have hindex := (h.map_holds.get?_eq_some _ index).mpr hkey
    obtain ⟨found, hfound, hother⟩ := h.exists_getElem?_values hindex
    rw [held?, hindex, Option.bind_some, hfound, hother.unique hkeyed]

/-! ## Queries -/

/-- Of ascending fronts of a text the later is the longer one. -/
theorem length_le_of_lt {key later text : List UInt8} (hkey : key <+: text)
    (hlater : later <+: text) (hlt : key < later) : key.length ≤ later.length := by
  by_contra hlonger
  have hfits := List.prefix_of_prefix_length_le hlater hkey (Nat.le_of_not_le hlonger)
  exact List.not_lt.mpr hfits.le hlt

/-- Keys that are skipped in a stream may as well be left out of it. -/
theorem foldl_longest (stream : List (List UInt8 × Nat)) (found : Option (Hit Nat)) :
    stream.foldl
        (fun longest entry ↦ if entry.1.isEmpty then longest else some ⟨entry.1.length, entry.2⟩)
        found =
      (((stream.filter fun entry ↦ !entry.1.isEmpty).getLast?).map
        fun entry ↦ (⟨entry.1.length, entry.2⟩ : Hit Nat)).or found := by
  induction stream using List.reverseRecOn with
  | nil => rfl
  | append_singleton stream entry ih =>
    rw [List.foldl_append, List.foldl_cons, List.foldl_nil, ih, List.filter_append]
    by_cases hempty : entry.1.isEmpty = true
    · simp [hempty]
    · simp [hempty]

/-- The entries that a query streams: the keys at the front of the text, without the empty one. -/
def streamed (entries : List (List UInt8 × Nat)) (text : List UInt8) : List (List UInt8 × Nat) :=
  entries.filter fun entry ↦
    !entry.1.isEmpty && (Automaton.frontOf text).acceptsFrom (Automaton.frontOf text).start entry.1

theorem mem_streamed {indexed : List (List UInt8 × Nat)} {text key : List UInt8} {index : Nat} :
    (key, index) ∈ streamed indexed text ↔ (key, index) ∈ indexed ∧ key ≠ [] ∧ key <+: text := by
  simp [streamed, List.mem_filter, Automaton.acceptsFrom_frontOf_start]

/-- A known front of the text is the empty key, or it is streamed. -/
theorem eq_nil_or_exists_mem_streamed {map : μ} {indexed : List (List UInt8 × Nat)}
    (hholds : KeyMap.Holds map indexed) {text key : List UInt8} (hfits : key <+: text)
    (hne : KeyMap.get? map key ≠ none) :
    key = [] ∨ ∃ index, (key, index) ∈ streamed indexed text := by
  obtain ⟨index, hindex⟩ := Option.ne_none_iff_exists'.mp hne
  by_cases hempty : key = []
  · exact .inl hempty
  · have hmem := (hholds.get?_eq_some key index).mp hindex
    exact .inr ⟨index, mem_streamed.mpr ⟨hmem, hempty, hfits⟩⟩

/-- The last of the streamed keys is the longest. -/
theorem length_le_of_getLast?_streamed {indexed : List (List UInt8 × Nat)}
    (hascending : Ascending indexed) {text : List UInt8} {last entry : List UInt8 × Nat}
    (hlast : (streamed indexed text).getLast? = some last)
    (hentry : entry ∈ streamed indexed text) : entry.1.length ≤ last.1.length := by
  obtain ⟨before, hbefore⟩ := List.getLast?_eq_some_iff.mp hlast
  have hsorted : Ascending (before ++ [last]) := hbefore ▸ hascending.filter _
  have hfits : entry.1 <+: text := (mem_streamed.mp hentry).2.2
  have hlastfits : last.1 <+: text := (mem_streamed.mp (List.mem_of_getLast? hlast)).2.2
  rw [hbefore] at hentry
  rcases List.mem_append.mp hentry with hmem | hmem
  · have hlt := (List.pairwise_append.mp hsorted).2.2 _ hmem _ (List.mem_singleton_self last)
    exact length_le_of_lt hfits hlastfits hlt
  · rw [List.mem_singleton.mp hmem]

theorem frontAnswers_longestIndex? {map : μ} {indexed : List (List UInt8 × Nat)}
    (hascending : Ascending indexed) (hholds : KeyMap.Holds map indexed) (text : List UInt8) :
    FrontAnswers (KeyMap.get? map) text (longestIndex? map text) := by
  have hstream : ((KeyMap.search map (.frontOf text)).filter fun entry ↦ !entry.1.isEmpty) =
      streamed indexed text :=
    hholds.search_eq _ _ (Automaton.sound_frontOf text)
  rw [longestIndex?, foldl_longest, hstream]
  cases hlast : (streamed indexed text).getLast? with
  | none =>
    apply (frontAnswers_nil _).of_isPrefix List.nil_prefix
    intro key hfits hne
    rcases eq_nil_or_exists_mem_streamed hholds hfits hne with rfl | ⟨index, hmem⟩
    · exact List.prefix_rfl
    · rw [List.getLast?_eq_none_iff.mp hlast] at hmem
      cases hmem
  | some last =>
    obtain ⟨hmem, -, hlastfits⟩ := mem_streamed.mp (List.mem_of_getLast? hlast)
    refine ⟨last.1, hlastfits, rfl, (hholds.get?_eq_some _ _).mpr hmem, ?_⟩
    intro key hfits hne
    rcases eq_nil_or_exists_mem_streamed hholds hfits hne with rfl | ⟨index, hkey⟩
    · exact Nat.zero_le _
    · exact length_le_of_getLast?_streamed hascending hlast hkey

theorem Holds.frontAnswers_longest? (h : lexicon.Holds entries) (text : List Char) :
    FrontAnswers lexicon.held? (Utf8.bytes text) (lexicon.longest? text) := by
  have hanswers := frontAnswers_longestIndex? (ascending_numberAll [] entries) h.map_holds
    (Utf8.bytes text)
  rw [longest?]
  cases hhit : longestIndex? lexicon.map (Utf8.bytes text) with
  | none =>
    rw [hhit] at hanswers
    intro key hfits
    rw [held?, hanswers key hfits, Option.bind_none]
  | some hit =>
    rw [hhit] at hanswers
    obtain ⟨key, hkey, hsize, hindex, hlongest⟩ := hanswers
    obtain ⟨value, hvalue, -⟩ := h.exists_getElem?_values hindex
    simp only [Option.bind_eq_bind, Option.bind_some, hvalue]
    refine ⟨key, hkey, hsize, ?_, ?_⟩
    · rw [held?, hindex, Option.bind_some, hvalue]
    · intro other hfits hne
      apply hlongest other hfits
      intro hnone
      rw [held?, hnone] at hne
      exact hne rfl

theorem Holds.means (h : lexicon.Holds entries) : Lexicon.Means lexicon entries := by
  apply Lexicon.Means.of_answers
  intro text
  exact Entries.Answers.of_bytes h.held?_eq_some_iff (h.frontAnswers_longest? text)

end Indexed

/-! ## A plain map -/

namespace KeyList

/-- Ascending keys are pushed in any number. -/
theorem insertAll?_eq (reversed entries : List (List UInt8 × Nat))
    (h : Ascending (reversed.reverse ++ entries)) :
    KeyMap.insertAll? (μ := KeyList) reversed entries = some (entries.reverse ++ reversed) := by
  induction entries generalizing reversed with
  | nil => rfl
  | cons entry entries ih =>
    obtain ⟨key, index⟩ := entry
    have hpush : push? reversed key index = some ((key, index) :: reversed) := by
      cases reversed with
      | nil => rfl
      | cons last reversed =>
        have hlt := (List.pairwise_append.mp h).2.2 last (by simp) (key, index) List.mem_cons_self
        exact if_pos hlt
    have hrest := ih ((key, index) :: reversed) (by simpa using h)
    rw [List.reverse_cons, List.append_assoc, List.singleton_append, ← hrest, KeyMap.insertAll?,
      List.foldlM_cons]
    exact congrArg (Option.bind · _) hpush

theorem lookup_eq_some_iff {entries : List (List UInt8 × Nat)} (h : Ascending entries)
    {key : List UInt8} {index : Nat} :
    entries.lookup key = some index ↔ (key, index) ∈ entries := by
  induction entries with
  | nil => simp
  | cons entry entries ih =>
    obtain ⟨first, found⟩ := entry
    obtain ⟨hfirst, hrest⟩ := List.pairwise_cons.mp h
    rw [List.lookup_cons]
    by_cases heq : key = first
    · subst heq
      have hnot : (key, index) ∉ entries := fun hmem ↦
        List.lt_irrefl key (hfirst (key, index) hmem)
      simp [hnot, eq_comm]
    · rw [beq_false_of_ne heq, ih hrest]
      simp [heq]

theorem passes_eq {σ : Type} {automaton : Automaton σ} (h : automaton.Sound) (state : σ)
    (key : List UInt8) : passes automaton state key = automaton.acceptsFrom state key := by
  induction key generalizing state with
  | nil => rfl
  | cons byte key ih =>
    rw [passes, ih, ← Automaton.acceptsFrom_cons]
    cases hmay : automaton.mayAccept state with
    | true => rfl
    | false => rw [h state (byte :: key) hmay, Bool.false_and]

theorem holds {entries : List (List UInt8 × Nat)} (h : Ascending entries) :
    KeyMap.Holds (KeyList.mk entries) entries where
  get?_eq_some key index := lookup_eq_some_iff h
  search_eq σ automaton hsound := by
    simp only [KeyMap.search, search, List.filter_filter, passes_eq hsound]
    apply List.filter_congr
    intro entry _
    rw [← Bool.and_assoc, Bool.and_self]

instance : LawfulKeyMap KeyList where
  exists_holds entries h := by
    refine ⟨entries.reverse, ?_, ?_⟩
    · have hinsert := insertAll?_eq [] entries h
      rwa [List.append_nil] at hinsert
    · have hfinish : KeyMap.finish (μ := KeyList) entries.reverse = ⟨entries⟩ :=
        congrArg KeyList.mk (List.reverse_reverse entries)
      rw [hfinish]
      exact holds h

end KeyList

end FormulaMarkup
