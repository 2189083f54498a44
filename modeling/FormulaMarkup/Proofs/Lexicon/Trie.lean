import FormulaMarkup.Lexicon.Trie
import FormulaMarkup.Proofs.Lexicon.Bytes

/-!
# A walk down a tree of bytes answers as the entries mean

`LawfulKeyTree` says what the walk relies on. Up to each front of the text the walk has found the
longest key (`TreeLexicon.frontAnswers_walk`); when it stops at a part without keys, no key goes on
from there. So the lexicon means its entries, whatever the tree, and `ByteTree` is lawful.
-/

namespace FormulaMarkup

/-- Trees in which a key has the last value that was collected for it, and of which the part below
a front knows the keys that start with this front. -/
class LawfulKeyTree (τ : Type) {α : Type} [KeyTree τ α] : Prop where
  get?_collect : ∀ (entries : List (List UInt8 × α)) (key : List UInt8) (value : α),
    KeyTree.get? (KeyTree.collect entries : τ) key = some value ↔ IsLast entries key value
  get?_subtree : ∀ (tree : τ) (front key : List UInt8),
    KeyTree.get? (KeyTree.subtree tree front) key =
      if front <+: key then KeyTree.get? tree key else none
  get?_of_isEmpty : ∀ (tree : τ) (key : List UInt8),
    KeyTree.isEmpty tree = true → KeyTree.get? tree key = none

namespace TreeLexicon

variable {τ α : Type} [KeyTree τ α] [LawfulKeyTree τ]

/-- The walk goes on in a part that knows the keys below its front, and extends an answer to the
front to one to all bytes. -/
theorem frontAnswers_walk (tree : τ) {rest front : List UInt8} {part : τ} {found : Option (Hit α)}
    (hpart : ∀ key, front <+: key → KeyTree.get? part key = KeyTree.get? tree key)
    (hfound : FrontAnswers (KeyTree.get? tree) front found) :
    FrontAnswers (KeyTree.get? tree) (front ++ rest) (walk part found front rest) := by
  induction rest generalizing front part found with
  | nil =>
    rw [List.append_nil]
    exact hfound
  | cons byte rest ih =>
    have hlonger : front <+: front ++ [byte] := List.prefix_append front [byte]
    have hnext : ∀ key, front ++ [byte] <+: key →
        KeyTree.get? (KeyTree.subtree part (front ++ [byte])) key = KeyTree.get? tree key := by
      intro key hfits
      rw [LawfulKeyTree.get?_subtree, if_pos hfits, hpart key (hlonger.trans hfits)]
    rw [List.append_cons, walk]
    split
    · next hempty =>
      -- a key that goes on behind the front would stand in the empty part
      have hnone : ∀ key, front ++ [byte] <+: key → KeyTree.get? tree key = none := by
        intro key hfits
        rw [← hnext key hfits, LawfulKeyTree.get?_of_isEmpty _ _ hempty]
      exact (hfound.concat (hnone _ List.prefix_rfl)).append rest hnone
    · cases hvalue : KeyTree.get? (KeyTree.subtree part (front ++ [byte])) (front ++ [byte]) with
      | some value =>
        rw [hnext _ List.prefix_rfl] at hvalue
        exact ih hnext (frontAnswers_self hvalue)
      | none =>
        rw [hnext _ List.prefix_rfl] at hvalue
        exact ih hnext (hfound.concat hvalue)

theorem means_ofEntries (τ : Type) [KeyTree τ α] [LawfulKeyTree τ] (entries : Entries α) :
    Lexicon.Means (ofEntries entries : TreeLexicon τ) entries := by
  apply Lexicon.Means.of_answers
  intro text
  apply Entries.Answers.of_bytes (LawfulKeyTree.get?_collect (τ := τ) entries.keyed)
  apply frontAnswers_walk _ _ (frontAnswers_nil _)
  intro key _
  rw [LawfulKeyTree.get?_subtree, if_pos List.nil_prefix]
  rfl

end TreeLexicon

/-! ## A plain tree -/

namespace ByteTree

variable {α : Type}

theorem branch?_change_self (byte : UInt8) (f : ByteTree α → ByteTree α)
    (branches : List (UInt8 × ByteTree α)) :
    branch? byte (change byte f branches) = some (f ((branch? byte branches).getD empty)) := by
  fun_induction change byte f branches with
  | case1 => simp [branch?]
  | case2 tree branches => simp [branch?]
  | case3 label tree branches hne ih => simp [branch?, hne, ih]

theorem branch?_change_of_ne {byte other : UInt8} (f : ByteTree α → ByteTree α)
    (branches : List (UInt8 × ByteTree α)) (hne : byte ≠ other) :
    branch? other (change byte f branches) = branch? other branches := by
  fun_induction change byte f branches with
  | case1 => simp [branch?, hne]
  | case2 tree branches => simp [branch?, hne]
  | case3 label tree branches hlabel ih => simp [branch?, ih]

theorem get?_empty (key : List UInt8) : (empty : ByteTree α).get? key = none := by
  cases key <;> rfl

theorem get?_cons (value : Option α) (branches : List (UInt8 × ByteTree α)) (byte : UInt8)
    (key : List UInt8) :
    (node value branches).get? (byte :: key) = ((branch? byte branches).getD empty).get? key := by
  rw [get?]
  cases branch? byte branches with
  | none => exact (get?_empty key).symm
  | some tree => rfl

theorem get?_insert_self (tree : ByteTree α) (key : List UInt8) (value : α) :
    (tree.insert value key).get? key = some value := by
  induction key generalizing tree with
  | nil =>
    cases tree
    rfl
  | cons byte key ih =>
    cases tree
    rw [insert, get?_cons, branch?_change_self, Option.getD_some, ih]

theorem get?_insert_of_ne (tree : ByteTree α) (key : List UInt8) (value : α) (other : List UInt8)
    (hne : key ≠ other) : (tree.insert value key).get? other = tree.get? other := by
  induction key generalizing tree other with
  | nil =>
    cases tree
    cases other with
    | nil => exact absurd rfl hne
    | cons byte other => rfl
  | cons byte key ih =>
    cases tree
    cases other with
    | nil => rfl
    | cons next other =>
      rw [insert, get?_cons, get?_cons]
      by_cases heq : byte = next
      · subst heq
        rw [branch?_change_self, Option.getD_some]
        exact ih _ _ fun h ↦ hne (h ▸ rfl)
      · rw [branch?_change_of_ne _ _ heq]

theorem get?_subtree (tree : ByteTree α) (front key : List UInt8) :
    (tree.subtree front).get? key = if front <+: key then tree.get? key else none := by
  induction front generalizing tree key with
  | nil => rw [subtree, if_pos List.nil_prefix]
  | cons byte front ih =>
    obtain ⟨value, branches⟩ := tree
    rw [subtree]
    cases hbranch : branch? byte branches with
    | none =>
      rw [get?_empty]
      split
      · next hfits =>
        obtain ⟨rest, rfl⟩ := hfits
        rw [List.cons_append, get?_cons, hbranch, Option.getD_none, get?_empty]
      · rfl
    | some tree =>
      cases key with
      | nil => simp [get?]
      | cons next key =>
        rw [get?_cons, get?_cons, branch?]
        by_cases heq : byte = next
        · subst heq
          rw [if_pos rfl, Option.getD_some, ih, hbranch, Option.getD_some]
          simp only [List.cons_prefix_cons, true_and]
        · simp [heq, branch?, get?_empty, List.cons_prefix_cons]

theorem isEmpty_of_branch? {byte : UInt8} {branches : List (UInt8 × ByteTree α)} {tree : ByteTree α}
    (h : areEmpty branches = true) (hbranch : branch? byte branches = some tree) :
    isEmpty tree = true := by
  fun_induction branch? byte branches with
  | case1 => cases hbranch
  | case2 tree branches =>
    cases hbranch
    rw [areEmpty, Bool.and_eq_true] at h
    exact h.1
  | case3 label tree branches hne ih =>
    rw [areEmpty, Bool.and_eq_true] at h
    exact ih h.2 hbranch

theorem get?_of_isEmpty (tree : ByteTree α) (key : List UInt8) (h : isEmpty tree = true) :
    tree.get? key = none := by
  induction key generalizing tree with
  | nil =>
    obtain ⟨value, branches⟩ := tree
    rw [isEmpty, Bool.and_eq_true, Option.isNone_iff_eq_none] at h
    exact h.1
  | cons byte key ih =>
    obtain ⟨value, branches⟩ := tree
    rw [isEmpty, Bool.and_eq_true] at h
    rw [get?]
    cases hbranch : branch? byte branches with
    | none => rfl
    | some tree => exact ih tree (isEmpty_of_branch? h.2 hbranch)

instance : LawfulKeyTree (ByteTree α) where
  get?_collect _ _ _ := get?_foldl_iff get?_empty get?_insert_self get?_insert_of_ne
  get?_subtree := get?_subtree
  get?_of_isEmpty := get?_of_isEmpty

end ByteTree

theorem Trie.means_ofEntries {α : Type} (entries : Entries α) :
    Lexicon.Means (Trie.ofEntries entries) entries :=
  TreeLexicon.means_ofEntries (ByteTree α) entries

end FormulaMarkup
