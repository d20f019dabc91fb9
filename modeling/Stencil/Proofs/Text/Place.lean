import Mathlib.Tactic.Common
import Stencil.Proofs.Text.Search

/-!
# Places of words

A text is cut at the first place where a word occurs, counted in characters. The word may overlap
itself and the text around it, so a text in two parts may have it at a place that is in neither part.

* `cut_eq_none_iff`: a text that is not cut does not hold the word;
* `length_le_of_cut`: no occurrence is before the cut;
* `placeFrom?_append`: from the end of a first part on, places are those in the second part.
-/

namespace Stencil.Text

/-- The place of the first occurrence of a word. -/
def place? (word s : List Char) : Option Nat :=
  (cut word s).map fun (before, _) => before.length

/-- The place of the first occurrence that is not before a place. -/
def placeFrom? (word : List Char) (start : Nat) (s : List Char) : Option Nat :=
  (place? word (s.drop start)).map (start + ·)

variable {word s a b before after : List Char}

theorem dropLead?_append (word s : List Char) : dropLead? word (word ++ s) = some s := by
  induction word with
  | nil => rfl
  | cons w word ih => rw [List.cons_append, dropLead?, if_pos rfl, ih]

/-- A text that holds a word is cut, at its place or before. -/
theorem exists_cut_append (word a b : List Char) :
    ∃ before after, cut word (a ++ (word ++ b)) = some (before, after) ∧
      before.length ≤ a.length := by
  induction a with
  | nil =>
    refine ⟨[], b, ?_, Nat.le_refl 0⟩
    rw [cut_eq_cutWhere]
    exact cutWhere_append (fun t hne hsuffix => absurd (List.suffix_nil.1 hsuffix) hne)
      (dropLead?_append word b)
  | cons c a ih =>
    obtain ⟨before, after, hcut, hle⟩ := ih
    rw [List.cons_append, cut, hcut]
    split
    · exact ⟨_, _, rfl, Nat.zero_le _⟩
    · exact ⟨_, _, rfl, Nat.succ_le_succ hle⟩

theorem cut_eq_none_iff : cut word s = none ↔ ¬word <:+: s := by
  constructor
  · rintro hnone ⟨a, b, rfl⟩
    obtain ⟨before, after, hcut, -⟩ := exists_cut_append word a b
    rw [← List.append_assoc, hnone] at hcut
    cases hcut
  · intro hword
    rw [Option.eq_none_iff_forall_ne_some]
    rintro ⟨before, after⟩ hcut
    exact hword ⟨before, after, (append_of_cut hcut).symm⟩

/-- No occurrence is before the one that a text is cut at. -/
theorem length_le_of_cut (hcut : cut word s = some (before, after)) (hs : s = a ++ (word ++ b)) :
    before.length ≤ a.length := by
  obtain ⟨before', after', hcut', hle⟩ := exists_cut_append word a b
  rw [← hs, hcut] at hcut'
  obtain ⟨rfl, -⟩ := Prod.mk.inj (Option.some.inj hcut')
  exact hle

/-- A text in two parts that is cut behind the first one is cut where the second one is. -/
theorem exists_of_cut_append (hcut : cut word (a ++ s) = some (before, after))
    (hle : a.length ≤ before.length) : ∃ rest, before = a ++ rest ∧ cut word s = some (rest, after) := by
  induction a generalizing before with
  | nil => exact ⟨before, rfl, hcut⟩
  | cons c a ih =>
    rw [List.cons_append, cut] at hcut
    split at hcut
    next =>
      obtain ⟨rfl, -⟩ := Prod.mk.inj (Option.some.inj hcut)
      exact absurd hle (Nat.not_succ_le_zero _)
    next =>
      obtain ⟨⟨before', after'⟩, hcut', heq⟩ := Option.map_eq_some_iff.1 hcut
      obtain ⟨rfl, rfl⟩ := Prod.mk.inj heq
      obtain ⟨rest, rfl, hrest⟩ := ih hcut' (Nat.le_of_succ_le_succ hle)
      exact ⟨rest, rfl, hrest⟩

/-- From the end of a first part on, places are those in the second part. -/
theorem placeFrom?_append (word a s : List Char) :
    placeFrom? word a.length (a ++ s) = (place? word s).map (a.length + ·) := by
  rw [placeFrom?, List.drop_left]

/-- A first place that is not before another one is the first from there on. -/
theorem placeFrom?_eq_place? (h : ∀ n ∈ place? word (a ++ s), a.length ≤ n) :
    placeFrom? word a.length (a ++ s) = place? word (a ++ s) := by
  rw [placeFrom?_append]
  rcases hcut : cut word (a ++ s) with _ | ⟨before, after⟩
  · have hs : cut word s = none := cut_eq_none_iff.2 fun hword =>
      cut_eq_none_iff.1 hcut (hword.trans (List.suffix_append a s).isInfix)
    rw [place?, place?, hcut, hs]
    rfl
  · rw [place?, hcut] at h
    obtain ⟨rest, rfl, hrest⟩ := exists_of_cut_append hcut (h _ rfl)
    simp only [place?, hcut, hrest, Option.map_some, List.length_append]

end Stencil.Text
