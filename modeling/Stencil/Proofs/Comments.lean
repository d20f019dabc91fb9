import Mathlib.Computability.StateTransition
import Stencil.Interpolation
import Stencil.Proofs.Text.Place

/-!
# Cutting comments out

Comments are cut out of a text one after the other. What stands around a comment is joined when it is
cut out, and may be a new mark, so the cuts are over only when the whole text has no mark at the start
of a comment with a mark at the end of one behind it (`Uncommented`). Every cut makes the text shorter,
and so a text of any length is left without comments (`stripComments_settles`).

A loop that looks for both marks from the start of the text finds marks of ends that belong to no
comment. It passes over such a mark and looks for the next one from the start of the comment on. This
does not make the text shorter, but it is done once for each comment at most: the mark that is found
next is not before the start of the comment (`reaches_atOpener`). The loop ends with what the cuts
leave (`Scan.eval_ofText`).

* `cutComment?_eq_none_iff`: a text without a comment to be cut is one without the two marks;
* `stripComments_induction`: what a cut keeps is kept by all.
-/

namespace Stencil

open Text

/-- Behind no mark at the start of comments there is a mark at the end of comments. The two may
    overlap. -/
def Uncommented (s : List Char) : Prop :=
  ∀ before after, s = before ++ (commentOpener ++ after) → ¬commentCloser <:+: commentOpener ++ after

variable {s t : List Char}

/-! ### One cut -/

/-- What is cut out starts at the first mark, and ends with the first mark from there on. -/
theorem exists_of_cutComment? (h : cutComment? s = some t) : ∃ before after inside rest,
    cut commentOpener s = some (before, after) ∧
      cut commentCloser (commentOpener ++ after) = some (inside, rest) ∧ t = before ++ rest := by
  obtain ⟨⟨before, after⟩, hopener, h⟩ := Option.bind_eq_some_iff.1 h
  obtain ⟨⟨inside, rest⟩, hcloser, rfl⟩ := Option.map_eq_some_iff.1 h
  exact ⟨before, after, inside, rest, hopener, hcloser, rfl⟩

theorem cutComment?_eq_none_iff : cutComment? s = none ↔ Uncommented s := by
  constructor
  · rintro hnone before after rfl hcloser
    rcases hopener : cut commentOpener (before ++ (commentOpener ++ after)) with _ | ⟨first, behind⟩
    · exact cut_eq_none_iff.1 hopener ⟨before, after, List.append_assoc ..⟩
    · rw [cutComment?, hopener, Option.bind_some, Option.map_eq_none_iff] at hnone
      -- What is behind any mark is also behind the first one.
      have heq := append_of_cut hopener
      rw [List.append_assoc] at heq
      have hle : (commentOpener ++ after).length ≤ (commentOpener ++ behind).length := by
        have hlength := congrArg List.length heq
        have := length_le_of_cut hopener rfl
        simp only [List.length_append] at hlength ⊢
        omega
      have hbehind : commentOpener ++ after <:+ commentOpener ++ behind :=
        List.suffix_of_suffix_length_le (List.suffix_append before _)
          (heq ▸ List.suffix_append first _) hle
      exact cut_eq_none_iff.1 hnone (hcloser.trans hbehind.isInfix)
  · intro h
    rw [Option.eq_none_iff_forall_ne_some]
    intro t ht
    obtain ⟨before, after, inside, rest, hopener, hcloser, -⟩ := exists_of_cutComment? ht
    refine h before after ?_ ⟨inside, rest, (append_of_cut hcloser).symm⟩
    rw [append_of_cut hopener, List.append_assoc]

instance (s : List Char) : Decidable (Uncommented s) :=
  decidable_of_iff (cutComment? s = none) cutComment?_eq_none_iff

/-- A cut leaves out some of the text, and brings in nothing. -/
theorem sublist_of_cutComment? (h : cutComment? s = some t) : t.Sublist s ∧ t.length < s.length := by
  obtain ⟨before, after, inside, rest, hopener, hcloser, rfl⟩ := exists_of_cutComment? h
  have hs : s = before ++ (inside ++ (commentCloser ++ rest)) := by
    rw [append_of_cut hopener, List.append_assoc, append_of_cut hcloser, List.append_assoc]
  have hlength : commentCloser.length = 3 := rfl
  rw [hs]
  constructor
  · refine (List.Sublist.refl before).append ?_
    exact (List.sublist_append_right commentCloser rest).trans (List.sublist_append_right inside _)
  · simp only [List.length_append]
    omega

/-! ### All cuts -/

/-- What holds of texts without comments, and of a text if it holds of what its first cut leaves, holds
    of every text and what all cuts leave of it. -/
theorem stripComments_induction {motive : (s t : List Char) → Prop}
    (done : ∀ s, cutComment? s = none → motive s s)
    (step : ∀ s t r, cutComment? s = some t → motive t r → motive s r) (s : List Char) :
    motive s (stripComments s) := by
  suffices h : ∀ fuel s, s.length ≤ fuel → motive s (stripCommentsFrom fuel s) from
    h s.length s (Nat.le_refl _)
  intro fuel
  induction fuel with
  | zero =>
    intro s hs
    obtain rfl := List.eq_nil_of_length_eq_zero (Nat.le_zero.1 hs)
    exact done [] rfl
  | succ fuel ih =>
    intro s hs
    rw [stripCommentsFrom]
    rcases hcut : cutComment? s with _ | t
    · exact done s hcut
    · have hlt := (sublist_of_cutComment? hcut).2
      exact step s t _ hcut (ih t (by omega))

theorem uncommented_stripComments (s : List Char) : Uncommented (stripComments s) := by
  refine stripComments_induction (motive := fun _ t => Uncommented t) ?_ ?_ s
  · exact fun s hs => cutComment?_eq_none_iff.1 hs
  · exact fun _ _ _ _ h => h

theorem sublist_stripComments (s : List Char) : (stripComments s).Sublist s := by
  refine stripComments_induction (motive := fun s t => t.Sublist s) ?_ ?_ s
  · exact fun s _ => List.Sublist.refl s
  · exact fun s t r hcut h => h.trans (sublist_of_cutComment? hcut).1

/-- Texts without comments are the ones that are left as they are. -/
theorem stripComments_eq_self_iff : stripComments s = s ↔ Uncommented s := by
  constructor
  · intro h
    rw [← h]
    exact uncommented_stripComments s
  · exact fun h => stripComments_of_cutComment (cutComment?_eq_none_iff.2 h)

/-! ### The loop over places -/

/-- What the loop looks at: a text, a place where a comment may start, and one where it may end. -/
structure Scan where
  text : List Char
  opener : Option Nat
  closer : Option Nat

namespace Scan

/-- Both marks are looked for from the start of a text. -/
def ofText (s : List Char) : Scan :=
  ⟨s, place? commentOpener s, place? commentCloser s⟩

/-- A round of the loop: the next end is looked for if it is before the start, and otherwise what is
    between the two places is cut out. There is no round if one of the places is missing. -/
def step : Scan → Option Scan
  | ⟨s, some start, some stop⟩ =>
    if stop < start then some ⟨s, some start, placeFrom? commentCloser start s⟩
    else some (ofText (s.take start ++ s.drop (stop + commentCloser.length)))
  | _ => none

/-- The loop comes to where both places belong to the same comment, if there is one. -/
theorem reaches_atOpener (before after : List Char)
    (hopener : cut commentOpener (before ++ (commentOpener ++ after)) = some (before, after)) :
    StateTransition.Reaches step (ofText (before ++ (commentOpener ++ after)))
      ⟨before ++ (commentOpener ++ after), some before.length,
        placeFrom? commentCloser before.length (before ++ (commentOpener ++ after))⟩ := by
  have hstart : place? commentOpener (before ++ (commentOpener ++ after)) = some before.length := by
    rw [place?, hopener, Option.map_some]
  rw [ofText, hstart]
  by_cases hstop : ∀ stop ∈ place? commentCloser (before ++ (commentOpener ++ after)),
      before.length ≤ stop
  · rw [placeFrom?_eq_place? hstop]
    exact .refl
  · push Not at hstop
    obtain ⟨stop, hstop, hlt⟩ := hstop
    refine .single ?_
    rw [Option.mem_def.1 hstop, step, if_pos hlt]
    rfl

/-- Where the two places belong to the same comment, the loop cuts it out. -/
theorem step_atOpener (before after : List Char) :
    step ⟨before ++ (commentOpener ++ after), some before.length,
        placeFrom? commentCloser before.length (before ++ (commentOpener ++ after))⟩ =
      (cut commentCloser (commentOpener ++ after)).map fun (_, rest) => ofText (before ++ rest) := by
  rw [placeFrom?_append, place?]
  rcases hcloser : cut commentCloser (commentOpener ++ after) with _ | ⟨inside, rest⟩
  · rfl
  · have hdrop : (before ++ (inside ++ commentCloser ++ rest)).drop
        (before.length + inside.length + commentCloser.length) = rest := by
      rw [← List.append_assoc]
      exact List.drop_left' (by simp only [List.length_append, Nat.add_assoc])
    simp only [Option.map_some, step]
    rw [if_neg (Nat.not_lt.2 (Nat.le_add_right _ _)), List.take_left, append_of_cut hcloser, hdrop]

/-- The loop ends with what all cuts leave of the text. -/
theorem eval_ofText (s : List Char) :
    ∃ x ∈ StateTransition.eval step (ofText s), x.text = stripComments s := by
  refine stripComments_induction
    (motive := fun s t => ∃ x ∈ StateTransition.eval step (ofText s), x.text = t) ?_ ?_ s
  · intro s hs
    rcases hopener : cut commentOpener s with _ | ⟨before, after⟩
    · refine ⟨ofText s, StateTransition.mem_eval.2 ⟨.refl, ?_⟩, rfl⟩
      rw [ofText, place?, hopener]
      rfl
    · rw [cutComment?, hopener, Option.bind_some, Option.map_eq_none_iff] at hs
      obtain rfl := append_of_cut hopener
      rw [List.append_assoc] at hopener ⊢
      refine ⟨_, StateTransition.mem_eval.2 ⟨reaches_atOpener before after hopener, ?_⟩, rfl⟩
      rw [step_atOpener, hs, Option.map_none]
  · rintro s t r hcut ⟨x, hx, hr⟩
    obtain ⟨before, after, inside, rest, hopener, hcloser, rfl⟩ := exists_of_cutComment? hcut
    obtain rfl := append_of_cut hopener
    rw [List.append_assoc] at hopener ⊢
    have hstep := step_atOpener before after
    rw [hcloser, Option.map_some] at hstep
    have hreaches := (reaches_atOpener before after hopener).tail hstep
    exact ⟨x, StateTransition.reaches_eval hreaches ▸ hx, hr⟩

end Scan

/-- Comments are cut out of every text. The loop over the places of marks ends, and ends with what all
    cuts leave. In this no mark at the start of comments has one at the end of comments behind it, and
    nothing is left to be cut. It is the text with some characters left out, and it is the text itself
    exactly if that has no comments. -/
theorem stripComments_settles (s : List Char) :
    (∃ x ∈ StateTransition.eval Scan.step (Scan.ofText s), x.text = stripComments s) ∧
    Uncommented (stripComments s) ∧
    stripComments (stripComments s) = stripComments s ∧
    (stripComments s).Sublist s ∧
    (stripComments s = s ↔ Uncommented s) :=
  have hdone := uncommented_stripComments s
  ⟨Scan.eval_ofText s, hdone, stripComments_eq_self_iff.2 hdone, sublist_stripComments s,
    stripComments_eq_self_iff⟩

/-- The marks of one comment may stand around another one, and ends may come before starts. -/
example : stripComments "--> a<!<!-- b -->-- c --> <!-".toList = "--> a <!-".toList := by decide

end Stencil
