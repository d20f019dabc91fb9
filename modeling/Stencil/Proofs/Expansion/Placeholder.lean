import Stencil.Interpolation
import Stencil.Proofs.Markup.Escape
import Stencil.Proofs.Outcome

/-!
# Placeholders filled in one pass

Placeholders are replaced one after the other, and what comes in is searched again from the start of
the text. This is the same as one pass from left to right (`fillText`) if every placeholder that
begins in the text ends in it (`WellBraced`) and no value that comes in has a brace
(`fillText_of_interpolate`). Braces that stand alone are let through.

Such a pass over an escaped text leaves an escaped text (`escapedFill_of_gives_fillText`): the values
are *inert*, they hold no character that markup or placeholders are told by. The placeholders that it
fills are those of the text itself, if no escape changes a path.
-/

namespace Stencil

/-- The characters that markup and placeholders are told by. -/
def specialChars : List Char := ['&', '<', '>', '"', '\x7b', '\x7d']

/-- A text has none of the characters that markup and placeholders are told by. -/
def Inert (s : List Char) : Prop := ∀ c ∈ s, c ∉ specialChars

/-- No placeholder begins in a text, not even with its last character. -/
abbrev Unopened (s : List Char) : Prop := Text.Isolated '\x7b' s

/-- No placeholder ends in a text, not even with its last character. -/
abbrev Unclosed (s : List Char) : Prop := Text.Isolated '\x7d' s

/-- The placeholders that begin in a text end in it. -/
inductive WellBraced : List Char → Prop where
  | plain {s : List Char} : Unopened s → WellBraced s
  | cons {before path s : List Char} : Unopened before → Unclosed path → WellBraced s →
      WellBraced (before ++ ('\x7b' :: '\x7b' :: (path ++ '\x7d' :: '\x7d' :: s)))

theorem eq_of_placeholder? {s before inside after : List Char}
    (h : placeholder? s = some (before, inside, after)) :
    s = before ++ '\x7b' :: '\x7b' :: (inside ++ '\x7d' :: '\x7d' :: after) := by
  obtain ⟨⟨a, rest⟩, ha, hrest⟩ := Option.bind_eq_some_iff.1 h
  obtain ⟨⟨b, c⟩, hb, hparts⟩ := Option.map_eq_some_iff.1 hrest
  obtain ⟨hbefore, hpair⟩ := Prod.mk.inj hparts
  obtain ⟨hinside, hafter⟩ := Prod.mk.inj hpair
  have h₁ := Text.append_of_cut ha
  have h₂ := Text.append_of_cut hb
  rw [← hbefore, ← hinside, ← hafter]
  simpa [h₂] using h₁

theorem placeholder?_length {s before inside after : List Char}
    (h : placeholder? s = some (before, inside, after)) : after.length < s.length := by
  rw [eq_of_placeholder? h]
  simp only [List.length_append, List.length_cons]
  omega

/-- What stands in the placeholders of a text, from left to right. -/
def placeholders (s : List Char) : List (List Char) :=
  match _h : placeholder? s with
  | none => []
  | some (_, inside, after) => inside :: placeholders after
termination_by s.length
decreasing_by exact placeholder?_length _h

/-- The text with its placeholders filled, from left to right. -/
def fillText (host : Host) (data : Value) (s : List Char) : Evaluation (List Char) :=
  match _h : placeholder? s with
  | none => pure s
  | some (before, inside, after) => do
    let text ← renderPlaceholder host data inside
    return before ++ text ++ (← fillText host data after)
termination_by s.length
decreasing_by exact placeholder?_length _h

theorem placeholders_of_none {s : List Char} (h : placeholder? s = none) : placeholders s = [] := by
  rw [placeholders]
  split
  · rfl
  next heq => rw [h] at heq; cases heq

theorem placeholders_of_some {s before inside after : List Char}
    (h : placeholder? s = some (before, inside, after)) :
    placeholders s = inside :: placeholders after := by
  rw [placeholders]
  split
  next heq => rw [h] at heq; cases heq
  next heq =>
    rw [h] at heq
    cases heq
    rfl

theorem fillText_of_none {host : Host} {data : Value} {s : List Char} (h : placeholder? s = none) :
    fillText host data s = pure s := by
  rw [fillText]
  split
  · rfl
  next heq => rw [h] at heq; cases heq

theorem fillText_of_some {host : Host} {data : Value} {s before inside after : List Char}
    (h : placeholder? s = some (before, inside, after)) :
    fillText host data s = do
      let text ← renderPlaceholder host data inside
      return before ++ text ++ (← fillText host data after) := by
  rw [fillText]
  split
  next heq => rw [h] at heq; cases heq
  next heq =>
    rw [h] at heq
    cases heq
    rfl

/-- What the placeholders of a text are filled with is inert. -/
def FillsInert (host : Host) (data : Value) (s : List Char) : Prop :=
  ∀ inside ∈ placeholders s, ∀ text, (renderPlaceholder host data inside).Gives text → Inert text

/-- The paths in the placeholders of a text are inert. -/
def HasInertPaths (s : List Char) : Prop := ∀ path ∈ placeholders s, Inert path

/-! ### Braces -/

theorem Inert.unopened {s : List Char} (h : Inert s) : Unopened s :=
  Text.isolated_of_not_mem fun hs => h _ hs (by decide)

theorem WellBraced.append {s t : List Char} (hs : WellBraced s) (ht : WellBraced t) :
    WellBraced (s ++ t) := by
  induction hs with
  | plain hs =>
    cases ht with
    | plain ht => exact .plain (hs.append ht)
    | cons ha hpath ht =>
      rw [← List.append_assoc]
      exact .cons (hs.append ha) hpath ht
  | cons ha hpath _ ih =>
    have := WellBraced.cons ha hpath ih
    simpa using this

theorem placeholder?_of_unopened {s : List Char} (h : Unopened s) : placeholder? s = none := by
  rw [placeholder?, Text.cut_eq_none_of_isolated h]
  rfl

theorem placeholder?_append {before path : List Char} (hb : Unopened before) (hpath : Unclosed path)
    (s : List Char) :
    placeholder? (before ++ ('\x7b' :: '\x7b' :: (path ++ '\x7d' :: '\x7d' :: s))) =
      some (before, path, s) := by
  simp only [placeholder?, Text.cut_append_of_isolated hb, Option.bind_some,
    Text.cut_append_of_isolated hpath, Option.map_some]

theorem placeholders_of_unopened {s : List Char} (h : Unopened s) : placeholders s = [] :=
  placeholders_of_none (placeholder?_of_unopened h)

theorem placeholders_append {before path : List Char} (hb : Unopened before) (hpath : Unclosed path)
    (s : List Char) :
    placeholders (before ++ ('\x7b' :: '\x7b' :: (path ++ '\x7d' :: '\x7d' :: s))) =
      path :: placeholders s :=
  placeholders_of_some (placeholder?_append hb hpath s)

/-- A placeholder by itself. -/
theorem placeholders_single {path : List Char} (h : Unclosed path) :
    placeholders ('\x7b' :: '\x7b' :: (path ++ ['\x7d', '\x7d'])) = [path] := by
  have hempty : Unopened [] := trivial
  rw [← placeholders_of_unopened hempty]
  exact placeholders_append hempty h []

section

variable {host : Host} {data : Value}

theorem fillText_of_unopened {s : List Char} (h : Unopened s) :
    fillText host data s = pure s :=
  fillText_of_none (placeholder?_of_unopened h)

theorem fillText_append {before path : List Char} (hb : Unopened before) (hpath : Unclosed path)
    (s : List Char) :
    fillText host data (before ++ ('\x7b' :: '\x7b' :: (path ++ '\x7d' :: '\x7d' :: s))) = do
      let text ← renderPlaceholder host data path
      return before ++ text ++ (← fillText host data s) :=
  fillText_of_some (placeholder?_append hb hpath s)

theorem gives_fillText_cons {before path s filled : List Char} (hb : Unopened before)
    (hpath : Unclosed path) :
    (fillText host data (before ++ ('\x7b' :: '\x7b' :: (path ++ '\x7d' :: '\x7d' :: s)))).Gives
        filled ↔
      ∃ text rest, (renderPlaceholder host data path).Gives text ∧
        (fillText host data s).Gives rest ∧ filled = before ++ text ++ rest := by
  rw [fillText_append hb hpath]
  exact Evaluation.gives_bind_bind_pure

theorem FillsInert.of_unopened {s : List Char} (h : Unopened s) : FillsInert host data s := by
  intro inside hinside
  rw [placeholders_of_unopened h] at hinside
  exact absurd hinside List.not_mem_nil

theorem HasInertPaths.of_unopened {s : List Char} (h : Unopened s) : HasInertPaths s := by
  intro path hpath
  rw [placeholders_of_unopened h] at hpath
  exact absurd hpath List.not_mem_nil

theorem fillsInert_append_iff {before path s : List Char} (hb : Unopened before)
    (hpath : Unclosed path) :
    FillsInert host data (before ++ ('\x7b' :: '\x7b' :: (path ++ '\x7d' :: '\x7d' :: s))) ↔
      (∀ text, (renderPlaceholder host data path).Gives text → Inert text) ∧
        FillsInert host data s := by
  rw [FillsInert, placeholders_append hb hpath, List.forall_mem_cons]
  rfl

/-! ### Replacing placeholders is filling them -/

/-- Placeholders that are replaced one by one are filled in one pass. The replacements leave a text
    without braces in front of those that are still to come. -/
theorem fillText_of_interpolate {s : List Char} (hs : WellBraced s) (hv : FillsInert host data s)
    {before t : List Char} (hb : Unopened before) {fuel : Nat}
    (h : (interpolate host data fuel (before ++ s)).Gives t) :
    ∃ filled, (fillText host data s).Gives filled ∧ t = before ++ filled := by
  -- By induction on the placeholders that are left. No placeholder begins in what stands before them,
  -- so the next one that is replaced is the first of them.
  induction hs generalizing before fuel with
  | @plain s hs =>
    rw [interpolate_of_no_placeholder host data fuel (placeholder?_of_unopened (hb.append hs)),
      Evaluation.gives_pure] at h
    exact ⟨s, by rw [fillText_of_unopened hs, Evaluation.gives_pure], h.symm⟩
  | @cons a path s ha hpath _ ih =>
    obtain ⟨hpathv, hv⟩ := (fillsInert_append_iff ha hpath).1 hv
    rw [← List.append_assoc, interpolate, placeholder?_append (hb.append ha) hpath] at h
    cases fuel with
    | zero => exact absurd h Evaluation.not_gives_fail
    | succ fuel =>
      obtain ⟨text, htext, h⟩ := Evaluation.gives_bind.1 h
      have hunopened := (hpathv text htext).unopened
      obtain ⟨filled, hfilled, rfl⟩ := ih hv ((hb.append ha).append hunopened) h
      refine ⟨a ++ text ++ filled, ?_, by simp⟩
      exact (gives_fillText_cons ha hpath).2 ⟨text, filled, htext, hfilled, rfl⟩

/-! ### Texts in a row -/

/-- Texts in a row are filled one after the other. -/
theorem gives_fillText_append {s t filled : List Char} (hs : WellBraced s) (ht : WellBraced t) :
    (fillText host data (s ++ t)).Gives filled ↔
      ∃ a b, (fillText host data s).Gives a ∧ (fillText host data t).Gives b ∧
        filled = a ++ b := by
  induction hs generalizing filled with
  | @plain s hs =>
    -- The first text goes to the part before the first placeholder of the second one.
    have hself : ∀ a, (fillText host data s).Gives a ↔ s = a := fun a => by
      rw [fillText_of_unopened hs, Evaluation.gives_pure]
    simp only [hself]
    cases ht with
    | plain ht =>
      simp only [fillText_of_unopened ht, fillText_of_unopened (hs.append ht),
        Evaluation.gives_pure]
      constructor
      · intro h
        exact ⟨s, t, rfl, rfl, h.symm⟩
      · rintro ⟨_, _, rfl, rfl, rfl⟩
        rfl
    | cons ha hpath ht =>
      rw [← List.append_assoc, gives_fillText_cons (hs.append ha) hpath]
      simp only [gives_fillText_cons ha hpath]
      constructor
      · rintro ⟨text, rest, htext, hrest, rfl⟩
        exact ⟨s, _, rfl, ⟨text, rest, htext, hrest, rfl⟩, by simp⟩
      · rintro ⟨_, _, rfl, ⟨text, rest, htext, hrest, rfl⟩, rfl⟩
        exact ⟨text, rest, htext, hrest, by simp⟩
  | @cons a path s ha hpath _ ih =>
    have happend : a ++ ('\x7b' :: '\x7b' :: (path ++ '\x7d' :: '\x7d' :: s)) ++ t =
        a ++ ('\x7b' :: '\x7b' :: (path ++ '\x7d' :: '\x7d' :: (s ++ t))) := by
      simp
    rw [happend, gives_fillText_cons ha hpath]
    simp only [gives_fillText_cons ha hpath]
    constructor
    · rintro ⟨text, rest, htext, hrest, rfl⟩
      obtain ⟨b, c, hb, hc, rfl⟩ := ih.1 hrest
      exact ⟨_, c, ⟨text, b, htext, hb, rfl⟩, hc, by simp⟩
    · rintro ⟨_, c, ⟨text, b, htext, hb, rfl⟩, hc, rfl⟩
      exact ⟨text, _, htext, ih.2 ⟨b, c, hb, hc, rfl⟩, by simp⟩

theorem placeholders_append_of_wellBraced {s t : List Char} (hs : WellBraced s)
    (ht : WellBraced t) : placeholders (s ++ t) = placeholders s ++ placeholders t := by
  induction hs with
  | @plain s hs =>
    rw [placeholders_of_unopened hs, List.nil_append]
    cases ht with
    | plain ht => rw [placeholders_of_unopened ht, placeholders_of_unopened (hs.append ht)]
    | cons ha hpath ht =>
      rw [← List.append_assoc, placeholders_append (hs.append ha) hpath,
        placeholders_append ha hpath]
  | @cons a path s ha hpath _ ih =>
    have happend : a ++ ('\x7b' :: '\x7b' :: (path ++ '\x7d' :: '\x7d' :: s)) ++ t =
        a ++ ('\x7b' :: '\x7b' :: (path ++ '\x7d' :: '\x7d' :: (s ++ t))) := by
      simp
    rw [happend, placeholders_append ha hpath, placeholders_append ha hpath, ih]
    rfl

theorem FillsInert.append {s t : List Char} (hs : WellBraced s) (ht : WellBraced t)
    (hsv : FillsInert host data s) (htv : FillsInert host data t) :
    FillsInert host data (s ++ t) := by
  intro inside hinside
  rw [placeholders_append_of_wellBraced hs ht] at hinside
  rcases List.mem_append.1 hinside with h | h
  · exact hsv inside h
  · exact htv inside h

/-! ### Escaped texts -/

/-- A way to write characters: only the characters that markup is told by are written otherwise than
    as themselves, and none of them with a brace. -/
structure Escapes (w : Char → List Char) : Prop where
  keeps : ∀ c, c ∉ ['&', '<', '>', '"'] → w c = [c]
  nonempty : ∀ c ∈ ['&', '<', '>', '"'], w c ≠ []
  braceless : ∀ c ∈ ['&', '<', '>', '"'], ∀ brace ∈ ['\x7b', '\x7d'], brace ∉ w c

theorem escapes_escapeChar : Escapes Markup.escapeChar where
  keeps c hc := by
    simp only [List.mem_cons, List.not_mem_nil, or_false, not_or] at hc
    rw [Markup.escapeChar, if_neg hc.1, if_neg hc.2.1, if_neg hc.2.2.1]
  nonempty c hc := by
    simp only [List.mem_cons, List.not_mem_nil, or_false] at hc
    rcases hc with rfl | rfl | rfl | rfl <;> decide
  braceless c hc brace hbrace := by
    simp only [List.mem_cons, List.not_mem_nil, or_false] at hc hbrace
    rcases hc with rfl | rfl | rfl | rfl <;> rcases hbrace with rfl | rfl <;> decide

theorem escapes_escapeAttrChar : Escapes Markup.escapeAttrChar where
  keeps c hc := by
    simp only [List.mem_cons, List.not_mem_nil, or_false, not_or] at hc
    rw [Markup.escapeAttrChar, if_neg hc.1, if_neg hc.2.2.2]
  nonempty c hc := by
    simp only [List.mem_cons, List.not_mem_nil, or_false] at hc
    rcases hc with rfl | rfl | rfl | rfl <;> decide
  braceless c hc brace hbrace := by
    simp only [List.mem_cons, List.not_mem_nil, or_false] at hc hbrace
    rcases hc with rfl | rfl | rfl | rfl <;> rcases hbrace with rfl | rfl <;> decide

/-- What an escaped text is filled to, without the escapes: no placeholder begins in it, the values
    bring in no special characters, and it is what the text is filled to if no escape changes a
    path. -/
structure EscapedFill (host : Host) (data : Value) (s filled : List Char) : Prop where
  unopened : Unopened filled
  origin : ∀ c ∈ filled, c ∈ specialChars → c ∈ s
  fills : HasInertPaths s → (fillText host data s).Gives filled

variable {w : Char → List Char} (hw : Escapes w)

include hw

theorem flatMap_of_inert {s : List Char} (h : Inert s) : s.flatMap w = s := by
  induction s with
  | nil => rfl
  | cons c s ih =>
    have hc : c ∉ ['&', '<', '>', '"'] := fun hm =>
      h c List.mem_cons_self (List.mem_append_left ['\x7b', '\x7d'] hm)
    rw [List.flatMap_cons, hw.keeps c hc, ih fun d hd => h d (List.mem_cons_of_mem c hd)]
    rfl

/-- Escapes neither double a brace nor leave one at the end. -/
theorem isolated_flatMap {brace : Char} (hbrace : brace ∈ ['\x7b', '\x7d']) {s : List Char}
    (h : Text.Isolated brace s) : Text.Isolated brace (s.flatMap w) := by
  have hhead : ∀ d, d ≠ brace → ∃ e t, w d = e :: t ∧ e ≠ brace := by
    intro d hd
    by_cases hspecial : d ∈ ['&', '<', '>', '"']
    · have hnot := hw.braceless d hspecial brace hbrace
      obtain ⟨e, t, het⟩ := List.exists_cons_of_ne_nil (hw.nonempty d hspecial)
      refine ⟨e, t, het, ?_⟩
      rintro rfl
      exact hnot (het ▸ List.mem_cons_self)
    · exact ⟨d, [], hw.keeps d hspecial, hd⟩
  induction s with
  | nil => trivial
  | cons c s ih =>
    rw [List.flatMap_cons]
    by_cases hspecial : c ∈ ['&', '<', '>', '"']
    · exact (Text.isolated_of_not_mem (hw.braceless c hspecial brace hbrace)).append (ih h.2)
    · rw [hw.keeps c hspecial]
      refine ⟨fun hc => ?_, ih h.2⟩
      subst hc
      obtain ⟨d, s, rfl, hd⟩ := h.exists_cons
      obtain ⟨e, t, het, he⟩ := hhead d hd
      exact ⟨e, by rw [List.flatMap_cons, het]; rfl, he⟩

/-- The marks of a placeholder are written as themselves. -/
theorem flatMap_placeholder (before path s : List Char) :
    (before ++ ('\x7b' :: '\x7b' :: (path ++ '\x7d' :: '\x7d' :: s))).flatMap w =
      before.flatMap w ++
        ('\x7b' :: '\x7b' :: (path.flatMap w ++ '\x7d' :: '\x7d' :: s.flatMap w)) := by
  have hopen : w '\x7b' = ['\x7b'] := hw.keeps _ (by decide)
  have hclose : w '\x7d' = ['\x7d'] := hw.keeps _ (by decide)
  simp [List.flatMap_append, List.flatMap_cons, hopen, hclose]

theorem Unopened.flatMap {s : List Char} (h : Unopened s) : Unopened (s.flatMap w) :=
  isolated_flatMap hw (by decide) h

theorem Unclosed.flatMap {s : List Char} (h : Unclosed s) : Unclosed (s.flatMap w) :=
  isolated_flatMap hw (by decide) h

theorem WellBraced.flatMap {s : List Char} (h : WellBraced s) : WellBraced (s.flatMap w) := by
  induction h with
  | plain hs => exact .plain (hs.flatMap hw)
  | cons ha hpath _ ih =>
    rw [flatMap_placeholder hw]
    exact .cons (ha.flatMap hw) (hpath.flatMap hw) ih

theorem placeholders_flatMap {s : List Char} (h : WellBraced s) :
    placeholders (s.flatMap w) = (placeholders s).map fun path => path.flatMap w := by
  induction h with
  | plain hs =>
    rw [placeholders_of_unopened hs, placeholders_of_unopened (hs.flatMap hw)]
    rfl
  | cons ha hpath _ ih =>
    rw [flatMap_placeholder hw,
      placeholders_append (ha.flatMap hw) (hpath.flatMap hw),
      placeholders_append ha hpath, ih]
    rfl

/-- Escapes change no inert path. -/
theorem FillsInert.flatMap {s : List Char} (h : WellBraced s) (hpaths : HasInertPaths s)
    (hv : FillsInert host data s) : FillsInert host data (s.flatMap w) := by
  intro inside hinside
  rw [placeholders_flatMap hw h] at hinside
  obtain ⟨path, hpath, rfl⟩ := List.mem_map.1 hinside
  rw [flatMap_of_inert hw (hpaths path hpath)]
  exact hv path hpath

/-- An escaped text is filled to an escaped text. -/
theorem escapedFill_of_gives_fillText {s t : List Char} (h : WellBraced s)
    (hv : FillsInert host data (s.flatMap w)) (ht : (fillText host data (s.flatMap w)).Gives t) :
    ∃ filled, EscapedFill host data s filled ∧ t = filled.flatMap w := by
  induction h generalizing t with
  | @plain s hs =>
    rw [fillText_of_unopened (hs.flatMap hw), Evaluation.gives_pure] at ht
    refine ⟨s, ⟨hs, fun _ hc _ => hc, fun _ => ?_⟩, ht.symm⟩
    rw [fillText_of_unopened hs, Evaluation.gives_pure]
  | @cons a path s ha hpath _ ih =>
    -- The value that comes in is inert, so it is the same with and without the escapes.
    rw [flatMap_placeholder hw] at hv ht
    have ha' := ha.flatMap hw
    have hpath' := hpath.flatMap hw
    obtain ⟨hpathv, hv⟩ := (fillsInert_append_iff ha' hpath').1 hv
    obtain ⟨text, rest, htext, hrest, rfl⟩ := (gives_fillText_cons ha' hpath').1 ht
    obtain ⟨filled, hfilled, rfl⟩ := ih hv hrest
    have hinert := hpathv text htext
    refine ⟨a ++ text ++ filled, ⟨?_, fun c hc hspecial => ?_, fun hpaths => ?_⟩, ?_⟩
    · exact (ha.append hinert.unopened).append hfilled.unopened
    · rw [List.mem_append, List.mem_append] at hc
      rcases hc with (hc | hc) | hc
      · exact List.mem_append_left _ hc
      · exact absurd hspecial (hinert c hc)
      · have := hfilled.origin c hc hspecial
        simp [this]
    · rw [HasInertPaths, placeholders_append ha hpath, List.forall_mem_cons] at hpaths
      rw [flatMap_of_inert hw hpaths.1] at htext
      exact (gives_fillText_cons ha hpath).2
        ⟨text, filled, htext, hfilled.fills hpaths.2, rfl⟩
    · rw [List.flatMap_append, List.flatMap_append, flatMap_of_inert hw hinert]

end

end Stencil
