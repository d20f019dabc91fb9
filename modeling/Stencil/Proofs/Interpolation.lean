import Mathlib.Logic.Relation
import Stencil.Proofs.Ending

/-!
# One pass over the placeholders of a text

Placeholders are replaced one after the other, always the first one of the text as it is by then. If no
value that comes in on the way opens a placeholder (`BringsNoOpener`), neither by two braces in a row
nor by one at its end, this is one pass from left to right over the text as it was
(`interpolate_of_bringsNoOpener`): the text is cut once, into its placeholders and the texts around
them, every placeholder is rendered once, in order, and what it is rendered to is put in its place. The
first placeholder that cannot be rendered decides how the pass ends.

* `weave_placeholders`: the placeholders and the texts around them make up the text;
* `interpolate_append`: what is replaced already is not looked at again;
* `fillText_eq_mapM`: one pass renders the placeholders in a row.
-/

namespace Stencil

open Evaluation

/-! ### The cut of a text -/

/-- The texts around the placeholders of a text: what stands before each of them, and what stands
    behind the last one. -/
def surroundings (s : List Char) : List (List Char) :=
  match _h : placeholder? s with
  | none => [s]
  | some (before, _, after) => before :: surroundings after
termination_by s.length
decreasing_by exact placeholder?_length _h

/-- Texts with other texts in the gaps between them. -/
def weave : (around texts : List (List Char)) → List Char
  | [], _ => []
  | a :: around, texts => a ++ texts.headD [] ++ weave around texts.tail

/-- A placeholder, with what stands in it. -/
def braced (inside : List Char) : List Char :=
  '\x7b' :: '\x7b' :: (inside ++ ['\x7d', '\x7d'])

theorem surroundings_of_none {s : List Char} (h : placeholder? s = none) : surroundings s = [s] := by
  rw [surroundings]
  split
  · rfl
  next heq => rw [h] at heq; cases heq

theorem surroundings_of_some {s before inside after : List Char}
    (h : placeholder? s = some (before, inside, after)) :
    surroundings s = before :: surroundings after := by
  rw [surroundings]
  split
  next heq => rw [h] at heq; cases heq
  next heq =>
    rw [h] at heq
    cases heq
    rfl

/-- Nothing of a text is left out of its cut. -/
theorem weave_placeholders (s : List Char) :
    weave (surroundings s) ((placeholders s).map braced) = s := by
  induction s using placeholders.induct with
  | case1 s h =>
    simp [placeholders_of_none h, surroundings_of_none h, weave]
  | case2 s before inside after h ih =>
    rw [placeholders_of_some h, surroundings_of_some h, List.map_cons, weave, List.headD_cons, List.tail_cons, ih,
      eq_of_placeholder? h, braced]
    simp

variable {host : Host} {data : Value}

/-- One pass renders the placeholders of a text in a row and puts what they are rendered to in their
    places. -/
theorem fillText_eq_mapM (s : List Char) :
    fillText host data s = do
      let texts ← (placeholders s).mapM (renderPlaceholder host data)
      return weave (surroundings s) texts := by
  induction s using fillText.induct with
  | case1 s h =>
    rw [fillText_of_none h, placeholders_of_none h, surroundings_of_none h, List.mapM_nil, pure_bind]
    simp [weave]
  | case2 s before inside after h ih =>
    rw [fillText_of_some h, placeholders_of_some h, surroundings_of_some h, List.mapM_cons]
    simp only [ih, bind_assoc, pure_bind, weave, List.headD_cons, List.tail_cons]

/-! ### What is replaced already -/

/-- One text becomes another when its first placeholder is replaced. -/
inductive Replaces (host : Host) (data : Value) : List Char → List Char → Prop where
  | first {s before inside after text : List Char} :
      placeholder? s = some (before, inside, after) →
      (renderPlaceholder host data inside).Gives text →
      Replaces host data s (before ++ text ++ after)

/-- None of the values that come in while the placeholders of a text are replaced opens a placeholder:
    it has no two opening braces in a row and does not end in one. -/
def BringsNoOpener (host : Host) (data : Value) (s : List Char) : Prop :=
  ∀ t before inside after text, Relation.ReflTransGen (Replaces host data) s t →
    placeholder? t = some (before, inside, after) → (renderPlaceholder host data inside).Gives text →
    ¬['\x7b', '\x7b'] <:+: text ∧ text.getLast? ≠ some '\x7b'

theorem BringsNoOpener.replaces {s t : List Char} (h : BringsNoOpener host data s)
    (hst : Replaces host data s t) : BringsNoOpener host data t :=
  fun u before inside after text htu => h u before inside after text (.head hst htu)

theorem bringsNoOpener_of_none {s : List Char} (h : placeholder? s = none) :
    BringsNoOpener host data s := by
  intro t before inside after text hst ht htext
  rcases hst.cases_head with rfl | ⟨_, ⟨hs, _⟩, _⟩
  · rw [h] at ht; cases ht
  · rw [h] at hs; cases hs

theorem bringsNoOpener_of_some {s before inside after text : List Char}
    (h : placeholder? s = some (before, inside, after))
    (htext : (renderPlaceholder host data inside).Gives text) (hopener : Unopened text)
    (hnext : BringsNoOpener host data (before ++ text ++ after)) : BringsNoOpener host data s := by
  intro t b i a v hst ht hv
  rcases hst.cases_head with rfl | ⟨_, ⟨hs, hw⟩, hrest⟩
  · rw [h] at ht
    cases ht
    rw [hv.unique htext]
    exact Text.isolated_iff.1 hopener
  · rw [h] at hs
    cases hs
    rw [hw.unique htext] at hrest
    exact hnext t b i a v hrest ht hv

/-- The first placeholder is the one behind a text in which none is opened. -/
theorem placeholder?_unopened_append {a : List Char} (ha : Unopened a) (s : List Char) :
    placeholder? (a ++ s) =
      (placeholder? s).map fun (before, inside, after) => (a ++ before, inside, after) := by
  rw [placeholder?, placeholder?, Text.cut_isolated_append ha]
  cases Text.cut ['\x7b', '\x7b'] s with
  | none => rfl
  | some found =>
    obtain ⟨before, rest⟩ := found
    simp only [Option.map_some, Option.bind_some, Option.map_map]
    rfl

theorem unopened_of_placeholder? {s before inside after : List Char}
    (h : placeholder? s = some (before, inside, after)) : Unopened before := by
  obtain ⟨⟨a, rest⟩, ha, hrest⟩ := Option.bind_eq_some_iff.1 h
  obtain ⟨⟨b, c⟩, -, hparts⟩ := Option.map_eq_some_iff.1 hrest
  obtain ⟨rfl, -⟩ := Prod.mk.inj hparts
  exact Text.isolated_of_cut ha

/-- As many replacements as there are placeholders behind a text in which none is opened are enough,
    and they leave this text as it is. -/
theorem interpolate_append {a s : List Char} (ha : Unopened a)
    (h : BringsNoOpener host data (a ++ s)) {fuel : Nat} (hfuel : (placeholders s).length ≤ fuel) :
    interpolate host data fuel (a ++ s) = do return a ++ (← fillText host data s) := by
  -- By induction on the placeholders behind `a`: once the first of them is replaced, no placeholder is
  -- opened in `a`, in the text before it and in what came in for it.
  induction s using fillText.induct generalizing a fuel with
  | case1 s hs =>
    have hnone : placeholder? (a ++ s) = none := by rw [placeholder?_unopened_append ha, hs]; rfl
    rw [interpolate_of_no_placeholder host data fuel hnone, fillText_of_none hs, pure_bind]
  | case2 s before inside after hs ih =>
    have hsome : placeholder? (a ++ s) = some (a ++ before, inside, after) := by
      rw [placeholder?_unopened_append ha, hs]
      rfl
    rw [placeholders_of_some hs, List.length_cons] at hfuel
    obtain ⟨fuel, rfl⟩ : ∃ n, fuel = n + 1 := ⟨fuel - 1, by omega⟩
    rw [interpolate, hsome, fillText_of_some hs]
    simp only [bind_assoc, pure_bind]
    refine bind_congr_of_gives fun text htext => ?_
    obtain ⟨hopener, hlast⟩ := h _ _ _ _ _ .refl hsome htext
    have hdone : Unopened (a ++ before ++ text) :=
      (ha.append (unopened_of_placeholder? hs)).append (Text.isolated_iff.2 ⟨hopener, hlast⟩)
    rw [ih hdone (h.replaces (.first hsome htext)) (by omega)]
    simp only [List.append_assoc]

/-! ### One pass -/

/-- The replacing of placeholders is one pass over the text if no value that comes in opens a
    placeholder. It ends; its result is the text with every placeholder of its cut replaced, and it
    calls what the placeholders call, each of them once and in order; and if one of them fails, it ends
    as the first one that does. -/
theorem interpolate_of_bringsNoOpener (host : Host) (data : Value) (s : List Char)
    (h : BringsNoOpener host data s) :
    weave (surroundings s) ((placeholders s).map braced) = s ∧
    ∀ fuel, (placeholders s).length ≤ fuel →
      (interpolate host data fuel s).Finishes ∧
      (interpolate host data fuel s = do
        let texts ← (placeholders s).mapM (renderPlaceholder host data)
        return weave (surroundings s) texts) ∧
      ∀ before inside after failure, placeholders s = before ++ inside :: after →
        (∀ p ∈ before, ∃ text, (renderPlaceholder host data p).Gives text) →
        (renderPlaceholder host data inside).outcome = .error failure →
        (interpolate host data fuel s).outcome = .error failure := by
  refine ⟨weave_placeholders s, fun fuel hfuel => ?_⟩
  have hpass : interpolate host data fuel s = fillText host data s := by
    have happend := interpolate_append (a := []) trivial h hfuel
    simpa using happend
  rw [hpass, fillText_eq_mapM]
  refine ⟨?_, rfl, fun before inside after failure hcut hbefore hfails => ?_⟩
  · exact (finishes_mapM fun p _ => finishes_renderPlaceholder p).bind fun _ _ => finishes_pure _
  · have hmapM : ((before ++ inside :: after).mapM (renderPlaceholder host data)).outcome =
        .error failure := outcome_mapM_of_error hbefore hfails
    rw [hcut, Traced.bind_of_error hmapM]

/-- A text with two placeholders. -/
def bracesText : List Char := '(' :: (braced ['a'] ++ (braced [' ', 'b', ' '] ++ [')']))

/-- What its placeholders stand for: braces that open nothing, and nothing. -/
def bracesContext : Context := [(.str "a", .str "\x7b\x7d\x7d"), (.str "b", .str "")]

theorem bringsNoOpener_bracesText :
    BringsNoOpener Host.none (.map bracesContext) bracesText := by
  have hfirst : (renderPlaceholder Host.none (.map bracesContext) ['a']).Gives
      ['\x7b', '\x7d', '\x7d'] := rfl
  have hsecond : (renderPlaceholder Host.none (.map bracesContext) [' ', 'b', ' ']).Gives [] := rfl
  have hopener : Unopened ['\x7b', '\x7d', '\x7d'] :=
    ⟨fun _ => ⟨'\x7d', rfl, by decide⟩, Text.isolated_of_not_mem (by decide)⟩
  refine bringsNoOpener_of_some rfl hfirst hopener ?_
  refine bringsNoOpener_of_some rfl hsecond trivial ?_
  exact bringsNoOpener_of_none rfl

theorem interpolate_of_bringsNoOpener_braces :
    BringsNoOpener Host.none (.map bracesContext) bracesText ∧
      (interpolate Host.none (.map bracesContext) 2 bracesText).Gives
        ['(', '\x7b', '\x7d', '\x7d', ')'] := by
  have hfirst : placeholder? bracesText =
      some (['('], ['a'], braced [' ', 'b', ' '] ++ [')']) := rfl
  have hsecond : placeholder? (braced [' ', 'b', ' '] ++ [')']) = some ([], [' ', 'b', ' '], [')']) :=
    rfl
  have hlast : placeholder? [')'] = none := rfl
  have hcut : placeholders bracesText = [['a'], [' ', 'b', ' ']] := by
    rw [placeholders_of_some hfirst, placeholders_of_some hsecond, placeholders_of_none hlast]
  have hpass := (interpolate_of_bringsNoOpener Host.none _ _ bringsNoOpener_bracesText).2 2
    (by rw [hcut]; rfl)
  refine ⟨bringsNoOpener_bracesText, ?_⟩
  rw [hpass.2.1, hcut, surroundings_of_some hfirst, surroundings_of_some hsecond,
    surroundings_of_none hlast]
  rfl

end Stencil
