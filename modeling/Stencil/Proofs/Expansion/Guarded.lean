import Stencil.Proofs.Expansion.Rendering
import Stencil.Proofs.Expansion.Untaken

/-!
# Values that come in

That the values that come in for placeholders are inert is a condition on a run: on the values of the
placeholders that it comes to, not on all that the context holds. It is told by a run that fails
wherever a value comes in that is not inert (`expandInert`). The condition is that this makes no
difference, whatever failure it would be (`FillsInertly`). So two runs need to be compared up to this
failure only (`Evaluation.MatchesUnless`).

In the last pass two markups are replaced alike if they have the same placeholders, whatever stands
around these (`matchesUnless_interpolateInert`). The placeholders in the markup of nodes are those in
their escaped texts, one after the other (`bears_writeAll`).
-/

namespace Stencil

namespace Evaluation

variable {α β γ δ : Type} {failure : Failure} {R R' : α → β → Prop} {S : γ → δ → Prop}

/-- Two evaluations match, unless the first one fails in the given way. -/
def MatchesUnless (failure : Failure) (R : α → β → Prop) (x : Evaluation α) (y : Evaluation β) :
    Prop :=
  x.outcome = .error failure ∨ Matches R x y

theorem Matches.unless {x : Evaluation α} {y : Evaluation β} (h : Matches R x y) :
    MatchesUnless failure R x y :=
  .inr h

theorem matchesUnless_pure {a : α} {b : β} (h : R a b) :
    MatchesUnless failure R (pure a) (pure b) :=
  (matches_pure h).unless

/-- Both evaluations fail alike. -/
theorem matchesUnless_fail (other : Failure) :
    MatchesUnless failure R (fail other) (fail other) :=
  Matches.failure.unless

theorem MatchesUnless.bind {x : Evaluation α} {y : Evaluation β} {f : α → Evaluation γ}
    {g : β → Evaluation δ} (h : MatchesUnless failure R x y)
    (hf : ∀ a b, x.Gives a → y.Gives b → R a b → MatchesUnless failure S (f a) (g b)) :
    MatchesUnless failure S (x >>= f) (y >>= g) := by
  rcases h with h | h
  · left
    rw [Traced.bind_of_error h]
  cases h with
  | failure => exact Matches.failure.unless
  | @result a b calls hab =>
    rw [Traced.bind_of_ok rfl, Traced.bind_of_ok rfl]
    rcases hf a b rfl rfl hab with hfail | hmatch
    · exact .inl hfail
    · generalize f a = fa, g b = gb at hmatch ⊢
      cases hmatch with
      | result hcd => exact (Matches.result hcd).unless
      | failure => exact Matches.failure.unless

/-- What comes behind the same evaluation has to match. -/
theorem matchesUnless_bind_self {x : Evaluation α} {f : α → Evaluation γ} {g : α → Evaluation δ}
    (hf : ∀ a, x.Gives a → MatchesUnless failure S (f a) (g a)) :
    MatchesUnless failure S (x >>= f) (x >>= g) :=
  (matches_self x).unless.bind fun a _ ha _ hab => hab ▸ hf a ha

theorem MatchesUnless.imp {x : Evaluation α} {y : Evaluation β} (h : MatchesUnless failure R x y)
    (himp : ∀ a b, R a b → R' a b) : MatchesUnless failure R' x y := by
  rcases h with h | h
  · exact .inl h
  · cases h with
    | result hab => exact (Matches.result (himp _ _ hab)).unless
    | failure => exact Matches.failure.unless

end Evaluation

open Evaluation

instance : DecidablePred Inert :=
  List.decidableBAll fun c => c ∉ specialChars

/-- The text with its placeholders replaced, which fails at the first value that is not inert. -/
def interpolateInert (failure : Failure) (host : Host) (data : Value) :
    (fuel : Nat) → List Char → Evaluation (List Char)
  | fuel, s =>
    match placeholder? s with
    | none => pure s
    | some (before, inside, after) =>
      match fuel with
      | 0 => Evaluation.fail .unfinished
      | fuel + 1 => do
        let text ← renderPlaceholder host data inside
        if Inert text then interpolateInert failure host data fuel (before ++ text ++ after)
        else Evaluation.fail failure

namespace Expansion

/-- The expansion that fails at the first value that comes in and is not inert. -/
def expandInert (failure : Failure) (s : Surroundings) : (depth : Nat) →
    (inserting : List String) → Context → List Node → Evaluation (List Node)
  | 0, _, _, _ => Evaluation.fail .unfinished
  | depth + 1, inserting, context, nodes => do
    let expand := expandInert failure s depth inserting
    let nodes ← expandRepeats s.host expand context nodes
    let nodes ← expandBranches s.host expand context nodes .nothing
    let nodes ← expandInserts (expandInsert s.registry
      (fun inserting => expandInert failure s depth inserting context) inserting) nodes
    let text := stripComments (Node.writeAll nodes)
    let text ← interpolateInert failure s.host (.map context) s.limits.replacements text
    Evaluation.ofMarkup (Node.parse (String.ofList text))

/-- All values that come in when nodes are expanded are inert: it does not matter how the expansion
    would fail at another one. -/
def FillsInertly (s : Surroundings) (context : Context) (nodes : List Node) : Prop :=
  ∀ failure, expandInert failure s s.limits.depth [] context nodes =
    expandNodes s s.limits.depth [] context nodes

end Expansion

section

variable {failure : Failure} {host : Host} {data : Value}

/-- What is replaced without a failure is replaced as it is anyway. -/
theorem gives_interpolate_of_inert {fuel : Nat} {s t : List Char}
    (h : (interpolateInert failure host data fuel s).Gives t) :
    (interpolate host data fuel s).Gives t := by
  induction fuel generalizing s with
  | zero =>
    cases hfirst : placeholder? s with
    | none =>
      rw [interpolateInert, hfirst] at h
      rwa [interpolate, hfirst]
    | some parts =>
      rw [interpolateInert, hfirst] at h
      exact absurd h not_gives_fail
  | succ fuel ih =>
    cases hfirst : placeholder? s with
    | none =>
      rw [interpolateInert, hfirst] at h
      rwa [interpolate, hfirst]
    | some parts =>
      rw [interpolateInert, hfirst] at h
      rw [interpolate, hfirst]
      obtain ⟨text, htext, h⟩ := gives_bind.1 h
      refine gives_bind.2 ⟨text, htext, ?_⟩
      split_ifs at h
      · exact ih h
      · exact absurd h not_gives_fail

/-- The values that come in without a failure are inert. -/
theorem fillsInert_of_gives_interpolateInert {s : List Char} (hs : WellBraced s)
    {before t : List Char} (hb : Unopened before) {fuel : Nat}
    (h : (interpolateInert failure host data fuel (before ++ s)).Gives t) :
    FillsInert host data s := by
  induction hs generalizing before fuel with
  | plain hs => exact .of_unopened hs
  | @cons a path s ha hpath _ ih =>
    rw [← List.append_assoc, interpolateInert, placeholder?_append (hb.append ha) hpath] at h
    cases fuel with
    | zero => exact absurd h not_gives_fail
    | succ fuel =>
      obtain ⟨text, htext, h⟩ := gives_bind.1 h
      by_cases hinert : Inert text
      · rw [if_pos hinert] at h
        refine (fillsInert_append_iff ha hpath).2 ⟨fun other hother => ?_,
          ih ((hb.append ha).append hinert.unopened) h⟩
        rwa [hother.unique htext]
      · rw [if_neg hinert] at h
        exact absurd h not_gives_fail

/-- Texts with the same placeholders are replaced alike. -/
theorem matchesUnless_interpolateInert {s s' : List Char} (hs : WellBraced s) (hs' : WellBraced s')
    (h : placeholders s = placeholders s') {before before' : List Char} (hb : Unopened before)
    (hb' : Unopened before') (fuel : Nat) :
    MatchesUnless failure (fun _ _ => True) (interpolateInert failure host data fuel (before ++ s))
      (interpolate host data fuel (before' ++ s')) := by
  -- By induction on the placeholders of the first text: each is the next one in both.
  induction hs generalizing s' before before' fuel with
  | @plain s hs =>
    rw [placeholders_of_unopened hs] at h
    cases hs' with
    | plain hs' =>
      rw [interpolateInert, placeholder?_of_unopened (hb.append hs),
        interpolate_of_no_placeholder host data fuel (placeholder?_of_unopened (hb'.append hs'))]
      exact matchesUnless_pure trivial
    | cons ha hpath _ =>
      rw [placeholders_append ha hpath] at h
      exact absurd h.symm (List.cons_ne_nil _ _)
  | @cons a path s ha hpath _ ih =>
    rw [placeholders_append ha hpath] at h
    cases hs' with
    | plain hs' =>
      rw [placeholders_of_unopened hs'] at h
      exact absurd h (List.cons_ne_nil _ _)
    | cons ha' hpath' hs' =>
      rw [placeholders_append ha' hpath', List.cons.injEq] at h
      obtain ⟨rfl, h⟩ := h
      rw [← List.append_assoc, ← List.append_assoc before', interpolateInert, interpolate,
        placeholder?_append (hb.append ha) hpath, placeholder?_append (hb'.append ha') hpath']
      cases fuel with
      | zero => exact matchesUnless_fail _
      | succ fuel =>
        refine matchesUnless_bind_self fun text _ => ?_
        split_ifs with hinert
        · exact ih hs' h ((hb.append ha).append hinert.unopened)
            ((hb'.append ha').append hinert.unopened) fuel
        · exact .inl rfl

end

/-! ### Placeholders in the markup of nodes -/

/-- A text has the given placeholders, and each ends in it. -/
structure Bears (paths : List (List Char)) (s : List Char) : Prop where
  wellBraced : WellBraced s
  placeholders_eq : placeholders s = paths

theorem bears_of_unopened {s : List Char} (h : Unopened s) : Bears [] s :=
  ⟨.plain h, placeholders_of_unopened h⟩

theorem Bears.append {paths paths' : List (List Char)} {s t : List Char} (hs : Bears paths s)
    (ht : Bears paths' t) : Bears (paths ++ paths') (s ++ t) where
  wellBraced := hs.wellBraced.append ht.wellBraced
  placeholders_eq := by
    rw [placeholders_append_of_wellBraced hs.wellBraced ht.wellBraced, hs.placeholders_eq,
      ht.placeholders_eq]

/-- Escaped texts have escaped placeholders. -/
theorem WellBraced.bears {w : Char → List Char} (hw : Escapes w) {s : List Char}
    (h : WellBraced s) : Bears (placeholders (s.flatMap w)) (s.flatMap w) :=
  ⟨h.flatMap hw, rfl⟩

/-- Escapes do not change inert paths. -/
theorem placeholders_flatMap_of_inertPaths {w : Char → List Char} (hw : Escapes w) {s : List Char}
    (h : WellBraced s) (hpaths : HasInertPaths s) : placeholders (s.flatMap w) = placeholders s := by
  rw [placeholders_flatMap hw h]
  calc (placeholders s).map (fun path => path.flatMap w) = (placeholders s).map id :=
        List.map_congr_left fun path hpath => flatMap_of_inert hw (hpaths path hpath)
    _ = placeholders s := List.map_id _

namespace Expansion

open Markup Node

/-- The placeholders in the markup of attributes. -/
def entryPlaceholders (entries : List (String × String)) : List (List Char) :=
  entries.flatMap fun entry => placeholders (escapeAttr entry.2.toList)

mutual

/-- The placeholders in the markup of a node. -/
def nodePlaceholders : Node → List (List Char)
  | .text data _ => placeholders (escape data.toList)
  | .comment _ => []
  | .element _ attrs children _ => entryPlaceholders attrs.entries ++ placeholdersIn children
  | .fragment children => placeholdersIn children
termination_by structural n => n

/-- The placeholders in the markup of nodes. -/
def placeholdersIn : List Node → List (List Char)
  | [] => []
  | n :: ns => nodePlaceholders n ++ placeholdersIn ns
termination_by structural ns => ns

end

theorem bears_writeAttr {name value : List Char} (hname : isName name = true)
    (hvalue : WellBraced value) :
    Bears (placeholders (escapeAttr value)) (writeAttr name value) := by
  have hname := unopened_of_isName hname
  have hspace : Unopened [' '] := by decide
  unfold writeAttr
  split
  · exact placeholders_of_unopened (s := escapeAttr []) trivial ▸
      bears_of_unopened (hspace.append hname)
  next c cs =>
    have hopen : Unopened ['=', '"'] := by decide
    have hquote : Unopened ['"'] := by decide
    have h := ((bears_of_unopened (hspace.append (hname.append hopen))).append
      (hvalue.bears escapes_escapeAttrChar)).append (bears_of_unopened hquote)
    simpa [escapeAttr] using h

theorem bears_writeEntries {entries : List (String × String)}
    (hnames : ∀ entry ∈ entries, isName entry.1.toList = true)
    (hvalues : ∀ entry ∈ entries, WellBraced entry.2.toList) :
    Bears (entryPlaceholders entries) (writeEntries entries) := by
  induction entries with
  | nil => exact bears_of_unopened trivial
  | cons entry entries ih =>
    rw [writeEntries_cons, entryPlaceholders, List.flatMap_cons, ← entryPlaceholders]
    exact (bears_writeAttr (hnames entry List.mem_cons_self) (hvalues entry List.mem_cons_self)).append
      (ih (fun e he => hnames e (List.mem_cons_of_mem entry he))
        fun e he => hvalues e (List.mem_cons_of_mem entry he))

/-- The placeholders in the markup of nodes are those of their texts, escaped. -/
theorem bears_writeAll {ns : List Node}
    (h : Everywhere (fun n _ => n.IsPlain ∧ n.HasTexts WellBraced ∧ n.Lacks Directive.tags) ns) :
    Bears (placeholdersIn ns) (writeAll ns) := by
  induction ns using forest_induction with
  | nil => exact bears_of_unopened trivial
  | text data raw ns ih =>
    obtain ⟨⟨rfl, hdata, -⟩, -, h⟩ := h
    rw [writeAll, placeholdersIn, nodePlaceholders]
    exact Bears.append (hdata.bears escapes_escapeChar) (ih h)
  | comment data ns ih => exact h.1.1.elim
  | element tag attrs children void ns ihc ih =>
    obtain ⟨⟨⟨htag, hattrs, -⟩, htexts, hlacks⟩, hchildren, h⟩ := h
    have hentries := bears_writeEntries hattrs (htexts hlacks)
    have hopen := bears_of_unopened (unopened_openTag htag)
    rw [writeAll, placeholdersIn, nodePlaceholders]
    refine Bears.append ?_ (ih h)
    by_cases hempty : (void && children.isEmpty) = true
    · obtain rfl : children = [] := by simpa using (Bool.and_eq_true_iff.1 hempty).2
      rw [write_element_empty tag attrs hempty]
      simpa [placeholdersIn] using
        hopen.append (hentries.append (bears_of_unopened (unopened_voidClose tag)))
    · have hgt : Unopened ['>'] := by decide
      rw [write_element_body tag attrs hempty]
      simpa using hopen.append (hentries.append ((bears_of_unopened hgt).append
        ((ihc hchildren).append (bears_of_unopened (unopened_closeTag htag)))))
  | fragment children ns ihc ih =>
    rw [writeAll, write, placeholdersIn, nodePlaceholders]
    exact (ihc h.2.1).append (ih h.2.2)

end Expansion

end Stencil
