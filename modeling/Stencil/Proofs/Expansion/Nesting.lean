import Stencil.Proofs.Expansion.Extension

/-!
# Bodies in a conditional that holds

What a body expands to is put in the place of its directive, and the passes that are still to come go
over it as over everything else. So a conditional that always holds does not leave a body as it is:
insertions, comments and placeholders that values have brought in are treated once more
(`outcome_expandNodes_if`). An expansion that has none of these, and whose markup is read back, is
left alone (`expand_nested`).

The pass over repetitions is over when the conditional is replaced. It has already gone over the body,
where it is, and goes over it once more with the body's own passes. This changes nothing if the first
one has left no repetition, as it does if no value has brought one in.
-/

namespace Stencil

/-- The same, with expansions one level deeper. -/
def Surroundings.deeper (s : Surroundings) : Surroundings :=
  { s with limits := { s.limits with depth := s.limits.depth + 1 } }

namespace Expansion

open Node

/-- The last two passes over nodes: insertions are replaced, the markup is freed of comments, its
    placeholders are replaced, and it is read again. -/
def finishNodes (s : Surroundings) (depth : Nat) (inserting : List String) (context : Context)
    (nodes : List Node) : Evaluation (List Node) := do
  let nodes ← expandInserts
    (expandInsert s.registry (fun inserting => expandNodes s depth inserting context) inserting) nodes
  let text ← interpolate s.host (.map context) s.limits.replacements (stripComments (writeAll nodes))
  Evaluation.ofMarkup (parse (String.ofList text))

/-- The pass over repetitions leaves no repetition in nodes: no value brings one in. -/
def LeavesNoRepeat (s : Surroundings) (inserting : List String) (context : Context)
    (nodes : List Node) : Prop :=
  ∀ depth nodes', (expandRepeats s.host (expandNodes s depth inserting) context nodes).Gives nodes' →
    Everywhere (fun n _ => n.Lacks [Directive.repeatTag]) nodes'

/-- The last two passes have nothing to do in nodes. -/
structure Finished (nodes : List Node) : Prop where
  noInsert : Everywhere (fun n _ => n.Lacks [Directive.insertTag]) nodes
  noComment : cutComment? (writeAll nodes) = none
  noPlaceholder : placeholder? (writeAll nodes) = none
  readsBack : parse (String.ofList (writeAll nodes)) = .ok nodes

/-! ### Passes that find nothing -/

theorem expandRepeats_of_lacks {host : Host} {expand : Expand} {context : Context} {ns : List Node}
    (h : Everywhere (fun n _ => n.Lacks [Directive.repeatTag]) ns) :
    expandRepeats host expand context ns = pure ns := by
  induction ns using forest_induction with
  | nil => rfl
  | text data raw ns ih => rw [expandRepeats, ih h.2.2]; rfl
  | comment data ns ih => rw [expandRepeats, ih h.2.2]; rfl
  | fragment children ns ihc ih =>
    rw [expandRepeats, expandRepeatsAt, ihc h.2.1, ih h.2.2]
    rfl
  | element tag attrs children void ns ihc ih =>
    have hrepeat : tag ≠ Directive.repeatTag := fun ht => h.1 (List.mem_singleton.2 ht)
    rw [expandRepeats, expandRepeatsAt, if_neg hrepeat, ihc h.2.1, ih h.2.2]
    rfl

theorem expandInserts_of_lacks {insert : String → Evaluation (List Node)} {ns : List Node}
    (h : Everywhere (fun n _ => n.Lacks [Directive.insertTag]) ns) :
    expandInserts insert ns = pure ns := by
  induction ns using forest_induction with
  | nil => rfl
  | text data raw ns ih => rw [expandInserts, ih h.2.2]; rfl
  | comment data ns ih => rw [expandInserts, ih h.2.2]; rfl
  | fragment children ns ihc ih =>
    rw [expandInserts, expandInsertsAt, ihc h.2.1, ih h.2.2]
    rfl
  | element tag attrs children void ns ihc ih =>
    have hinsert : tag ≠ Directive.insertTag := fun ht => h.1 (List.mem_singleton.2 ht)
    rw [expandInserts, expandInsertsAt, if_neg hinsert, ihc h.2.1, ih h.2.2]
    rfl

theorem finishNodes_of_finished {s : Surroundings} {depth : Nat} {inserting : List String}
    {context : Context} {nodes : List Node} (h : Finished nodes) :
    finishNodes s depth inserting context nodes = pure nodes := by
  rw [finishNodes, expandInserts_of_lacks h.noInsert, pure_bind,
    stripComments_of_cutComment h.noComment,
    interpolate_of_no_placeholder _ _ _ h.noPlaceholder, pure_bind, h.readsBack]
  rfl

/-! ### A conditional that holds -/

theorem expandNodes_succ (s : Surroundings) (depth : Nat) (inserting : List String)
    (context : Context) (nodes : List Node) :
    expandNodes s (depth + 1) inserting context nodes =
      expandRepeats s.host (expandNodes s depth inserting) context nodes >>= fun nodes =>
        expandBranches s.host (expandNodes s depth inserting) context nodes .nothing >>=
          finishNodes s depth inserting context := rfl

/-- The body of a conditional that holds is expanded, and the last two passes go over what it expands
    to. -/
theorem outcome_expandNodes_if {s : Surroundings} {depth : Nat} {inserting : List String}
    {context : Context} {attrs : Attributes} {body r : List Node} (void : Bool)
    (hcond : (condition s.host context Directive.ifTag attrs).Gives true)
    (hrepeat : LeavesNoRepeat s inserting context body)
    (hr : (expandNodes s depth inserting context body).Gives r) :
    (expandNodes s (depth + 1) inserting context
        [.element Directive.ifTag attrs body void]).outcome =
      (finishNodes s depth inserting context r).outcome := by
  obtain ⟨depth, rfl⟩ : ∃ n, depth = n + 1 := by
    cases depth with
    | zero => exact absurd hr Evaluation.not_gives_fail
    | succ depth => exact ⟨depth, rfl⟩
  rw [expandNodes_succ] at hr
  obtain ⟨repeated, hrepeated, hr⟩ := Evaluation.gives_bind.1 hr
  -- The first pass goes over the body twice, the second time it finds nothing.
  have hagain : (expandNodes s (depth + 1) inserting context repeated).Gives r := by
    rw [expandNodes_succ, expandRepeats_of_lacks (hrepeat depth repeated hrepeated), pure_bind]
    exact hr
  have hbody : ∀ context body, (expandNodes s depth inserting context body).Extends
      (expandNodes s (depth + 1) inserting context body) :=
    expandNodes_mono (Nat.le_succ depth) inserting
  have hfirst : (expandRepeats s.host (expandNodes s (depth + 1) inserting) context
      [.element Directive.ifTag attrs body void]).Gives
      [.element Directive.ifTag attrs repeated void] := by
    refine gives_expandRepeats_cons.2 ⟨[_], [], ?_, Evaluation.gives_pure.2 rfl, rfl⟩
    exact (gives_expandRepeatsAt_element (by decide)).2
      ⟨repeated, expandRepeats_mono hbody body repeated hrepeated, rfl⟩
  have hsecond : (expandBranches s.host (expandNodes s (depth + 1) inserting) context
      [.element Directive.ifTag attrs repeated void] .nothing).Gives r := by
    refine gives_expandBranches_cons.2 ⟨(r, .nothing), [], ?_, Evaluation.gives_pure.2 rfl, ?_⟩
    · exact (gives_branchNode_if rfl).2 (.inl ⟨hcond, r, hagain, rfl⟩)
    · rw [released_nothing, List.nil_append, List.append_nil]
  rw [expandNodes_succ, hfirst.outcome_bind, hsecond.outcome_bind]

/-- The bound of the depth counts for templates only. -/
theorem expandNodes_congr {host : Host} {registry : Option Registry} {limits limits' : Limits}
    (h : limits.replacements = limits'.replacements) (depth : Nat) :
    expandNodes ⟨host, registry, limits⟩ depth = expandNodes ⟨host, registry, limits'⟩ depth := by
  induction depth with
  | zero => rfl
  | succ depth ih =>
    funext inserting context nodes
    rw [expandNodes, expandNodes, ih, h]

/-- A body in a conditional that always holds expands to what the last two passes make of what the
    body expands to by itself, and so to the same if these find nothing. -/
theorem expand_nested {s : Surroundings} {context : Context} {body r : List Node}
    (hr : (expand s (.tree (.fragment body)) (.map context)).Gives r)
    (hrepeat : LeavesNoRepeat s [] context body) :
    (expand s.deeper (.tree (.fragment [.element "if" (.ofList [("cond", "true")]) body false]))
        (.map context)).outcome = (finishNodes s s.limits.depth [] context r).outcome ∧
      (Finished r →
        (expand s.deeper (.tree (.fragment [.element "if" (.ofList [("cond", "true")]) body false]))
          (.map context)).Gives r) := by
  have hcond : (condition s.host context Directive.ifTag (.ofList [("cond", "true")])).Gives true :=
    rfl
  have hnested := outcome_expandNodes_if false hcond hrepeat hr
  have hdeeper : expand s.deeper
      (.tree (.fragment [.element "if" (.ofList [("cond", "true")]) body false])) (.map context) =
        expandNodes s (s.limits.depth + 1) [] context
          [.element Directive.ifTag (.ofList [("cond", "true")]) body false] := by
    have hcongr := @expandNodes_congr s.host s.registry s.deeper.limits s.limits rfl
      (s.limits.depth + 1)
    rw [← congrFun (congrFun (congrFun hcongr []) context) _]
    rfl
  rw [hdeeper, Evaluation.Gives, hnested]
  refine ⟨rfl, fun hfinished => ?_⟩
  rw [finishNodes_of_finished hfinished]
  rfl

/-- A text for a placeholder is the same in a conditional that holds. -/
theorem expand_nested_text :
    (expand (Surroundings.deeper ⟨Host.none, none, ⟨1, 1⟩⟩)
      (.tree (.fragment [.element "if" (.ofList [("cond", "true")])
        [.text "\x7b\x7bx\x7d\x7d" false] false])) (.map [(.str "x", .str "a")])).Gives
      [.text "a" false] := by
  have hexpand : (expand ⟨Host.none, none, ⟨1, 1⟩⟩ (.tree (.fragment
      [.text "\x7b\x7bx\x7d\x7d" false])) (.map [(.str "x", .str "a")])).Gives [.text "a" false] :=
    rfl
  refine (expand_nested hexpand ?_).2 ⟨⟨trivial, trivial, trivial⟩, rfl, rfl, rfl⟩
  intro depth nodes' h
  have hlacks : Everywhere (fun n _ => n.Lacks [Directive.repeatTag])
      [.text "\x7b\x7bx\x7d\x7d" false] := ⟨trivial, trivial, trivial⟩
  rw [expandRepeats_of_lacks hlacks, Evaluation.gives_pure] at h
  exact h ▸ hlacks

/-- A comment that a value brings in is kept, unless the placeholder is in a conditional. -/
theorem not_expand_nested : ¬∀ (registry : Option Registry) (context : Context) (body r : List Node),
    (expand ⟨Host.none, registry, .standard⟩ (.tree (.fragment body)) (.map context)).Gives r →
      (expand ⟨Host.none, registry, .standard⟩
        (.tree (.fragment [.element "if" (.ofList [("cond", "true")]) body false]))
        (.map context)).Gives r := by
  intro h
  have hkept := h none [(.str "x", .str "<!--c-->")] [.text "\x7b\x7b x \x7d\x7d" false]
    [.comment "c"] rfl
  have hlost : (expand ⟨Host.none, none, .standard⟩
      (.tree (.fragment [.element "if" (.ofList [("cond", "true")])
        [.text "\x7b\x7b x \x7d\x7d" false] false])) (.map [(.str "x", .str "<!--c-->")])).Gives
      [] := rfl
  exact absurd (hkept.unique hlost) (List.cons_ne_nil _ _)

end Expansion

end Stencil
