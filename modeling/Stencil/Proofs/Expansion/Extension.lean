import Stencil.Proofs.Expansion.Inserts
import Stencil.Proofs.Scope

/-!
# Expansions that extend others

An expansion may be given more than it needs: names that it does not ask for, templates that it does
not insert, a bound that it does not reach. What it gives with less, it gives with more
(`expandNodes_extends`). One thing can come in between: a repetition refuses to bind a name that has a
value, and the name may be among those that were added.

Each pass is extended if the bodies, or the inserted templates, are extended. The scopes of a body
differ by the names that were added, as the elements of repetitions are bound on both sides
(`Widens.bind`).

* `expand_extends`: what a template expands to in a wider context, and with more templates.
-/

namespace Stencil.Expansion

open Node Evaluation

/-- A scope is a wider one of another: it has every name of it, with the same value, and the names that
    it has taken besides are added ones. -/
structure Widens (added : String → Prop) (c c' : Context) : Prop where
  keeps : c.Extends c'
  adds : ∀ name, c.get? name = none → isTaken c' name = true → added name

/-- The error is that a repetition binds an added name. -/
def BindsAdded (added : String → Prop) (e : TemplateError) : Prop :=
  ∃ name, added name ∧ e = .duplicateVariable name

/-- A registry has every template of another one. No registry has no templates. -/
def HasTemplatesOf (registry registry' : Option Registry) : Prop :=
  ∀ id template, registry.bind (·.get? id) = some template →
    registry'.bind (·.get? id) = some template

/-- Without added names nothing is bound that was not bound before. -/
theorem extends_of_not_added {α : Type} {x y : Evaluation α}
    (h : ExtendsUnless (BindsAdded fun _ => False) x y) : x.Extends y := by
  intro a ha
  rcases h a ha with ha' | ⟨_, ⟨_, hfalse, -⟩, -⟩
  · exact ha'
  · exact hfalse.elim

theorem HasTemplatesOf.refl (registry : Option Registry) : HasTemplatesOf registry registry :=
  fun _ _ h => h

/-! ### Scopes -/

section

variable {added : String → Prop} {c c' : Context}

theorem isTaken_of_get? {name : String} {v : Value} (h : c.get? name = some v)
    (h' : c'.get? name = some v) : isTaken c' name = isTaken c name := by
  rw [isTaken, isTaken, h, h']

theorem not_isTaken_of_get? {name : String} (h : c.get? name = none) : ¬isTaken c name = true := by
  rw [isTaken, h]
  exact Bool.false_ne_true

theorem widens_refl (c : Context) : Widens added c c :=
  ⟨.refl c, fun _ hnone htaken => absurd htaken (not_isTaken_of_get? hnone)⟩

theorem widens_of_extends (h : c.Extends c') :
    Widens (fun name => c.get? name = none ∧ isTaken c' name = true) c c' :=
  ⟨h, fun _ hnone htaken => ⟨hnone, htaken⟩⟩

theorem Widens.bind (h : Widens added c c') (name : String) (v : Value) :
    Widens added (c.bind name v) (c'.bind name v) := by
  refine ⟨h.keeps.bind name v, fun other hnone htaken => ?_⟩
  rw [Context.get?_bind] at hnone
  rw [isTaken, Context.get?_bind] at htaken
  split at hnone
  · cases hnone
  next hne =>
    rw [if_neg hne] at htaken
    exact h.adds other hnone htaken

/-- A repetition in a wider scope runs over the same elements, unless its name is an added one. -/
theorem repetition_extends {host : Host} (h : Widens added c c') (tag : String)
    (attrs : Attributes) :
    ExtendsUnless (BindsAdded added) (repetition host c tag attrs)
      (repetition host c' tag attrs) := by
  rw [repetition, repetition]
  refine (ExtendsUnless.refl _).bind fun value => (ExtendsUnless.refl _).bind fun parsed => ?_
  obtain ⟨binding, source⟩ := parsed
  refine (Path.extends_resolve h.keeps _).unless.bind fun v => ?_
  split
  · exact .refl _
  cases hget : c.get? binding with
  | some w =>
    rw [isTaken_of_get? hget (h.keeps _ _ hget)]
    exact .refl _
  | none =>
    rw [if_neg (not_isTaken_of_get? hget)]
    by_cases htaken : isTaken c' binding = true
    · -- The name is free in the one scope and taken in the other one.
      rw [if_pos htaken]
      exact fun _ _ => .inr ⟨_, ⟨binding, h.adds binding hget htaken, rfl⟩, raises_throw.2 rfl⟩
    · rw [if_neg htaken]
      exact .refl _

theorem condition_extends {host : Host} (h : c.Extends c') (tag : String) (attrs : Attributes) :
    (condition host c tag attrs).Extends (condition host c' tag attrs) :=
  (Extends.refl _).bind fun _ => Condition.extends_evaluate h _

end

/-! ### The passes -/

section

variable {allowed : TemplateError → Prop} {host : Host} {c c' : Context} {expand expand' : Expand}

theorem concatItems_extends {nodesOf nodesOf' : Value → Evaluation (List Node)}
    (h : ∀ item, ExtendsUnless allowed (nodesOf item) (nodesOf' item)) (items : List Value) :
    ExtendsUnless allowed (concatItems nodesOf items) (concatItems nodesOf' items) := by
  induction items with
  | nil => exact .refl _
  | cons item items ih => exact (h item).bind fun nodes => ih.map (nodes ++ ·)

theorem expandRepeats_cons_extends {n : Node} {ns : List Node}
    (hn : ExtendsUnless allowed (expandRepeatsAt host expand c n) (expandRepeatsAt host expand' c' n))
    (hns : ExtendsUnless allowed (expandRepeats host expand c ns)
      (expandRepeats host expand' c' ns)) :
    ExtendsUnless allowed (expandRepeats host expand c (n :: ns))
      (expandRepeats host expand' c' (n :: ns)) := by
  rw [expandRepeats, expandRepeats]
  exact hn.bind fun nodes => hns.map (nodes ++ ·)

/-- The pass over repetitions is extended if what they run over is, and the bodies are. -/
theorem expandRepeats_extends
    (hrepetition : ∀ tag attrs,
      ExtendsUnless allowed (repetition host c tag attrs) (repetition host c' tag attrs))
    (hbody : ∀ name item body,
      ExtendsUnless allowed (expand (c.bind name item) body) (expand' (c'.bind name item) body))
    (ns : List Node) :
    ExtendsUnless allowed (expandRepeats host expand c ns) (expandRepeats host expand' c' ns) := by
  induction ns using forest_induction with
  | nil => exact .refl _
  | text data raw ns ih => exact expandRepeats_cons_extends (.refl _) ih
  | comment data ns ih => exact expandRepeats_cons_extends (.refl _) ih
  | fragment children ns ihc ih =>
    refine expandRepeats_cons_extends ?_ ih
    rw [expandRepeatsAt, expandRepeatsAt]
    exact ihc.map _
  | element tag attrs children void ns ihc ih =>
    refine expandRepeats_cons_extends ?_ ih
    by_cases hrepeat : tag = Directive.repeatTag
    · rw [expandRepeatsAt_repeat hrepeat, expandRepeatsAt_repeat hrepeat]
      exact (hrepetition tag attrs).bind fun r =>
        concatItems_extends (fun item => hbody r.binding item children) r.items
    · rw [expandRepeatsAt, expandRepeatsAt, if_neg hrepeat, if_neg hrepeat]
      exact ihc.map _

theorem expandBranches_cons_extends {n : Node} {ns : List Node} {pending : Pending}
    (hn : ExtendsUnless allowed (branchNode host expand c n pending)
      (branchNode host expand' c' n pending))
    (hns : ∀ next, ExtendsUnless allowed (expandBranches host expand c ns next)
      (expandBranches host expand' c' ns next)) :
    ExtendsUnless allowed (expandBranches host expand c (n :: ns) pending)
      (expandBranches host expand' c' (n :: ns) pending) := by
  rw [expandBranches_cons, expandBranches_cons]
  exact hn.bind fun b => (hns b.2).map _

/-- The pass over conditionals is extended if the conditions are, and the bodies are. -/
theorem expandBranches_extends
    (hcondition : ∀ tag attrs,
      ExtendsUnless allowed (condition host c tag attrs) (condition host c' tag attrs))
    (hbody : ∀ body, ExtendsUnless allowed (expand c body) (expand' c' body))
    (ns : List Node) (pending : Pending) :
    ExtendsUnless allowed (expandBranches host expand c ns pending)
      (expandBranches host expand' c' ns pending) := by
  induction ns using forest_induction generalizing pending with
  | nil => exact .refl _
  | text data raw ns ih => exact expandBranches_cons_extends (.refl _) ih
  | comment data ns ih => exact expandBranches_cons_extends (.refl _) ih
  | fragment children ns ihc ih =>
    refine expandBranches_cons_extends ?_ ih
    rw [branchNode, branchNode]
    exact (ihc .nothing).map _
  | element tag attrs children void ns ihc ih =>
    refine expandBranches_cons_extends ?_ ih
    rw [branchNode, branchNode]
    split_ifs with hif helse
    · refine (hcondition tag attrs).bind fun holds => ?_
      cases holds with
      | true => exact (hbody children).map _
      | false => exact .refl _
    · cases pending with
      | nothing => exact .refl _
      | expanded blanks => exact (hbody children).map _
    · exact (ihc .nothing).map _

variable {insert insert' : String → Evaluation (List Node)}

theorem expandInserts_cons_extends {n : Node} {ns : List Node}
    (hn : ExtendsUnless allowed (expandInsertsAt insert n) (expandInsertsAt insert' n))
    (hns : ExtendsUnless allowed (expandInserts insert ns) (expandInserts insert' ns)) :
    ExtendsUnless allowed (expandInserts insert (n :: ns)) (expandInserts insert' (n :: ns)) := by
  rw [expandInserts, expandInserts]
  exact hn.bind fun nodes => hns.map (nodes ++ ·)

/-- The pass over insertions is extended if the inserted templates are. -/
theorem expandInserts_extends
    (h : ∀ id, ExtendsUnless allowed (insert id) (insert' id)) (ns : List Node) :
    ExtendsUnless allowed (expandInserts insert ns) (expandInserts insert' ns) := by
  induction ns using forest_induction with
  | nil => exact .refl _
  | text data raw ns ih => exact expandInserts_cons_extends (.refl _) ih
  | comment data ns ih => exact expandInserts_cons_extends (.refl _) ih
  | fragment children ns ihc ih =>
    refine expandInserts_cons_extends ?_ ih
    rw [expandInsertsAt, expandInsertsAt]
    exact ihc.map _
  | element tag attrs children void ns ihc ih =>
    refine expandInserts_cons_extends ?_ ih
    rw [expandInsertsAt, expandInsertsAt]
    split_ifs with hinsert
    · exact (ExtendsUnless.refl _).bind h
    · exact ihc.map _

theorem expandInsert_extends {registry registry' : Option Registry}
    (hregistry : HasTemplatesOf registry registry')
    {expand expand' : List String → List Node → Evaluation (List Node)}
    (h : ∀ inserting nodes, ExtendsUnless allowed (expand inserting nodes) (expand' inserting nodes))
    (inserting : List String) (id : String) :
    ExtendsUnless allowed (expandInsert registry expand inserting id)
      (expandInsert registry' expand' inserting id) := by
  rw [expandInsert, expandInsert]
  split_ifs
  · exact .refl _
  · cases hfound : registry.bind (·.get? id) with
    | none => exact (not_gives_extends fun _ => not_gives_throw).unless
    | some template =>
      rw [hregistry id template hfound]
      exact h _ _

end

/-! ### All passes -/

/-- What nodes expand to, they expand to in wider scopes, with more templates and at deeper bounds,
    unless a repetition binds an added name. -/
theorem expandNodes_extends {host : Host} {registry registry' : Option Registry}
    (hregistry : HasTemplatesOf registry registry') {limits limits' : Limits}
    (hlimits : limits.replacements = limits'.replacements) {added : String → Prop}
    {depth depth' : Nat} (hdepth : depth ≤ depth') (inserting : List String) {c c' : Context}
    (hscope : Widens added c c') (nodes : List Node) :
    ExtendsUnless (BindsAdded added)
      (expandNodes ⟨host, registry, limits⟩ depth inserting c nodes)
      (expandNodes ⟨host, registry', limits'⟩ depth' inserting c' nodes) := by
  induction depth generalizing depth' inserting c c' nodes with
  | zero => exact (not_gives_extends fun _ => not_gives_fail).unless
  | succ depth ih =>
    -- Both bounds go down by one for the bodies and for the inserted templates.
    obtain ⟨depth', rfl⟩ : ∃ n, depth' = n + 1 := ⟨depth' - 1, by omega⟩
    have ih := fun inserting {c c' : Context} (hscope : Widens added c c') nodes =>
      ih (by omega : depth ≤ depth') inserting hscope nodes
    rw [expandNodes, expandNodes]
    refine (expandRepeats_extends (repetition_extends hscope)
      (fun name item => ih inserting (hscope.bind name item)) nodes).bind fun nodes => ?_
    refine (expandBranches_extends (fun tag attrs => (condition_extends hscope.keeps tag attrs).unless)
      (ih inserting hscope) nodes .nothing).bind fun nodes => ?_
    refine (expandInserts_extends (expandInsert_extends hregistry
      (fun inserting => ih inserting hscope) inserting) nodes).bind fun nodes => ?_
    rw [← hlimits]
    exact (extends_interpolate hscope.keeps _ _).unless.bind fun text => .refl _

/-! ### Deeper bounds -/

/-- The pass over repetitions gives what it gave before if the bodies do. -/
theorem expandRepeats_mono {host : Host} {context : Context} {expand expand' : Expand}
    (h : ∀ context body, (expand context body).Extends (expand' context body)) (ns : List Node) :
    (expandRepeats host expand context ns).Extends (expandRepeats host expand' context ns) :=
  extendsUnless_false.1 (expandRepeats_extends (fun _ _ => .refl _)
    (fun _ _ body => (h _ body).unless) ns)

/-- What nodes expand to, they expand to at every deeper bound. -/
theorem expandNodes_mono {s : Surroundings} {depth depth' : Nat} (h : depth ≤ depth')
    (inserting : List String) (context : Context) (nodes : List Node) :
    (expandNodes s depth inserting context nodes).Extends
      (expandNodes s depth' inserting context nodes) := by
  obtain ⟨host, registry, limits⟩ := s
  exact extends_of_not_added
    (expandNodes_extends (HasTemplatesOf.refl registry) rfl h inserting (widens_refl context) nodes)

/-! ### More names and more templates -/

/-- What a template expands to, it expands to in wider contexts and with more templates, unless a
    repetition binds an added name. -/
theorem extendsUnless_expand {host : Host} {registry registry' : Option Registry}
    (hregistry : HasTemplatesOf registry registry') {limits : Limits} {added : String → Prop}
    {d d' : Context} (hscope : Widens added d d') (template : Template) :
    ExtendsUnless (BindsAdded added) (expand ⟨host, registry, limits⟩ template (.map d))
      (expand ⟨host, registry', limits⟩ template (.map d')) :=
  (ExtendsUnless.refl (treeOf template)).bind fun node =>
    expandNodes_extends hregistry rfl le_rfl [] hscope node.content

/-- What a template expands to, it expands to in every context that has the same names with the same
    values, unless a repetition binds one of the names that the context has besides; and it does with
    every registry that has the same templates. -/
theorem expand_extends {host : Host} {registry : Option Registry} {limits : Limits}
    {template : Template} {d : Context} {r : List Node}
    (h : (expand ⟨host, registry, limits⟩ template (.map d)).Gives r) :
    (∀ d' : Context, d.Extends d' →
      (expand ⟨host, registry, limits⟩ template (.map d')).Gives r ∨
        ∃ name, d.get? name = none ∧ isTaken d' name = true ∧
          (expand ⟨host, registry, limits⟩ template (.map d')).Raises (.duplicateVariable name)) ∧
    ∀ registry', HasTemplatesOf registry registry' →
      (expand ⟨host, registry', limits⟩ template (.map d)).Gives r := by
  constructor
  · intro d' hd
    have hextends := extendsUnless_expand (HasTemplatesOf.refl registry) (widens_of_extends hd) template r h
    refine hextends.imp_right ?_
    rintro ⟨_, ⟨name, ⟨hnone, htaken⟩, rfl⟩, hraises⟩
    exact ⟨name, hnone, htaken, hraises⟩
  · intro registry' hregistry
    -- The scopes are the same, so there is no added name that could be bound.
    exact extends_of_not_added (extendsUnless_expand hregistry (widens_refl d) template) r h

/-- A repetition goes on as before if a name is added that it does not bind, or a template. -/
theorem expand_extends_repeat :
    let template := Template.tree (.fragment [.element "repeat" (.ofList [("for", "x of xs")])
      [.text "\x7b\x7bx\x7d\x7d" false] false])
    let d : Context := [(.str "xs", .list [.str "a", .str "b"])]
    let d' : Context := d ++ [(.str "y", .bool true)]
    let registry := OrderedMap.ofList [("t", Node.text "c" false)]
    ((expand ⟨Host.none, none, ⟨2, 1⟩⟩ template (.map d)).Gives [.text "ab" false]) ∧
      ((expand ⟨Host.none, none, ⟨2, 1⟩⟩ template (.map d')).Gives [.text "ab" false] ∨
        ∃ name, d.get? name = none ∧ isTaken d' name = true ∧
          (expand ⟨Host.none, none, ⟨2, 1⟩⟩ template (.map d')).Raises (.duplicateVariable name)) ∧
      (expand ⟨Host.none, some registry, ⟨2, 1⟩⟩ template (.map d)).Gives [.text "ab" false] := by
  intro template d d' registry
  have h : (expand ⟨Host.none, none, ⟨2, 1⟩⟩ template (.map d)).Gives [.text "ab" false] := rfl
  have hd : d.Extends d' := by
    intro name v hv
    rw [Context.get?_cons] at hv
    split at hv
    next heq => exact (if_pos heq).trans hv
    next => cases hv
  exact ⟨h, (expand_extends h).1 d' hd, (expand_extends h).2 (some registry) nofun⟩

/-- A repetition does not bind a name that was added. -/
example :
    (expand ⟨Host.none, none, ⟨2, 1⟩⟩ (.tree (.fragment [.element "repeat"
      (.ofList [("for", "x of xs")]) [.text "\x7b\x7bx\x7d\x7d" false] false]))
      (.map [(.str "x", .bool true), (.str "xs", .list [])])).Raises (.duplicateVariable "x") := rfl

end Stencil.Expansion
