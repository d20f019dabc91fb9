import Stencil.Proofs.Condition
import Stencil.Proofs.Expansion.Nesting
import Stencil.Proofs.Expansion.Rendering
import Stencil.Proofs.Issue

/-!
# Expansion of checked templates

A plain template without errors among its issues, as are those that it can insert, expands in a clean
context without the errors that the check looks for: no directive lacks an attribute or has a malformed
one, no template is unknown, and no condition holds a forbidden character (`kind_of_raises_expand`).

The check has looked at every directive that an expansion comes to. What a pass puts in the place of a
directive is settled, and so it has no directives itself; the directives of inserted templates have
been looked at with these. The passes go over all branches, so all nodes are looked at here, not only
those that filling would come to. Placeholders have to end in the text that they begin in: what ends
in another one takes tags with it, and can leave a directive that no one has looked at
(`raises_expand_splicedTemplate`).

* `ensures_expandRepeats`, `ensures_expandBranches`, `ensures_expandInserts`: one pass;
* `ensures_expandNodes`: nodes, at every depth.
-/

namespace Stencil

/-- The error is none that the check of a template looks for. -/
def TemplateError.IsTolerated : TemplateError → Prop
  | missingAttribute _ _ => False
  | badRepeat _ => False
  | templateNotFound _ => False
  | forbiddenCharacter _ _ => False
  | _ => True

theorem TemplateError.IsOfValue.isTolerated {e : TemplateError} (h : e.IsOfValue) : e.IsTolerated := by
  cases e <;> trivial

namespace Expansion

open Node Evaluation

/-- A node of a checked template that has none of the given tags. -/
structure Checked (registry : Registry) (tags : List String) (n : Node) : Prop where
  plain : n.IsPlain
  wellBraced : n.HasTexts WellBraced
  checked : n.IsChecked registry
  lacks : n.Lacks tags

/-- All nodes are those of a checked template and have none of the given tags. -/
abbrev AllChecked (registry : Registry) (tags : List String) (ns : List Node) : Prop :=
  Everywhere (fun n _ => Checked registry tags n) ns

variable {registry : Registry} {host : Host} {context : Context}

theorem allChecked_of_settled {tags : List String} (htags : ∀ tag ∈ tags, tag ∈ Directive.tags)
    {ns : List Node} (h : Settled ns) : AllChecked registry tags ns := by
  refine h.imp fun n _ hn => ⟨hn.1, hn.2.1.imp fun _ => .plain, ?_, hn.2.2.mono htags⟩
  cases n with
  | element tag attrs children void =>
    have hlacks : tag ∉ Directive.tags := hn.2.2
    exact ⟨fun ht => absurd (ht ▸ by decide) hlacks, fun ht => absurd (ht ▸ by decide) hlacks,
      fun ht => absurd (ht ▸ by decide) hlacks⟩
  | _ => exact ⟨trivial, trivial, trivial⟩

theorem checked_fragment {tags : List String} (children : List Node) :
    Checked registry tags (.fragment children) :=
  ⟨trivial, trivial, ⟨trivial, trivial, trivial⟩, trivial⟩

theorem Checked.of_text {tags tags' : List String} {data : String} {raw : Bool}
    (h : Checked registry tags (.text data raw)) : Checked registry tags' (.text data raw) :=
  ⟨h.plain, h.wellBraced, h.checked, trivial⟩

/-- A body of a checked template expands to settled nodes in clean contexts, and ends in tolerated
    errors. -/
def SafeExpand (registry : Registry) (expand : Expand) : Prop :=
  ∀ context body, context.IsClean → AllChecked registry [] body →
    Ensures TemplateError.IsTolerated Settled (expand context body)

/-! ### Nodes that a pass leaves -/

/-- An evaluation leaves nodes of checked templates without the given tags, or ends in a tolerated
    error. -/
abbrev LeavesChecked (registry : Registry) (tags : List String) (x : Evaluation (List Node)) : Prop :=
  Ensures TemplateError.IsTolerated (AllChecked registry tags) x

theorem leavesChecked_of_settled {tags : List String} (htags : ∀ tag ∈ tags, tag ∈ Directive.tags)
    {x : Evaluation (List Node)} (h : Ensures TemplateError.IsTolerated Settled x) :
    LeavesChecked registry tags x :=
  h.imp (fun _ he => he) fun _ _ hs => allChecked_of_settled htags hs

theorem leavesChecked_append {tags : List String} {x y : Evaluation (List Node)}
    (hx : LeavesChecked registry tags x) (hy : LeavesChecked registry tags y) :
    LeavesChecked registry tags (do
      let nodes ← x
      return nodes ++ (← y)) :=
  hx.bind fun _ _ ha => hy.bind fun _ _ hb => ensures_pure (everywhere_append.2 ⟨ha, hb⟩)

theorem leavesChecked_fragment {tags : List String} {x : Evaluation (List Node)}
    (hx : LeavesChecked registry tags x) :
    LeavesChecked registry tags (do return [.fragment (← x)]) :=
  hx.bind fun children _ hchildren => ensures_pure ⟨checked_fragment children, hchildren, trivial⟩

/-- An element stays a checked one with what its children become, as no void element gets any. -/
theorem Checked.of_gives {tags tags' : List String} {tag : String} {attrs : Attributes}
    {children children' : List Node} {void : Bool}
    (h : Checked registry tags (.element tag attrs children void)) (hlacks : tag ∉ tags')
    {x : Evaluation (List Node)} (hnil : children = [] → x = pure []) (hx : x.Gives children') :
    Checked registry tags' (.element tag attrs children' void) := by
  refine ⟨h.plain.of_children fun hchildren => ?_, h.wellBraced,
    ⟨h.checked.source, h.checked.condition, h.checked.target⟩, hlacks⟩
  rw [hnil hchildren, gives_pure] at hx
  exact hx.symm

theorem leavesChecked_element {tags tags' : List String} {tag : String} {attrs : Attributes}
    {children : List Node} {void : Bool} (h : Checked registry tags (.element tag attrs children void))
    (hlacks : tag ∉ tags') {x : Evaluation (List Node)} (hnil : children = [] → x = pure [])
    (hx : LeavesChecked registry tags' x) :
    LeavesChecked registry tags' (do return [.element tag attrs (← x) void]) :=
  hx.bind fun _ hgives hchildren =>
    ensures_pure ⟨h.of_gives hlacks hnil hgives, hchildren, trivial⟩

/-! ### Repetitions -/

theorem ensures_concatItems {nodesOf : Value → Evaluation (List Node)} {items : List Value}
    (h : ∀ item ∈ items, Ensures TemplateError.IsTolerated Settled (nodesOf item)) :
    Ensures TemplateError.IsTolerated Settled (concatItems nodesOf items) := by
  induction items with
  | nil => exact ensures_pure trivial
  | cons item items ih =>
    refine (h item List.mem_cons_self).bind fun a _ ha => ?_
    refine (ih fun i hi => h i (List.mem_cons_of_mem item hi)).bind fun b _ hb => ?_
    exact ensures_pure (ha.append hb)

/-- What a repetition runs over is clean. -/
theorem ensures_repetition {attrs : Attributes} {children : List Node} {void : Bool}
    (hcontext : context.IsClean)
    (h : Checked registry [] (.element Directive.repeatTag attrs children void)) :
    Ensures TemplateError.IsTolerated (fun r => Value.AllOf Value.RendersInert r.items)
      (repetition host context Directive.repeatTag attrs) := by
  obtain ⟨value, hvalue, ⟨binding, source⟩, hparts⟩ := h.checked.source rfl
  rw [repetition, hvalue, ofTemplate, pure_bind, hparts, ofTemplate, pure_bind]
  have hresolve := (@Path.ensures_resolve host source.toList context).imp
    (fun _ he => he.ofValue.isTolerated) fun _ _ hv => hv hcontext
  refine hresolve.bind fun v _ hv => ?_
  split
  · exact ensures_throw trivial
  next items hitems =>
    split
    · exact ensures_throw trivial
    · exact ensures_pure (hv.items hitems)

/-- The pass over repetitions leaves a checked template without repetitions. -/
theorem ensures_expandRepeats {expand : Expand} (hexpand : SafeExpand registry expand)
    (hcontext : context.IsClean) {ns : List Node} (h : AllChecked registry [] ns) :
    LeavesChecked registry [Directive.repeatTag] (expandRepeats host expand context ns) := by
  induction ns using forest_induction with
  | nil => exact ensures_pure trivial
  | text data raw ns ih =>
    rw [expandRepeats]
    exact leavesChecked_append (ensures_pure ⟨h.1.of_text, trivial, trivial⟩) (ih h.2.2)
  | comment data ns ih => exact h.1.plain.elim
  | fragment children ns ihc ih =>
    rw [expandRepeats, expandRepeatsAt]
    exact leavesChecked_append (leavesChecked_fragment (ihc h.2.1)) (ih h.2.2)
  | element tag attrs children void ns ihc ih =>
    obtain ⟨hn, hchildren, h⟩ := h
    rw [expandRepeats]
    refine leavesChecked_append ?_ (ih h)
    by_cases hrepeat : tag = Directive.repeatTag
    · subst hrepeat
      rw [expandRepeatsAt_repeat rfl]
      refine (ensures_repetition hcontext hn).bind fun r _ hitems => ?_
      have hbody : ∀ item ∈ r.items, Ensures TemplateError.IsTolerated Settled
          (expand (Context.bind context r.binding item) children) := fun item hitem =>
        hexpand _ children (hcontext.bind r.binding (hitems.of_mem hitem)) hchildren
      -- The bodies have had all their passes, so no directive of theirs is left for this one.
      exact leavesChecked_of_settled (by decide) (ensures_concatItems hbody)
    · rw [expandRepeatsAt, if_neg hrepeat]
      refine leavesChecked_element hn (by simpa using hrepeat) ?_ (ihc hchildren)
      rintro rfl
      rfl

/-! ### Conditionals -/

theorem ensures_condition {tags : List String} {attrs : Attributes} {children : List Node}
    {void : Bool} (h : Checked registry tags (.element Directive.ifTag attrs children void)) :
    Ensures TemplateError.IsTolerated (fun _ => True)
      (condition host context Directive.ifTag attrs) := by
  obtain ⟨value, hvalue, hforbidden⟩ := h.checked.condition rfl
  rw [condition, hvalue, ofTemplate, pure_bind]
  exact (Condition.ensures_evaluate hforbidden).imp (fun _ he => he.1.isTolerated)
    fun _ _ _ => trivial

theorem allChecked_released {tags : List String} {pending : Pending}
    (h : AllChecked registry tags pending.blanks) (n : Node) :
    AllChecked registry tags (pending.released n) := by
  rw [Pending.released]
  split
  · trivial
  · exact h

/-- What the pass over conditionals has made of a node, and what it holds back, is checked. -/
abbrev BranchChecked (registry : Registry) (branch : List Node × Pending) : Prop :=
  AllChecked registry branchTags branch.1 ∧ AllChecked registry branchTags branch.2.blanks

theorem ensures_branchNode {expand : Expand} (hexpand : SafeExpand registry expand)
    (hcontext : context.IsClean) {n : Node} (hn : Checked registry [Directive.repeatTag] n)
    (hbelow : AllChecked registry [Directive.repeatTag] n.children) {pending : Pending}
    (hpending : AllChecked registry branchTags pending.blanks)
    (hchildren : LeavesChecked registry branchTags
      (expandBranches host expand context n.children .nothing)) :
    Ensures TemplateError.IsTolerated (BranchChecked registry)
      (branchNode host expand context n pending) := by
  have hbody : LeavesChecked registry branchTags (expand context n.children) := by
    -- The body gets all passes, so it does not matter that it has no repetitions any more.
    have hany : AllChecked registry [] n.children := hbelow.imp fun n _ h =>
      ⟨h.plain, h.wellBraced, h.checked, h.lacks.mono fun _ ht => absurd ht List.not_mem_nil⟩
    exact leavesChecked_of_settled (by decide) (hexpand context n.children hcontext hany)
  cases n with
  | text data raw =>
    have htext : AllChecked registry branchTags [.text data raw] := ⟨hn.of_text, trivial, trivial⟩
    rw [branchNode]
    split
    · refine ensures_pure ?_
      cases pending with
      | nothing => exact ⟨htext, trivial⟩
      | expanded blanks => exact ⟨trivial, everywhere_append.2 ⟨hpending, htext⟩⟩
    · exact ensures_pure ⟨htext, trivial⟩
  | comment data => exact hn.plain.elim
  | fragment children =>
    rw [branchNode]
    refine hchildren.bind fun children' _ hchildren' => ?_
    exact ensures_pure ⟨⟨checked_fragment children', hchildren', trivial⟩, trivial⟩
  | element tag attrs children void =>
    rw [branchNode]
    split_ifs with hif helse
    · subst hif
      refine (ensures_condition hn).bind fun holds _ _ => ?_
      cases holds with
      | true => exact hbody.bind fun nodes _ hnodes => ensures_pure ⟨hnodes, trivial⟩
      | false => exact ensures_pure ⟨trivial, trivial⟩
    · cases pending with
      | nothing => exact ensures_pure ⟨trivial, trivial⟩
      | expanded blanks => exact hbody.bind fun nodes _ hnodes => ensures_pure ⟨hnodes, trivial⟩
    · have hrepeat : tag ≠ Directive.repeatTag := fun ht => hn.lacks (List.mem_singleton.2 ht)
      have hlacks : tag ∉ branchTags := by simpa [branchTags] using ⟨hrepeat, hif, helse⟩
      refine hchildren.bind fun children' hgives hchildren' => ?_
      refine ensures_pure ⟨⟨hn.of_gives hlacks ?_ hgives, hchildren', trivial⟩, trivial⟩
      rintro rfl
      rfl

/-- The pass over conditionals goes on with what a node has left for the next alternative. -/
theorem leavesChecked_expandBranches_cons {expand : Expand} {n : Node} {ns : List Node}
    {pending : Pending} (hpending : AllChecked registry branchTags pending.blanks)
    (hn : Ensures TemplateError.IsTolerated (BranchChecked registry)
      (branchNode host expand context n pending))
    (hns : ∀ next : Pending, AllChecked registry branchTags next.blanks →
      LeavesChecked registry branchTags (expandBranches host expand context ns next)) :
    LeavesChecked registry branchTags (expandBranches host expand context (n :: ns) pending) := by
  rw [expandBranches_cons]
  refine hn.bind fun b _ hb => (hns b.2 hb.2).bind fun rest _ hrest => ?_
  exact ensures_pure
    (everywhere_append.2 ⟨allChecked_released hpending n, everywhere_append.2 ⟨hb.1, hrest⟩⟩)

/-- The pass over conditionals leaves a checked template without conditionals and alternatives. -/
theorem ensures_expandBranches {expand : Expand} (hexpand : SafeExpand registry expand)
    (hcontext : context.IsClean) {ns : List Node} (h : AllChecked registry [Directive.repeatTag] ns)
    {pending : Pending} (hpending : AllChecked registry branchTags pending.blanks) :
    LeavesChecked registry branchTags (expandBranches host expand context ns pending) := by
  induction ns using forest_induction generalizing pending with
  | nil => exact ensures_pure hpending
  | text data raw ns ih =>
    refine leavesChecked_expandBranches_cons hpending ?_ fun next hnext => ih h.2.2 hnext
    exact ensures_branchNode hexpand hcontext h.1 h.2.1 hpending (ensures_pure trivial)
  | comment data ns ih => exact h.1.plain.elim
  | fragment children ns ihc ih =>
    refine leavesChecked_expandBranches_cons hpending ?_ fun next hnext => ih h.2.2 hnext
    exact ensures_branchNode hexpand hcontext h.1 h.2.1 hpending (ihc h.2.1 trivial)
  | element tag attrs children void ns ihc ih =>
    refine leavesChecked_expandBranches_cons hpending ?_ fun next hnext => ih h.2.2 hnext
    exact ensures_branchNode hexpand hcontext h.1 h.2.1 hpending (ihc h.2.1 trivial)

/-! ### Insertions -/

/-- The pass over insertions leaves a checked template without directives. -/
theorem ensures_expandInserts {insert : String → Evaluation (List Node)}
    (hinsert : ∀ id template, registry.get? id = some template →
      Ensures TemplateError.IsTolerated Settled (insert id))
    {ns : List Node} (h : AllChecked registry branchTags ns) :
    LeavesChecked registry Directive.tags (expandInserts insert ns) := by
  induction ns using forest_induction with
  | nil => exact ensures_pure trivial
  | text data raw ns ih =>
    rw [expandInserts]
    exact leavesChecked_append (ensures_pure ⟨h.1.of_text, trivial, trivial⟩) (ih h.2.2)
  | comment data ns ih => exact h.1.plain.elim
  | fragment children ns ihc ih =>
    rw [expandInserts, expandInsertsAt]
    exact leavesChecked_append (leavesChecked_fragment (ihc h.2.1)) (ih h.2.2)
  | element tag attrs children void ns ihc ih =>
    obtain ⟨hn, hchildren, h⟩ := h
    rw [expandInserts, expandInsertsAt]
    refine leavesChecked_append ?_ (ih h)
    split_ifs with hins
    · -- The check has found the template that is inserted.
      subst hins
      obtain ⟨id, hid, template, htemplate⟩ := hn.checked.target rfl
      rw [hid, ofTemplate, pure_bind]
      exact leavesChecked_of_settled (fun _ ht => ht) (hinsert id template htemplate)
    · obtain ⟨hrepeat, hif, helse⟩ :
          tag ≠ Directive.repeatTag ∧ tag ≠ Directive.ifTag ∧ tag ≠ Directive.elseTag := by
        simpa [Lacks, branchTags] using hn.lacks
      have hlacks : tag ∉ Directive.tags := by
        simpa [Directive.tags] using ⟨hrepeat, hif, helse, hins⟩
      refine leavesChecked_element hn hlacks ?_ (ihc hchildren)
      rintro rfl
      rfl

/-! ### Placeholders -/

/-- What a placeholder is filled with in a clean context is inert. -/
theorem ensures_renderPlaceholder (hcontext : context.IsClean) (inside : List Char) :
    Ensures TemplateError.IsTolerated Inert (renderPlaceholder host (.map context) inside) := by
  refine ((Path.ensures_resolve (Text.trim inside) context).imp (fun _ he => he.ofValue.isTolerated)
    fun _ _ hv => hv hcontext).bind fun v _ hv => ?_
  refine (ensures_ofNumber fun text htext => hv.self.2 text htext).bind fun text _ htext => ?_
  exact ensures_pure htext

theorem fillsInert_of_clean (hcontext : context.IsClean) (s : List Char) :
    FillsInert host (.map context) s :=
  fun inside _ => (ensures_renderPlaceholder hcontext inside).result

theorem ensures_interpolate (hcontext : context.IsClean) (fuel : Nat) (s : List Char) :
    Ensures TemplateError.IsTolerated (fun _ => True)
      (interpolate host (.map context) fuel s) := by
  induction fuel generalizing s with
  | zero =>
    rw [interpolate]
    split
    · exact ensures_pure trivial
    · exact ensures_unfinished
  | succ fuel ih =>
    rw [interpolate]
    split
    · exact ensures_pure trivial
    · exact (ensures_renderPlaceholder hcontext _).bind fun text _ _ => ih _

/-- The last pass leaves settled nodes. -/
theorem ensures_read {ns : List Node} (hcontext : context.IsClean)
    (h : AllChecked registry Directive.tags ns) (fuel : Nat) :
    Ensures TemplateError.IsTolerated Settled (do
      let text ← interpolate host (.map context) fuel (stripComments (writeAll ns))
      Evaluation.ofMarkup (parse (String.ofList text))) := by
  have hrenderable : Everywhere (fun n _ => Renderable host context n) ns := by
    refine h.imp fun n _ hn => ⟨hn.plain, hn.wellBraced, fun w _ => ?_, hn.lacks⟩
    cases n with
    | text data raw => exact fillsInert_of_clean hcontext _
    | element tag attrs children void => exact fun _ _ _ => fillsInert_of_clean hcontext _
    | comment data => trivial
    | fragment children => trivial
  refine (ensures_interpolate hcontext fuel _).bind fun text htext _ => ?_
  refine ensures_ofMarkup fun r hr => ?_
  -- What the nodes are filled to does not matter, nor what they would insert.
  obtain ⟨f, hsettled, hparse, -⟩ := @parse_of_gives_interpolate host context
    (fun _ _ => pure []) ns hrenderable fuel text htext
  rw [hparse] at hr
  exact Except.ok.inj hr ▸ hsettled.normalize

/-! ### Templates -/

/-- A template is plain, and there is no error among its issues. -/
structure Validated (registry : Registry) (template : Node) : Prop where
  plain : Everywhere (fun n _ => n.IsPlain ∧ n.HasTexts WellBraced) template.content
  noErrors : Issue.hasErrors (Issue.ofTemplate (some registry) template) = false

theorem Validated.allChecked {template : Node} (h : Validated registry template) :
    AllChecked registry [] template.content :=
  (h.plain.and (Issue.everywhere_isChecked h.noErrors)).imp fun n _ hn =>
    ⟨hn.1.1, hn.1.2, hn.2, by cases n <;> first | trivial | exact List.not_mem_nil⟩

/-- A template ends as its nodes do. -/
theorem outcome_expand {s : Surroundings} {template : Template} {node : Node}
    (h : (treeOf template).Gives node) (context : Context) :
    (expand s template (.map context)).outcome =
      (expandNodes s s.limits.depth [] context node.content).outcome :=
  h.outcome_bind _

/-- Checked nodes expand to settled nodes in clean contexts, and end in tolerated errors. -/
theorem ensures_expandNodes {limits : Limits}
    (hregistry : ∀ id template, registry.get? id = some template → Validated registry template)
    (depth : Nat) (inserting : List String) (hcontext : context.IsClean) {nodes : List Node}
    (h : AllChecked registry [] nodes) :
    Ensures TemplateError.IsTolerated Settled
      (expandNodes ⟨host, some registry, limits⟩ depth inserting context nodes) := by
  induction depth generalizing inserting context nodes with
  | zero => exact ensures_unfinished
  | succ depth ih =>
    have hexpand : SafeExpand registry (expandNodes ⟨host, some registry, limits⟩ depth inserting) :=
      fun context body hcontext hbody => ih inserting hcontext hbody
    have hblanks : AllChecked registry branchTags Pending.nothing.blanks := trivial
    rw [expandNodes]
    -- After each pass there are fewer directives left, and none after the third.
    refine (ensures_expandRepeats hexpand hcontext h).bind fun repeated _ hrepeated => ?_
    refine (ensures_expandBranches hexpand hcontext hrepeated hblanks).bind
      fun branched _ hbranched => ?_
    refine (ensures_expandInserts (fun id template htemplate => ?_) hbranched).bind
      fun inserted _ hinserted => ensures_read hcontext hinserted _
    rw [expandInsert]
    split
    · exact ensures_throw trivial
    · rw [Option.bind_some, htemplate]
      exact ih _ hcontext (hregistry id template htemplate).allChecked

/-- The errors that a validated template ends in, if the templates that it can insert are validated
    too and the context is clean: no directive lacks an attribute, no template is unknown, the only
    malformed directive is a circular insertion, and no condition holds a malformed accessor. -/
theorem kind_of_raises_expand {limits : Limits} {template : Template} {node : Node}
    (htree : (treeOf template).Gives node) (hnode : Validated registry node)
    (hregistry : ∀ id template, registry.get? id = some template → Validated registry template)
    (hcontext : context.IsClean) {e : TemplateError}
    (he : (expand ⟨host, some registry, limits⟩ template (.map context)).Raises e) :
    e.kind ≠ "MissingAttribute" ∧ e.kind ≠ "TemplateNotFound" ∧
      (e.kind = "MalformedDirective" →
        ∃ chain, e.message = "Circular <insert>: " ++ " -> ".intercalate chain) ∧
      ∀ condition data, (Condition.evaluate host condition data).Raises e →
        e.kind ≠ "MalformedAccessor" := by
  rw [Raises, outcome_expand htree] at he
  have htolerated :=
    (ensures_expandNodes hregistry limits.depth [] hcontext hnode.allChecked).error e he
  refine ⟨?_, ?_, ?_, fun condition data hraises hkind => ?_⟩
  · cases e <;> first | exact htolerated.elim | simp [TemplateError.kind]
  · cases e <;> first | exact htolerated.elim | simp [TemplateError.kind]
  · cases e with
    | circularInsert chain => exact fun _ => ⟨chain, rfl⟩
    | badRepeat attr => exact htolerated.elim
    | _ => simp [TemplateError.kind]
  · obtain ⟨c, rfl⟩ := Condition.forbidden_of_raises hraises (TemplateError.isAccessor_of_kind hkind)
    exact htolerated

/-- A template that inserts itself, if it is known as `t`. -/
def selfInserting : Node := .element "insert" (.ofList [("template", "t")]) [] false

theorem kind_of_raises_expand_circular :
    ∃ e, (expand ⟨Host.none, some (.ofList [("t", selfInserting)]), ⟨3, 1⟩⟩ (.tree selfInserting)
        (.map [(.str "a", .str "b")])).Raises e ∧ e.kind = "MalformedDirective" ∧
      ∃ chain, e.message = "Circular <insert>: " ++ " -> ".intercalate chain := by
  have hvalidated : Validated (.ofList [("t", selfInserting)]) selfInserting := by
    have hinsert : Directive.insertTag ∈ Directive.tags := by decide
    refine ⟨⟨⟨?_, hasTexts_of_directive hinsert _ _ _⟩, trivial, trivial⟩, rfl⟩
    exact ⟨by decide, by decide, by decide, by decide, by decide, fun h => absurd hinsert h⟩
  have hregistered : ∀ id template,
      OrderedMap.get? (.ofList [("t", selfInserting)]) id = some template →
      Validated (.ofList [("t", selfInserting)]) template := by
    intro id template h
    change (if "t" = id then some _ else none) = some template at h
    split at h
    · exact Option.some.inj h ▸ hvalidated
    · cases h
  have hclean : Context.IsClean [(.str "a", .str "b")] := by
    refine ⟨⟨nofun, fun text htext => ?_⟩, trivial⟩
    obtain rfl : "b" = text := Except.ok.inj htext
    intro c hc
    obtain rfl : c = 'b' := by simpa using hc
    decide
  exact ⟨.circularInsert ["t", "t"], rfl, rfl,
    (@kind_of_raises_expand _ Host.none _ ⟨3, 1⟩ (.tree selfInserting) _ (gives_pure.2 rfl) hvalidated
      hregistered hclean (.circularInsert ["t", "t"]) rfl).2.2.1 rfl⟩

/-- A body in which placeholders start in texts and end in attributes. -/
def splicedBody : List Node :=
  [.text "\x7b\x7ba[0]" false, .element "if" (.ofList [("cond", "true")])
    [.element "a" (.ofList [("title", "\x7b\x7ba[0]")]) [] false,
      .text "\x7d\x7d\x7d\x7d<insert template='z'/>\"" false, .element "b" .empty [] false] false]

theorem lacks_splicedBody : Everywhere (fun n _ => n.Lacks [Directive.repeatTag]) splicedBody := by
  have hif : "if" ∉ [Directive.repeatTag] := by decide
  have ha : "a" ∉ [Directive.repeatTag] := by decide
  have hb : "b" ∉ [Directive.repeatTag] := by decide
  exact ⟨trivial, trivial, hif, ⟨ha, trivial, trivial, trivial, hb, trivial, trivial⟩, trivial⟩

/-- A template whose texts hold a placeholder only together. -/
def splicedTemplate : Node :=
  .fragment [.element "if" (.ofList [("cond", "true")]) splicedBody false]

theorem isPlain_splicedTemplate : Everywhere (fun n _ => n.IsPlain) splicedTemplate.content := by
  have hif : ∀ children, (element "if" (.ofList [("cond", "true")]) children false).IsPlain :=
    fun _ => ⟨by decide, by decide, by decide, nofun, by decide, fun h => absurd (by decide) h⟩
  have ha : (element "a" (.ofList [("title", "\x7b\x7ba[0]")]) [] false).IsPlain :=
    ⟨by decide, by decide, by decide, by decide, by decide, by decide⟩
  have hb : (element "b" .empty [] false).IsPlain :=
    ⟨by decide, by decide, by decide, by decide, by decide, by decide⟩
  exact ⟨hif _, ⟨rfl, trivial, hif _, ⟨ha, trivial, rfl, trivial, hb, trivial, trivial⟩, trivial⟩,
    trivial⟩

/-- A placeholder may start in a text and end in an attribute. What is then read again has an
    insertion that no one has looked at. -/
theorem raises_expand_splicedTemplate :
    Everywhere (fun n _ => n.IsPlain) splicedTemplate.content ∧
      Issue.hasErrors (Issue.ofTemplate (some .empty) splicedTemplate) = false ∧
      Context.IsClean [(.str "a", .list [.str "V"])] ∧
      (expand ⟨Host.none, some .empty, .standard⟩ (.tree splicedTemplate)
        (.map [(.str "a", .list [.str "V"])])).Raises (.templateNotFound "z") := by
  -- The inner body leaves an element whose attribute holds an insertion.
  have hbranches : (expandBranches Host.none (expandNodes ⟨Host.none, some .empty, .standard⟩ 998 [])
      [(.str "a", .list [.str "V"])] splicedBody .nothing).Gives
      [.text "\x7b\x7ba[0]" false, .element "a"
        (.ofList [("title", "V\x7d\x7d<insert template='z'/>"), ("<b", "")]) [] false] := rfl
  -- The outer body reads it as an insertion.
  have hbody : (expandNodes ⟨Host.none, some .empty, .standard⟩ 999 []
      [(.str "a", .list [.str "V"])] splicedBody).Gives
      [.text "V" false, .element "insert" (.ofList [("template", "z")]) [] true,
        .text "\" " false, .element "b" .empty [] false] := by
    rw [expandNodes_succ, expandRepeats_of_lacks lacks_splicedBody, pure_bind]
    exact gives_bind.2 ⟨_, hbranches, rfl⟩
  have hlacks : LeavesNoRepeat ⟨Host.none, some .empty, .standard⟩ []
      [(.str "a", .list [.str "V"])] splicedBody := by
    intro depth nodes hnodes
    rw [expandRepeats_of_lacks lacks_splicedBody, gives_pure] at hnodes
    exact hnodes ▸ lacks_splicedBody
  have hfinish : (finishNodes ⟨Host.none, some .empty, .standard⟩ 999 []
      [(.str "a", .list [.str "V"])]
      [.text "V" false, .element "insert" (.ofList [("template", "z")]) [] true,
        .text "\" " false, .element "b" .empty [] false]).Raises (.templateNotFound "z") := rfl
  have hcond : (condition Host.none [(.str "a", .list [.str "V"])] Directive.ifTag
      (.ofList [("cond", "true")])).Gives true := rfl
  have hnested := @outcome_expandNodes_if ⟨Host.none, some .empty, .standard⟩ 999 []
    [(.str "a", .list [.str "V"])] (.ofList [("cond", "true")]) splicedBody _ false hcond hlacks hbody
  refine ⟨isPlain_splicedTemplate, rfl, ?_, ?_⟩
  · have hinert : ∀ v : Value, (∀ name, v ≠ .fn name) → v.render = .ok "V" → v.RendersInert := by
      intro v hfn hv
      refine ⟨hfn, fun text htext c hc => ?_⟩
      obtain rfl := Except.ok.inj (hv.symm.trans htext)
      obtain rfl : c = 'V' := by simpa using hc
      decide
    exact ⟨⟨hinert _ nofun rfl, hinert _ nofun rfl, trivial⟩, trivial⟩
  · have htree : (treeOf (.tree splicedTemplate)).Gives splicedTemplate := gives_pure.2 rfl
    rw [Raises, outcome_expand htree]
    exact hnested.trans hfinish

end Expansion

end Stencil
