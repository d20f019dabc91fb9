import Stencil.Proofs.Expansion.Rendering

/-!
# Expansion is filling

Expanding plain templates is filling them directly: if an expansion ends with nodes, filling the
template ends, and the nodes are what it is filled to, in normal form. So nothing that a body expands
to is taken apart or treated again by what is around it.

A template is plain if its nodes are, the placeholders that begin in a text of it end there and have
inert paths, and alternatives follow their conditionals. What the placeholders that filling comes to
are filled with has to be inert too: it has none of the characters that markup and placeholders are
told by. Nothing is asked of values that filling does not come to.

* `settles_expandNodes`: a body expands to what it is filled to, at every depth;
* `fill_of_gives_expand`: a template does.
-/

namespace Stencil.Expansion

open Node

/-- A node of a plain template, in front of the nodes behind it. -/
structure Plain (n : Node) (ns : List Node) : Prop where
  plain : n.IsPlain
  wellBraced : n.HasTexts WellBraced
  inertPaths : n.HasTexts HasInertPaths
  /-- An alternative directly follows its conditional, blank texts apart. -/
  placed : StartsAlternative ns → n.isBlank = true ∨ n.hasTag Directive.ifTag = true

/-- The templates that can be inserted are plain. -/
def PlainRegistry (registry : Option Registry) : Prop :=
  ∀ id template, registry.bind (·.get? id) = some template → Everywhere Plain template.content

/-- The values of the placeholders of a node are inert. -/
def Clean (host : Host) (context : Context) (n : Node) (_ : List Node) : Prop :=
  n.HasTexts (FillsInert host (.map context))

/-! ### Plain templates can be filled -/

section

variable {host : Host} {context : Context}

theorem Plain.templated {n : Node} {ns : List Node} (h : Plain n ns)
    (hclean : Clean host context n ns) : Templated host context n ns := by
  refine ⟨⟨h.plain, h.wellBraced, h.inertPaths, hclean⟩, fun htag halt => ?_⟩
  cases n with
  | element tag attrs children void =>
    rcases h.placed halt with hblank | hif
    · exact absurd hblank Bool.false_ne_true
    · rw [hasTag, beq_iff_eq] at htag hif
      exact absurd (htag.symm.trans hif) (by decide)
  | text data raw => exact absurd htag Bool.false_ne_true
  | comment data => exact absurd htag Bool.false_ne_true
  | fragment children => exact absurd htag Bool.false_ne_true

/-- What filling comes to in plain nodes can be filled if its values are inert. -/
theorem reaches_of_plain {insert insert' : Context → String → Prop}
    (hinsert : ∀ context id, insert context id → insert' context id) {ns : List Node}
    {alternative : Prop} (h : Everywhere Plain ns)
    (hclean : Reaches host insert (Clean host) ns context alternative) :
    Reaches host insert' (Templated host) ns context alternative := by
  induction ns using forest_induction generalizing context alternative with
  | nil => trivial
  | text data raw ns ih =>
    exact ⟨h.1.templated hclean.1, trivial, ih h.2.2 hclean.2.2⟩
  | comment data ns ih => exact h.1.plain.elim
  | fragment children ns ihc ih =>
    exact ⟨h.1.templated hclean.1, ihc h.2.1 hclean.2.1, ih h.2.2 hclean.2.2⟩
  | element tag attrs children void ns ihc ih =>
    obtain ⟨hn, hchildren, h⟩ := h
    obtain ⟨hclean, hbelow, hrest⟩ := hclean
    refine ⟨hn.templated hclean, ?_, ih h hrest⟩
    rw [ReachesBelow] at hbelow ⊢
    split_ifs at hbelow ⊢
    · exact fun r hr item hitem => ihc hchildren (hbelow r hr item hitem)
    · exact fun id hid => hinsert context id (hbelow id hid)
    · exact fun he => ihc hchildren (hbelow he)

/-- What filling comes to in plain templates can be filled if its values are inert. -/
theorem fillReaches_of_plain {s : Surroundings} (hregistry : PlainRegistry s.registry) {levels : Nat}
    {inserting : List String} {ns : List Node} (h : Everywhere Plain ns)
    (hclean : FillReaches s (Clean s.host) levels inserting context ns) :
    FillReaches s (Templated s.host) levels inserting context ns := by
  induction levels generalizing inserting context ns with
  | zero => trivial
  | succ levels ih =>
    refine reaches_of_plain ?_ h hclean
    intro context id hid hnew template htemplate
    exact ih (hregistry id template htemplate) (hid hnew template htemplate)

end

/-! ### Expanding is filling -/

theorem gives_expandInsert {registry : Option Registry}
    {expand : List String → List Node → Evaluation (List Node)} {inserting : List String} {id : String}
    {nodes : List Node} : (expandInsert registry expand inserting id).Gives nodes ↔
      id ∉ inserting ∧ ∃ template, registry.bind (·.get? id) = some template ∧
        (expand (inserting ++ [id]) template.content).Gives nodes := by
  rw [expandInsert]
  split
  next hid => simp [hid]
  next hid =>
    cases htemplate : registry.bind (·.get? id) with
    | none => simp
    | some template => simp [hid]

/-- The four passes over nodes leave what these are filled to, in normal form, if bodies and insertions
    expand to what they are filled to. -/
theorem settles_passes {host : Host} {insert : Context → String → Evaluation (List Node)}
    {reached : Context → String → Prop} {expand : Expand}
    {insertExpand : String → Evaluation (List Node)} {context : Context}
    (hbody : SoundExpand host insert reached expand)
    (hinsert : ∀ id r, reached context id → (insertExpand id).Gives r → Settles (insert context id) r)
    {replacements : Nat} {nodes r : List Node}
    (hreach : Reaches host reached (Templated host) nodes context False)
    (hr : (do
      let nodes ← expandRepeats host expand context nodes
      let nodes ← expandBranches host expand context nodes .nothing
      let nodes ← expandInserts insertExpand nodes
      let text ← interpolate host (.map context) replacements (stripComments (writeAll nodes))
      Evaluation.ofMarkup (parse (String.ofList text))).Gives r) :
    Settled r ∧ ∃ f, (fillNodes host insert nodes context .nothing).Gives f ∧ r = normalize f := by
  obtain ⟨repeated, hrepeated, hr⟩ := Evaluation.gives_bind.1 hr
  obtain ⟨branched, hbranched, hr⟩ := Evaluation.gives_bind.1 hr
  obtain ⟨inserted, hinserted, hr⟩ := Evaluation.gives_bind.1 hr
  obtain ⟨text, htext, hr⟩ := Evaluation.gives_bind.1 hr
  have hblanks : Settled Pending.nothing.blanks := trivial
  -- Each pass leaves nodes that are filled as those before it; the last one fills what is left.
  have hrepeats := unrolled_expandRepeats hbody hreach hrepeated
  have hbranches := remains_expandBranches hbody hrepeats.reaches False.elim hblanks hbranched
  have hinserts := remains_expandInserts hinsert hbranches.reaches hinserted
  have hfillable := everywhere_of_reaches hinserts.reaches
  obtain ⟨f', hsettled, hparse, hf'⟩ :=
    parse_of_gives_interpolate (hfillable.imp fun _ _ hn => hn.renderable) htext
  have hf' := hf' (hfillable.imp fun _ _ hn => hn.inertPaths)
  obtain ⟨f, hf, halike⟩ :=
    (hrepeats.refines .nothing False.elim).trans (hbranches.refines.trans hinserts.refines) f' hf'
  rw [hparse] at hr
  obtain rfl : normalize f' = r := Evaluation.gives_pure.1 hr
  exact ⟨hsettled.normalize, f, hf, halike.normalize_eq.symm⟩

/-- A body expands to what it is filled to, in normal form. -/
theorem settles_expandNodes {s : Surroundings} {depth levels : Nat} (hle : depth ≤ levels)
    {inserting : List String} {context : Context} {nodes r : List Node}
    (hreach : FillReaches s (Templated s.host) levels inserting context nodes)
    (hr : (expandNodes s depth inserting context nodes).Gives r) :
    Settled r ∧ ∃ f, (fill s levels inserting context nodes).Gives f ∧ r = normalize f := by
  induction depth generalizing levels inserting context nodes r with
  | zero => exact absurd hr Evaluation.not_gives_fail
  | succ depth ih =>
    obtain ⟨levels, rfl⟩ : ∃ n, levels = n + 1 := ⟨levels - 1, by omega⟩
    refine settles_passes ?_ ?_ hreach hr
    · -- A body stays at the same level of insertions.
      intro context body r hbody hr
      obtain ⟨hsettled, f, hf, rfl⟩ := ih (by omega : depth ≤ levels + 1) hbody hr
      exact ⟨hsettled, f, hf, (alike_normalize f).symm⟩
    · -- An inserted template is one level deeper.
      intro id r hid hr
      obtain ⟨hnew, template, htemplate, hr⟩ := gives_expandInsert.1 hr
      obtain ⟨hsettled, f, hf, rfl⟩ := ih (by omega) (hid hnew template htemplate) hr
      exact ⟨hsettled, f, gives_expandInsert.2 ⟨hnew, template, htemplate, hf⟩,
        (alike_normalize f).symm⟩

/-- If a plain template expands to nodes, then they are what it is filled to, in normal form. -/
theorem fill_of_gives_expand {s : Surroundings} {template : Template} {node : Node}
    (htree : (treeOf template).Gives node) (hplain : Everywhere Plain node.content)
    (hregistry : PlainRegistry s.registry) {context : Context}
    (hclean : FillReaches s (Clean s.host) s.limits.depth [] context node.content) {r : List Node}
    (hr : (expand s template (.map context)).Gives r) :
    ∃ filled, (fill s s.limits.depth [] context node.content).Gives filled ∧ r = normalize filled := by
  obtain ⟨node', hnode', hr⟩ := Evaluation.gives_bind.1 hr
  obtain rfl := htree.unique hnode'
  exact (settles_expandNodes le_rfl (fillReaches_of_plain hregistry hplain hclean) hr).2

/-- An insertion in a repetition: the inserted template is filled once for every element. -/
theorem fill_of_gives_expand_insert :
    ∃ filled, (fill ⟨Host.none, some (.ofList [("t", .fragment [.text "\x7b\x7by\x7d\x7d" false])]),
        ⟨3, 1⟩⟩ 3 [] [(.str "xs", .list [.str "a", .str "b"])]
        [.element "repeat" (.ofList [("for", "y of xs")])
          [.element "insert" (.ofList [("template", "t")]) [] false] false]).Gives filled ∧
      [.text "ab" false] = normalize filled := by
  have hregistered : ∀ {id : String} {template : Node},
      (some (OrderedMap.ofList [("t", Node.fragment [.text "\x7b\x7by\x7d\x7d" false])])).bind
        (·.get? id) = some template → template = .fragment [.text "\x7b\x7by\x7d\x7d" false] := by
    intro id template h
    change (if "t" = id then some _ else none) = some template at h
    split at h
    · exact (Option.some.inj h).symm
    · cases h
  have hempty : Unopened [] := trivial
  have hclosed : Unclosed ['y'] := by decide
  have hpaths : placeholders "\x7b\x7by\x7d\x7d".toList = [['y']] := placeholders_single hclosed
  refine @fill_of_gives_expand _ (.tree (.fragment _)) _ (Evaluation.gives_pure.2 rfl) ?_ ?_ _ ?_ _ rfl
  · have hrepeat : Directive.repeatTag ∈ Directive.tags := by decide
    have hinsert : Directive.insertTag ∈ Directive.tags := by decide
    refine ⟨⟨?_, hasTexts_of_directive hrepeat _ _ _, hasTexts_of_directive hrepeat _ _ _, False.elim⟩,
      ⟨⟨?_, hasTexts_of_directive hinsert _ _ _, hasTexts_of_directive hinsert _ _ _, False.elim⟩,
        trivial, trivial⟩, trivial⟩
    all_goals
      exact ⟨by decide, by decide, by decide, by decide, by decide, fun h => absurd (by decide) h⟩
  · intro id template htemplate
    rw [hregistered htemplate]
    refine ⟨⟨rfl, .cons hempty hclosed (.plain hempty), fun path hpath => ?_, False.elim⟩, trivial,
      trivial⟩
    obtain rfl := List.mem_singleton.1 (hpaths ▸ hpath)
    intro c hc
    obtain rfl := List.mem_singleton.1 hc
    decide
  · refine ⟨fun h => absurd (by decide) h, ?_, trivial⟩
    intro r hr item hitem
    obtain rfl : r = ⟨"y", [.str "a", .str "b"]⟩ := hr.unique rfl
    refine ⟨fun h => absurd (by decide) h, ?_, trivial⟩
    intro id hid hnew template htemplate
    rw [hregistered htemplate]
    refine ⟨?_, trivial, trivial⟩
    intro inside hinside text htext
    obtain rfl := List.mem_singleton.1 (hpaths ▸ hinside)
    rcases List.mem_cons.1 hitem with rfl | hitem
    · obtain rfl : text = ['a'] := htext.unique rfl
      intro c hc
      obtain rfl := List.mem_singleton.1 hc
      decide
    · obtain rfl := List.mem_singleton.1 hitem
      obtain rfl : text = ['b'] := htext.unique rfl
      intro c hc
      obtain rfl := List.mem_singleton.1 hc
      decide

end Stencil.Expansion
