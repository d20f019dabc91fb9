import Stencil.Proofs.Ending
import Stencil.Proofs.Expansion.Chains
import Stencil.Proofs.Expansion.Checked
import Stencil.Proofs.Expansion.Pieces

/-!
# Expansions come to an end

The expansion of a regular template in a clean context comes to an end, whatever its insertions: with
bounds that are large enough it finishes, and larger ones change nothing (`expand_ends`). A body has
fewer directives nested in it than the nodes that it stands in, and while a template is inserted there
are fewer templates that can still be inserted. What an expansion leaves has neither directives nor
placeholders, so no later pass goes on from there.

Placeholders have to end in the text that they begin in. One that begins in an attribute takes the tag
away, and what stood in the attribute can be markup for the same nodes again (`not_expand_ends`).

* `ends_expandRepeats`, `ends_expandBranches`, `ends_expandInserts`, `ends_read`: one pass;
* `ends_expandNodes`: nodes, along every chain of insertions.
-/

namespace Stencil

namespace Node

/-! ### How deep directives nest -/

mutual

/-- How deep directives nest at and below a node. -/
def nestingAt : Node → Nat
  | element tag _ children _ => nesting children + if tag ∈ Directive.tags then 1 else 0
  | fragment children => nesting children
  | text _ _ => 0
  | comment _ => 0
termination_by structural n => n

/-- How deep directives nest in nodes. -/
def nesting : List Node → Nat
  | [] => 0
  | n :: ns => max (nestingAt n) (nesting ns)
termination_by structural ns => ns

end

theorem nesting_append (as bs : List Node) : nesting (as ++ bs) = max (nesting as) (nesting bs) := by
  induction as with
  | nil => exact (Nat.zero_max _).symm
  | cons n as ih => rw [List.cons_append, nesting, nesting, ih, max_assoc]

theorem nestingAt_directive {tag : String} (h : tag ∈ Directive.tags) (attrs : Attributes)
    (children : List Node) (void : Bool) :
    nestingAt (.element tag attrs children void) = nesting children + 1 := by
  rw [nestingAt, if_pos h]

theorem nesting_le_nestingAt (tag : String) (attrs : Attributes) (children : List Node)
    (void : Bool) : nesting children ≤ nestingAt (.element tag attrs children void) :=
  Nat.le_add_right _ _

/-- Directives do not nest where there are none. -/
theorem nesting_of_lacks {ns : List Node} (h : Everywhere (fun n _ => n.Lacks Directive.tags) ns) :
    nesting ns = 0 := by
  induction ns using forest_induction with
  | nil => rfl
  | text data raw ns ih => rw [nesting, ih h.2.2, nestingAt, Nat.zero_max]
  | comment data ns ih => rw [nesting, ih h.2.2, nestingAt, Nat.zero_max]
  | fragment children ns ihc ih => rw [nesting, ih h.2.2, nestingAt, ihc h.2.1, Nat.zero_max]
  | element tag attrs children void ns ihc ih =>
    have hlacks : tag ∉ Directive.tags := h.1
    rw [nesting, ih h.2.2, nestingAt, ihc h.2.1, if_neg hlacks, Nat.zero_max]

end Node

namespace Expansion

open Node Evaluation

variable {host : Host} {context : Context}

/-! ### Nodes that a pass leaves -/

/-- Nodes are what an expansion leaves: regular ones without directives or placeholders. -/
abbrev Expanded (ns : List Node) : Prop := AllRegular Unopened Directive.tags ns

/-- Regular nodes without the given tags, as far as their placeholders end where they begin. -/
abbrev AllBraced (tags : List String) (ns : List Node) : Prop := AllRegular WellBraced tags ns

theorem allBraced_of_expanded {tags : List String} (htags : ∀ tag ∈ tags, tag ∈ Directive.tags)
    {ns : List Node} (h : Expanded ns) : AllBraced tags ns :=
  h.imp (fun _ => .plain) htags

theorem nesting_of_expanded {ns : List Node} (h : Expanded ns) : nesting ns = 0 :=
  nesting_of_lacks (Everywhere.imp (fun _ _ hn => hn.2) h)

theorem ends_append {post : List Node → Prop} (happend : ∀ a b, post a → post b → post (a ++ b))
    {x y : Nat → Nat → Evaluation (List Node)} (hx : Ends post x) (hy : Ends post y) :
    Ends post fun d n => do
      let nodes ← x d n
      return nodes ++ (← y d n) :=
  hx.bind fun a ha => hy.bind fun b hb => ends_pure (happend a b ha hb)

theorem allRegular_append {T : List Char → Prop} {tags : List String} (as bs : List Node)
    (ha : AllRegular T tags as) (hb : AllRegular T tags bs) : AllRegular T tags (as ++ bs) :=
  everywhere_append.2 ⟨ha, hb⟩

/-- Bodies in which directives nest less than `h` deep expand in clean contexts, and come to an end. -/
def BodiesEnd (h : Nat) (expand : Nat → Nat → Expand) : Prop :=
  ∀ context body, context.IsClean → AllBraced [] body → nesting body < h →
    Ends Expanded fun d n => expand d n context body

theorem BodiesEnd.mono {h h' : Nat} (hle : h' ≤ h) {expand : Nat → Nat → Expand}
    (hexpand : BodiesEnd h expand) : BodiesEnd h' expand :=
  fun context body hcontext hbody hnesting =>
    hexpand context body hcontext hbody (lt_of_lt_of_le hnesting hle)

theorem finishes_ofTemplate {α : Type} (x : Except TemplateError α) : (ofTemplate x).Finishes := by
  cases x
  · exact finishes_throw _
  · exact finishes_pure _

/-! ### Repetitions -/

theorem finishes_repetition (tag : String) (attrs : Attributes) :
    (repetition host context tag attrs).Finishes := by
  rw [repetition]
  refine (finishes_ofTemplate _).bind fun value _ => (finishes_ofTemplate _).bind fun parts _ => ?_
  refine (Path.finishes_resolve _ _).bind fun v _ => ?_
  split
  · exact finishes_throw _
  · split_ifs
    · exact finishes_throw _
    · exact finishes_pure _

/-- What a repetition runs over in a clean context is clean. -/
theorem allOf_of_gives_repetition (hcontext : context.IsClean) {tag : String} {attrs : Attributes}
    {r : Repetition} (hr : (repetition host context tag attrs).Gives r) :
    Value.AllOf Value.RendersInert r.items := by
  rw [repetition] at hr
  obtain ⟨value, -, hr⟩ := gives_bind.1 hr
  obtain ⟨⟨binding, source⟩, -, hr⟩ := gives_bind.1 hr
  obtain ⟨v, hv, hr⟩ := gives_bind.1 hr
  have hclean := (@Path.ensures_resolve host source.toList context).result v hv hcontext
  cases hitems : v.items? with
  | none =>
    rw [hitems] at hr
    exact absurd hr not_gives_throw
  | some items =>
    simp only [hitems] at hr
    split_ifs at hr
    · exact absurd hr not_gives_throw
    · exact gives_pure.1 hr ▸ hclean.items hitems

theorem ends_concatItems {nodesOf : Nat → Nat → Value → Evaluation (List Node)} {items : List Value}
    (h : ∀ item ∈ items, Ends Expanded fun d n => nodesOf d n item) :
    Ends Expanded fun d n => concatItems (nodesOf d n) items := by
  induction items with
  | nil => exact ends_pure trivial
  | cons item items ih =>
    exact ends_append allRegular_append (h item List.mem_cons_self)
      (ih fun i hi => h i (List.mem_cons_of_mem item hi))

/-- What the pass over repetitions leaves: directives nest no deeper than before. -/
structure Repeated (h : Nat) (ns : List Node) : Prop where
  regular : AllBraced [Directive.repeatTag] ns
  nesting_le : nesting ns ≤ h

theorem Repeated.append {h : Nat} (as bs : List Node) (ha : Repeated h as) (hb : Repeated h bs) :
    Repeated h (as ++ bs) :=
  ⟨allRegular_append as bs ha.regular hb.regular, by
    rw [nesting_append]
    exact max_le ha.nesting_le hb.nesting_le⟩

theorem repeated_of_expanded {h : Nat} {ns : List Node} (hns : Expanded ns) : Repeated h ns :=
  ⟨allBraced_of_expanded (by decide) hns, by rw [nesting_of_expanded hns]; exact Nat.zero_le h⟩

/-- The pass over repetitions comes to an end. -/
theorem ends_expandRepeats {h : Nat} {expand : Nat → Nat → Expand} (hexpand : BodiesEnd h expand)
    (hcontext : context.IsClean) {ns : List Node} (hns : AllBraced [] ns) (hnesting : nesting ns ≤ h) :
    Ends (Repeated h) fun d n => expandRepeats host (expand d n) context ns := by
  induction ns using forest_induction generalizing h with
  | nil => exact ends_pure ⟨trivial, Nat.zero_le h⟩
  | text data raw ns ih =>
    refine ends_append .append ?_ (ih hexpand hns.2.2 (Nat.max_le.1 hnesting).2)
    exact ends_pure ⟨⟨⟨hns.1.1, trivial⟩, trivial, trivial⟩, Nat.zero_le h⟩
  | comment data ns ih => exact hns.1.1.elim
  | fragment children ns ihc ih =>
    refine ends_append .append ?_ (ih hexpand hns.2.2 (Nat.max_le.1 hnesting).2)
    refine (ihc hexpand hns.2.1 (Nat.max_le.1 hnesting).1).bind fun children' hchildren' => ?_
    refine ends_pure ⟨⟨⟨trivial, trivial⟩, hchildren'.regular, trivial⟩, ?_⟩
    exact max_le hchildren'.nesting_le (Nat.zero_le h)
  | element tag attrs children void ns ihc ih =>
    obtain ⟨hn, hchildren, hns⟩ := hns
    have hself := (Nat.max_le.1 hnesting).1
    refine ends_append .append ?_ (ih hexpand hns (Nat.max_le.1 hnesting).2)
    by_cases hrepeat : tag = Directive.repeatTag
    · subst hrepeat
      rw [nestingAt_directive (by decide)] at hself
      simp only [expandRepeatsAt_repeat rfl]
      refine (ends_const (finishes_repetition _ attrs)
        fun r hr => allOf_of_gives_repetition hcontext hr).bind fun r hitems => ?_
      have hbody : ∀ item ∈ r.items, Ends Expanded fun d n =>
          expand d n (Context.bind context r.binding item) children := fun item hitem =>
        hexpand _ children (hcontext.bind r.binding (hitems.of_mem hitem)) hchildren hself
      exact (ends_concatItems hbody).imp fun _ => repeated_of_expanded
    · -- The directives of an element without a repetition nest as deep as they did.
      obtain ⟨k, hk⟩ : ∃ k, k = if tag ∈ Directive.tags then 1 else 0 := ⟨_, rfl⟩
      have hchild : nesting children + k ≤ h := hk ▸ hself
      simp only [expandRepeatsAt, if_neg hrepeat]
      refine (ihc (hexpand.mono (Nat.sub_le h k)) hchildren (by omega)).bind
        fun children' hchildren' => ends_pure ⟨⟨⟨hn.1, by simpa [Lacks] using hrepeat⟩,
          hchildren'.regular, trivial⟩, ?_⟩
      have hle := hchildren'.nesting_le
      rw [nesting, nestingAt, ← hk, nesting]
      omega

/-! ### Conditionals -/

theorem finishes_condition (tag : String) (attrs : Attributes) :
    (condition host context tag attrs).Finishes :=
  (finishes_ofTemplate _).bind fun _ _ => Condition.finishes_evaluate _ _

/-- What the pass over conditionals has made of a node, and what it holds back. -/
structure Branched (branch : List Node × Pending) : Prop where
  nodes : AllBraced branchTags branch.1
  blanks : AllBraced branchTags branch.2.blanks

theorem allBraced_released {tags : List String} {pending : Pending}
    (h : AllBraced tags pending.blanks) (n : Node) : AllBraced tags (pending.released n) := by
  rw [Pending.released]
  split
  · trivial
  · exact h

/-- A body has its repetitions replaced already, and gets all passes. -/
theorem ends_body {h : Nat} {expand : Nat → Nat → Expand} (hexpand : BodiesEnd h expand)
    (hcontext : context.IsClean) {body : List Node} (hbody : AllBraced [Directive.repeatTag] body)
    (hnesting : nesting body < h) :
    Ends (AllBraced branchTags) fun d n => expand d n context body :=
  (hexpand context body hcontext (hbody.imp (fun _ => id) (fun _ ht => absurd ht List.not_mem_nil))
    hnesting).imp fun _ => allBraced_of_expanded (by decide)

theorem ends_branchNode {h : Nat} {expand : Nat → Nat → Expand} (hexpand : BodiesEnd h expand)
    (hcontext : context.IsClean) {n : Node}
    (hn : n.IsRegular WellBraced ∧ n.Lacks [Directive.repeatTag])
    (hbelow : AllBraced [Directive.repeatTag] n.children) (hnesting : nestingAt n ≤ h)
    {pending : Pending} (hpending : AllBraced branchTags pending.blanks)
    (hchildren : Ends (AllBraced branchTags)
      fun d k => expandBranches host (expand d k) context n.children .nothing) :
    Ends Branched fun d k => branchNode host (expand d k) context n pending := by
  cases n with
  | text data raw =>
    have htext : AllBraced branchTags [.text data raw] := ⟨⟨hn.1, trivial⟩, trivial, trivial⟩
    simp only [branchNode]
    split
    · refine ends_pure ?_
      cases pending with
      | nothing => exact ⟨htext, trivial⟩
      | expanded blanks => exact ⟨trivial, everywhere_append.2 ⟨hpending, htext⟩⟩
    · exact ends_pure ⟨htext, trivial⟩
  | comment data => exact hn.1.elim
  | fragment children =>
    simp only [branchNode]
    exact hchildren.bind fun children' hchildren' =>
      ends_pure ⟨⟨⟨trivial, trivial⟩, hchildren', trivial⟩, trivial⟩
  | element tag attrs children void =>
    simp only [branchNode]
    split_ifs with hif helse
    · subst hif
      rw [nestingAt_directive (by decide)] at hnesting
      refine (ends_const (finishes_condition _ attrs) fun _ _ => trivial).bind fun holds _ => ?_
      cases holds with
      | true =>
        exact (ends_body hexpand hcontext hbelow hnesting).bind fun nodes hnodes =>
          ends_pure ⟨hnodes, trivial⟩
      | false => exact ends_pure ⟨trivial, trivial⟩
    · subst helse
      rw [nestingAt_directive (by decide)] at hnesting
      cases pending with
      | nothing => exact ends_pure ⟨trivial, trivial⟩
      | expanded blanks =>
        exact (ends_body hexpand hcontext hbelow hnesting).bind fun nodes hnodes =>
          ends_pure ⟨hnodes, trivial⟩
    · have hrepeat : tag ≠ Directive.repeatTag := fun ht => hn.2 (List.mem_singleton.2 ht)
      have hlacks : tag ∉ branchTags := by simpa [branchTags] using ⟨hrepeat, hif, helse⟩
      exact hchildren.bind fun children' hchildren' =>
        ends_pure ⟨⟨⟨hn.1, hlacks⟩, hchildren', trivial⟩, trivial⟩

/-- The pass over conditionals goes on with what a node has left for the next alternative. -/
theorem ends_expandBranches_cons {expand : Nat → Nat → Expand} {n : Node} {ns : List Node}
    {pending : Pending} (hpending : AllBraced branchTags pending.blanks)
    (hn : Ends Branched fun d k => branchNode host (expand d k) context n pending)
    (hns : ∀ next : Pending, AllBraced branchTags next.blanks → Ends (AllBraced branchTags)
      fun d k => expandBranches host (expand d k) context ns next) :
    Ends (AllBraced branchTags)
      fun d k => expandBranches host (expand d k) context (n :: ns) pending := by
  simp only [expandBranches_cons]
  refine hn.bind fun b hb => (hns b.2 hb.blanks).bind fun rest hrest => ?_
  exact ends_pure
    (everywhere_append.2 ⟨allBraced_released hpending n, everywhere_append.2 ⟨hb.nodes, hrest⟩⟩)

/-- The pass over conditionals comes to an end. -/
theorem ends_expandBranches {h : Nat} {expand : Nat → Nat → Expand} (hexpand : BodiesEnd h expand)
    (hcontext : context.IsClean) {ns : List Node} (hns : AllBraced [Directive.repeatTag] ns)
    (hnesting : nesting ns ≤ h) {pending : Pending}
    (hpending : AllBraced branchTags pending.blanks) :
    Ends (AllBraced branchTags) fun d n => expandBranches host (expand d n) context ns pending := by
  induction ns using forest_induction generalizing pending with
  | nil => exact ends_pure hpending
  | text data raw ns ih =>
    obtain ⟨hself, hrest⟩ := Nat.max_le.1 hnesting
    refine ends_expandBranches_cons hpending ?_ fun next hnext => ih hns.2.2 hrest hnext
    exact ends_branchNode hexpand hcontext hns.1 hns.2.1 hself hpending (ends_pure trivial)
  | comment data ns ih => exact hns.1.1.elim
  | fragment children ns ihc ih =>
    obtain ⟨hself, hrest⟩ := Nat.max_le.1 hnesting
    refine ends_expandBranches_cons hpending ?_ fun next hnext => ih hns.2.2 hrest hnext
    exact ends_branchNode hexpand hcontext hns.1 hns.2.1 hself hpending (ihc hns.2.1 hself trivial)
  | element tag attrs children void ns ihc ih =>
    obtain ⟨hself, hrest⟩ := Nat.max_le.1 hnesting
    refine ends_expandBranches_cons hpending ?_ fun next hnext => ih hns.2.2 hrest hnext
    exact ends_branchNode hexpand hcontext hns.1 hns.2.1 hself hpending
      (ihc hns.2.1 (le_trans (nesting_le_nestingAt tag attrs children void) hself) trivial)

/-! ### Insertions -/

/-- The pass over insertions comes to an end if what is inserted does. -/
theorem ends_expandInserts {insert : Nat → Nat → String → Evaluation (List Node)}
    (hinsert : ∀ id, Ends Expanded fun d n => insert d n id) {ns : List Node}
    (hns : AllBraced branchTags ns) :
    Ends (AllBraced Directive.tags) fun d n => expandInserts (insert d n) ns := by
  induction ns using forest_induction with
  | nil => exact ends_pure trivial
  | text data raw ns ih =>
    refine ends_append allRegular_append ?_ (ih hns.2.2)
    exact ends_pure ⟨⟨hns.1.1, trivial⟩, trivial, trivial⟩
  | comment data ns ih => exact hns.1.1.elim
  | fragment children ns ihc ih =>
    refine ends_append allRegular_append ?_ (ih hns.2.2)
    exact (ihc hns.2.1).bind fun children' hchildren' =>
      ends_pure ⟨⟨trivial, trivial⟩, hchildren', trivial⟩
  | element tag attrs children void ns ihc ih =>
    obtain ⟨hn, hchildren, hns⟩ := hns
    refine ends_append allRegular_append ?_ (ih hns)
    simp only [expandInsertsAt]
    split_ifs with hins
    · exact (ends_const (finishes_ofTemplate _) fun _ _ => trivial).bind fun id _ =>
        (hinsert id).imp fun _ => allBraced_of_expanded fun _ ht => ht
    · obtain ⟨hrepeat, hif, helse⟩ :
          tag ≠ Directive.repeatTag ∧ tag ≠ Directive.ifTag ∧ tag ≠ Directive.elseTag := by
        simpa [Lacks, branchTags] using hn.2
      have hlacks : tag ∉ Directive.tags := by
        simpa [Directive.tags] using ⟨hrepeat, hif, helse, hins⟩
      exact (ihc hchildren).bind fun children' hchildren' =>
        ends_pure ⟨⟨hn.1, hlacks⟩, hchildren', trivial⟩

/-! ### Placeholders -/

/-- The last pass comes to an end, and leaves neither directives nor placeholders. -/
theorem ends_read (hcontext : context.IsClean) {ns : List Node} (hns : AllBraced Directive.tags ns) :
    Ends Expanded fun _ n => interpolate host (.map context) n (stripComments (writeAll ns)) >>=
      fun text => Evaluation.ofMarkup (parse (String.ofList text)) := by
  have hpieces := pieces_writeAll hns .nil
  rw [List.append_nil] at hpieces
  have hcalm := calm_of_pieces (fun _ => lt_not_mem_of_writesAttrs) hpieces
  have hinert : ∀ s, FillsInert host (.map context) s := fillsInert_of_clean hcontext
  have hvalues : ∀ inside text, (renderPlaceholder host (.map context) inside).Gives text →
      '\x7b' ∉ text := fun inside text htext hmem =>
    (ensures_renderPlaceholder hcontext inside).result text htext _ hmem (by decide)
  simp only [stripComments_of_calm hcalm]
  refine (ends_interpolate hvalues _).bind fun t ⟨n, ht⟩ => ?_
  -- The text is what the pieces are filled to one by one.
  have hempty : Unopened [] := trivial
  obtain ⟨filled, hfilled, rfl⟩ :=
    fillText_of_interpolate (ready_of_pieces hinert hpieces).wellBraced (hinert _) hempty ht
  obtain ⟨nodes, hparse, hnodes⟩ := parse_pieces (fun _ _ => Text.Isolated.append) trivial
    (pieces_of_gives_fillText hinert hpieces hfilled)
  rw [hparse]
  exact ends_pure hnodes

/-! ### All passes -/

section

variable {registry : Option Registry}

/-- All templates that can be inserted are regular, and their placeholders end where they begin. -/
def HasRegularTemplates (registry : Option Registry) : Prop :=
  ∀ id template, registry.bind (·.get? id) = some template → AllBraced [] template.content

/-- An insertion comes to an end if expansions along longer chains do. -/
theorem ends_expandInsert (hregistry : HasRegularTemplates registry) {inserting : List String}
    (hchain : IsChain registry inserting)
    {expand : Nat → Nat → List String → List Node → Evaluation (List Node)}
    (hexpand : ∀ chain nodes, IsChain registry chain → inserting.length < chain.length →
      AllBraced [] nodes → Ends Expanded fun d n => expand d n chain nodes) (id : String) :
    Ends Expanded fun d n => expandInsert registry (expand d n) inserting id := by
  simp only [expandInsert]
  split_ifs with hid
  · exact ends_throw _
  cases hfound : registry.bind (·.get? id) with
  | none => exact ends_throw _
  | some template =>
    refine hexpand _ _ (hchain.concat hid (mem_registered hfound)) ?_ (hregistry id template hfound)
    rw [List.length_append]
    exact Nat.lt_succ_self _

/-- Nodes of any nesting come to an end if the insertions in them do. -/
theorem bodiesEnd_expandNodes {inserting : List String}
    (hinsert : ∀ context : Context, context.IsClean → ∀ id, Ends Expanded fun d n =>
      expandInsert registry
        (fun inserting => expandNodes ⟨host, registry, ⟨0, n⟩⟩ d inserting context) inserting id)
    (h : Nat) :
    BodiesEnd h fun d n => expandNodes ⟨host, registry, ⟨0, n⟩⟩ d inserting := by
  induction h with
  | zero => exact fun _ _ _ _ hnesting => absurd hnesting (Nat.not_lt_zero _)
  | succ h ih =>
    intro context body hcontext hbody hnesting
    have hblanks : AllBraced branchTags Pending.nothing.blanks := trivial
    refine Ends.of_succ (fun n => not_not.2 rfl) ?_
    simp only [expandNodes]
    refine (ends_expandRepeats ih hcontext hbody (Nat.le_of_lt_succ hnesting)).bind
      fun repeated hrepeated => ?_
    refine (ends_expandBranches ih hcontext hrepeated.regular hrepeated.nesting_le hblanks).bind
      fun branched hbranched => ?_
    exact (ends_expandInserts (hinsert context hcontext) hbranched).bind
      fun inserted hinserted => ends_read hcontext hinserted

/-- Regular nodes come to an end in clean contexts, along every chain of insertions. -/
theorem ends_expandNodes (hregistry : HasRegularTemplates registry) {inserting : List String}
    (hchain : IsChain registry inserting) (hcontext : context.IsClean) {nodes : List Node}
    (hnodes : AllBraced [] nodes) :
    Ends Expanded fun d n => expandNodes ⟨host, registry, ⟨0, n⟩⟩ d inserting context nodes := by
  -- By induction on the templates that can still be inserted.
  induction hleft : (registered registry).length - inserting.length using Nat.strong_induction_on
    generalizing inserting context nodes with
  | _ left ih =>
    subst hleft
    refine bodiesEnd_expandNodes (fun context hcontext id => ?_) (nesting nodes + 1) context nodes
      hcontext hnodes (Nat.lt_succ_self _)
    refine ends_expandInsert hregistry hchain (fun chain nodes hlonger hlt hnodes => ?_) id
    have := hlonger.length_le
    exact ih _ (by omega) hlonger hcontext hnodes rfl

theorem finishes_treeOf (template : Template) : (treeOf template).Finishes := by
  cases template with
  | markup text => exact (finishes_ofMarkup _).bind fun _ _ => finishes_pure _
  | tree node => exact finishes_pure node
  | other typeName => exact finishes_throw _

/-- A regular template comes to an end in clean contexts. -/
theorem ends_expand {template : Template} {node : Node} (htree : (treeOf template).Gives node)
    (hnode : AllBraced [] node.content) (hregistry : HasRegularTemplates registry)
    (hcontext : context.IsClean) :
    Ends Expanded fun d n => expand ⟨host, registry, ⟨d, n⟩⟩ template (.map context) := by
  refine (ends_const (finishes_treeOf template) fun _ h => h.unique htree).bind fun _ hnode' => ?_
  subst hnode'
  have hcongr : ∀ d n, expandNodes ⟨host, registry, ⟨d, n⟩⟩ d =
      expandNodes ⟨host, registry, ⟨0, n⟩⟩ d := fun d n => expandNodes_congr (by rfl) d
  simp only [hcongr]
  exact ends_expandNodes hregistry isChain_nil hcontext hnode

/-- The expansion of a regular template in a clean context comes to an end, in nodes or in an error,
    whatever the templates that it can insert insert themselves: with all bounds that are large enough
    it is the same, and finished. It goes on along chains of registered templates, of which none comes
    twice, so they are no longer than the registry; and a template that is being inserted is not
    inserted once more. -/
theorem expand_ends {template : Template} {node : Node} (htree : (treeOf template).Gives node)
    (hnode : AllBraced [] node.content) (hregistry : HasRegularTemplates registry)
    (hcontext : context.IsClean) :
    (∃ bound y, Finishes y ∧ ∀ limits : Limits, bound ≤ limits.depth → bound ≤ limits.replacements →
        expand ⟨host, registry, limits⟩ template (.map context) = y) ∧
      (∀ (limits : Limits) (other : List String → Expand),
        expandAlong (IsChain registry) other ⟨host, registry, limits⟩ limits.depth [] =
          expandNodes ⟨host, registry, limits⟩ limits.depth []) ∧
      (∀ chain, IsChain registry chain → chain.length ≤ (registered registry).length) ∧
      ∀ (expand : List String → List Node → Evaluation (List Node)) (inserting : List String)
        (id : String) (attrs : Attributes) (children : List Node) (void : Bool), id ∈ inserting →
        Directive.require Directive.insertTag attrs "template" = .ok id →
          ∃ e : TemplateError, e.kind = "MalformedDirective" ∧
            expandInsertsAt (expandInsert registry expand inserting)
              (.element Directive.insertTag attrs children void) = Evaluation.throw e := by
  refine ⟨?_, fun limits other => expandAlong_eq other ⟨host, registry, limits⟩ _ isChain_nil,
    fun _ => IsChain.length_le, ?_⟩
  · obtain ⟨bound, y, hy, heq⟩ := (ends_expand htree hnode hregistry hcontext).exists_eq
    exact ⟨bound, y, hy, fun limits hdepth hreplacements => heq _ _ hdepth hreplacements⟩
  · intro expand inserting id attrs children void hid hattr
    exact ⟨.circularInsert (inserting ++ [id]), rfl,
      expandInsertsAt_circular expand hid hattr children void⟩

end

/-- A text for a placeholder, repeated, and a template that inserts itself. -/
def repeatAndInsert : List Node :=
  [.element "repeat" (.ofList [("for", "x of xs")]) [.text "\x7b\x7bx\x7d\x7d" false] false,
    selfInserting]

/-- An expansion comes to an end in an error if a template inserts itself. -/
theorem expand_ends_circular :
    ∃ bound y, Finishes y ∧ ∀ limits : Limits, bound ≤ limits.depth → bound ≤ limits.replacements →
      expand ⟨Host.none, some (.ofList [("t", selfInserting)]), limits⟩
        (.tree (.fragment repeatAndInsert)) (.map [(.str "xs", .list [.str "b"])]) = y := by
  have hinsert : IsRegular WellBraced selfInserting :=
    ⟨⟨by decide, by decide⟩, List.forall_mem_singleton.2 (by decide),
      fun htag => absurd (by decide) htag⟩
  have hself : AllBraced [] [selfInserting] := ⟨⟨hinsert, List.not_mem_nil⟩, trivial, trivial⟩
  have hrepeat : ∀ children, IsRegular WellBraced
      (.element "repeat" (.ofList [("for", "x of xs")]) children false) := fun _ =>
    ⟨⟨by decide, by decide⟩, List.forall_mem_singleton.2 (by decide),
      fun htag => absurd (by decide) htag⟩
  have htext : IsRegular WellBraced (.text "\x7b\x7bx\x7d\x7d" false) :=
    ⟨rfl, @WellBraced.cons [] ['x'] [] trivial (by decide) (.plain trivial)⟩
  have hnode : AllBraced [] repeatAndInsert :=
    ⟨⟨hrepeat _, List.not_mem_nil⟩, ⟨⟨htext, trivial⟩, trivial, trivial⟩, hself⟩
  have hregistry : HasRegularTemplates (some (.ofList [("t", selfInserting)])) := by
    intro id template h
    change (if "t" = id then some _ else none) = some template at h
    split at h
    · exact Option.some.inj h ▸ hself
    · cases h
  have hclean : Context.IsClean [(.str "xs", .list [.str "b"])] := by
    have hb : Inert "b".toList := List.forall_mem_singleton.2 (by decide)
    exact ⟨⟨Value.rendersInert_of_render nofun rfl hb, Value.rendersInert_of_render nofun rfl hb,
      trivial⟩, trivial⟩
  have htree : (treeOf (.tree (.fragment repeatAndInsert))).Gives (.fragment repeatAndInsert) :=
    gives_pure.2 rfl
  exact (expand_ends htree hnode hregistry hclean).1

/-! ### A template that recurs -/

namespace Recurrence

/-- What `seed` expands to. Next to itself it is a placeholder with directives behind it. -/
def shoot : List Node :=
  [.text "\x7ba[0]" false, .element "a" (.ofList
    [("t", "\x7d\x7d<if cond=true><repeat for='u of a'>\x7b<repeat for='v of a' "), ("<b", "")]) []
      false]

/-- Nodes with a placeholder that begins in an attribute and ends in a text. -/
def seed : List Node :=
  [.text "\x7ba[0]" false, .element "a" (.ofList [("t", "\x7b\x7ba[0]")]) [] false,
    .text "\x7d\x7d\x7d\x7d<if cond=true><repeat for='u of a'>\x7b<repeat for='v of a' \"" false,
    .element "b" .empty [] false]

/-- A brace in front of a repetition of nodes. -/
def row (attrs : Attributes) (nodes : List Node) : List Node :=
  [.text "\x7b" false, .element "repeat" attrs nodes false]

/-- A repetition of rows. -/
def rows (attrs : Attributes) (nodes : List Node) : List Node :=
  [.element "repeat" (.ofList [("for", "u of a")]) (row attrs nodes) false]

/-- What a row expands to: a conditional that holds, with rows in it. -/
def regrown : List Node :=
  [.element "if" (.ofList [("cond", "true")])
    (rows (.ofList [("for", "v of a"), ("\"", ""), ("<b", "")]) shoot) false]

/-- A context with a list of two texts. -/
def pair : Context := [(.str "a", .list [.str "", .str ""])]

/-- The surroundings of the expansion, with room for two replacements. -/
def plot (n : Nat) : Surroundings := ⟨Host.none, none, ⟨0, n + 2⟩⟩

/-- Nodes and the attributes of a repetition of them, of which rows come back in rows. -/
structure Recurs (attrs : Attributes) (nodes : List Node) : Prop where
  gives_repetition : (repetition Host.none (pair.bind "u" (.str "")) "repeat" attrs).Gives
    ⟨"v", [.str "", .str ""]⟩
  gives_shoot : ∀ n depth,
    (expandNodes (plot n) (depth + 1) [] ((pair.bind "u" (.str "")).bind "v" (.str "")) nodes).Gives
      shoot

set_option maxRecDepth 4000 in
theorem recurs_seed : Recurs (.ofList [("for", "v of a")]) seed :=
  ⟨rfl, fun _ _ => rfl⟩

set_option maxRecDepth 4000 in
theorem recurs_shoot : Recurs (.ofList [("for", "v of a"), ("\"", ""), ("<b", "")]) shoot :=
  ⟨rfl, fun _ _ => rfl⟩

section

variable {expand : Expand} {attrs : Attributes} {body nodes : List Node} {binding : String}
  {item : Value} (h : (repetition host context "repeat" attrs).Gives ⟨binding, [item, item]⟩)

include h

/-- What a repetition over two elements that are the same becomes. -/
theorem gives_expandRepeats_twice (hbody : (expand (context.bind binding item) body).Gives nodes) :
    (expandRepeats host expand context [.element "repeat" attrs body false]).Gives
      (nodes ++ nodes) := by
  have htag : "repeat" = Directive.repeatTag := rfl
  refine gives_expandRepeats_cons.2 ⟨nodes ++ nodes, [], ?_, gives_pure.2 rfl,
    (List.append_nil _).symm⟩
  rw [expandRepeatsAt_repeat htag]
  exact gives_bind.2 ⟨_, h, gives_concatItems_cons.2 ⟨nodes, nodes, hbody,
    gives_concatItems_cons.2 ⟨nodes, [], hbody, gives_pure.2 rfl, (List.append_nil _).symm⟩, rfl⟩⟩

theorem not_finishes_expandRepeats (hbody : ¬(expand (context.bind binding item) body).Finishes) :
    ¬(expandRepeats host expand context [.element "repeat" attrs body false]).Finishes := by
  have htag : "repeat" = Directive.repeatTag := rfl
  rw [expandRepeats, expandRepeatsAt_repeat htag]
  refine not_finishes_bind ?_ _
  rw [h.finishes_bind]
  exact not_finishes_bind hbody _

end

set_option maxRecDepth 4000 in
/-- A row expands to a conditional with rows in it. -/
theorem Recurs.gives_row {attrs : Attributes} {nodes : List Node} (h : Recurs attrs nodes)
    (n depth : Nat) :
    (expandNodes (plot n) (depth + 2) [] (pair.bind "u" (.str "")) (row attrs nodes)).Gives
      regrown := by
  have hrepeats : (expandRepeats Host.none (expandNodes (plot n) (depth + 1) [])
      (pair.bind "u" (.str "")) (row attrs nodes)).Gives
      (.text "\x7b" false :: (shoot ++ shoot)) :=
    gives_expandRepeats_cons.2 ⟨[_], shoot ++ shoot, gives_pure.2 rfl,
      gives_expandRepeats_twice h.gives_repetition (h.gives_shoot n depth), rfl⟩
  -- The placeholder takes the tag away that holds the directives in an attribute.
  have htext : (interpolate Host.none (.map (pair.bind "u" (.str ""))) (n + 2)
      (stripComments (writeAll (.text "\x7b" false :: (shoot ++ shoot))))).Gives
      ("<if cond=true><repeat for='u of a'>\x7b<repeat for='v of a' \" <b></a>\x7ba[0]" ++
        "<a t=\"\x7d\x7d<if cond=true><repeat for='u of a'>\x7b<repeat for='v of a' \" <b></a>"
        ).toList := rfl
  rw [expandNodes_succ, gives_bind]
  refine ⟨_, hrepeats, gives_bind.2 ⟨.text "\x7b" false :: (shoot ++ shoot), rfl, ?_⟩⟩
  rw [finishNodes, gives_bind]
  exact ⟨_, rfl, gives_bind.2 ⟨_, htext, rfl⟩⟩

/-- At small bounds of the depth a row is not finished. -/
theorem Recurs.row_cases {attrs : Attributes} {nodes : List Node} (h : Recurs attrs nodes)
    (n depth : Nat) :
    ¬(expandNodes (plot n) depth [] (pair.bind "u" (.str "")) (row attrs nodes)).Finishes ∨
      (expandNodes (plot n) depth [] (pair.bind "u" (.str "")) (row attrs nodes)).Gives regrown := by
  match depth with
  | 0 => exact .inl (not_not.2 rfl)
  | 1 =>
    have hrepeat := @not_finishes_expandRepeats _ _ (expandNodes (plot n) 0 []) _ nodes _ _
      h.gives_repetition (not_not.2 rfl)
    have htext : (expandRepeatsAt Host.none (expandNodes (plot n) 0 []) (pair.bind "u" (.str ""))
      (.text "\x7b" false)).Gives [.text "\x7b" false] := rfl
    left
    rw [expandNodes_succ, row, expandRepeats]
    exact not_finishes_bind (mt (htext.finishes_bind _).1 (not_finishes_bind hrepeat _)) _
  | depth + 2 => exact .inr (h.gives_row n depth)

/-- Rows have rows in them again, so no bound of the depth is large enough. -/
theorem Recurs.not_finishes_rows {attrs : Attributes} {nodes : List Node} (h : Recurs attrs nodes)
    (n depth : Nat) : ¬(expandNodes (plot n) depth [] pair (rows attrs nodes)).Finishes := by
  induction depth generalizing attrs nodes with
  | zero => exact not_not.2 rfl
  | succ depth ih =>
    have hrepetition : (repetition Host.none pair "repeat" (.ofList [("for", "u of a")])).Gives
        ⟨"u", [.str "", .str ""]⟩ := rfl
    rw [expandNodes_succ, rows]
    rcases h.row_cases n depth with hrow | hrow
    · exact not_finishes_bind (not_finishes_expandRepeats hrepetition hrow) _
    -- Both rows become conditionals, and the first one gets all passes.
    have hcond : (condition Host.none pair Directive.ifTag (.ofList [("cond", "true")])).Gives true :=
      rfl
    have hrepeats := gives_expandRepeats_twice hrepetition hrow
    refine mt (hrepeats.finishes_bind _).1 (not_finishes_bind ?_ _)
    have hregrown : regrown ++ regrown = .element Directive.ifTag (.ofList [("cond", "true")])
        (rows (.ofList [("for", "v of a"), ("\"", ""), ("<b", "")]) shoot) false :: regrown := rfl
    rw [hregrown, expandBranches_cons, branchNode, if_pos rfl]
    refine not_finishes_bind (mt (hcond.finishes_bind _).1 ?_) _
    exact not_finishes_bind (ih recurs_shoot) _

theorem allRegular_rows :
    AllRegular (fun _ => True) [] (rows (.ofList [("for", "v of a")]) seed) := by
  have hrepeat : IsRegularTag "repeat" := ⟨by decide, by decide⟩
  have ha : IsRegularTag "a" := ⟨by decide, by decide⟩
  have hb : IsRegularTag "b" := ⟨by decide, by decide⟩
  have hname : Markup.isName "for".toList = true := by decide
  have hfor : ∀ value children, IsRegular (fun _ => True)
      (.element "repeat" (.ofList [("for", value)]) children false) := fun value children =>
    ⟨hrepeat, List.forall_mem_singleton.2 hname, fun htag => absurd (by decide) htag⟩
  have hvalues : HasRegularValues (fun _ => True) (.ofList [("t", "\x7b\x7ba[0]")]) :=
    List.forall_mem_singleton.2 ⟨by decide, trivial⟩
  have hlink : IsRegular (fun _ => True) (.element "a" (.ofList [("t", "\x7b\x7ba[0]")]) [] false) :=
    ⟨ha, List.forall_mem_singleton.2 (by decide), fun _ => hvalues⟩
  have hbold : IsRegular (fun _ => True) (.element "b" .empty [] false) :=
    ⟨hb, List.forall_mem_nil _, fun _ => List.forall_mem_nil _⟩
  have htext : ∀ data, IsRegular (fun _ => True) (.text data false) := fun _ => ⟨rfl, trivial⟩
  have hseed : AllRegular (fun _ => True) [] seed :=
    ⟨⟨htext _, trivial⟩, trivial, ⟨hlink, List.not_mem_nil⟩, trivial, ⟨htext _, trivial⟩, trivial,
      ⟨hbold, List.not_mem_nil⟩, trivial, trivial⟩
  exact ⟨⟨hfor _ _, List.not_mem_nil⟩, ⟨⟨htext _, trivial⟩, trivial, ⟨hfor _ _, List.not_mem_nil⟩, hseed,
    trivial⟩, trivial⟩

theorem isClean_pair : pair.IsClean := by
  have hempty : (Value.str "").RendersInert :=
    Value.rendersInert_of_render nofun rfl (List.forall_mem_nil _)
  have hcomma : Inert ",".toList := List.forall_mem_singleton.2 (by decide)
  exact ⟨⟨Value.rendersInert_of_render nofun rfl hcomma, hempty, hempty, trivial⟩, trivial⟩

end Recurrence

/-- A template may be regular and recur without end, if a placeholder begins in one of its attributes
    and ends in a text. -/
theorem not_expand_ends : ¬∀ (host : Host) (registry : Option Registry) (template : Template)
    (node : Node) (context : Context), (treeOf template).Gives node →
      AllRegular (fun _ => True) [] node.content →
      (∀ id template, registry.bind (·.get? id) = some template →
        AllRegular (fun _ => True) [] template.content) →
      context.IsClean →
      ∃ bound y, Finishes y ∧ ∀ limits : Limits, bound ≤ limits.depth → bound ≤ limits.replacements →
        expand ⟨host, registry, limits⟩ template (.map context) = y := by
  intro h
  have htree : (treeOf (.tree (.fragment
      (Recurrence.rows (.ofList [("for", "v of a")]) Recurrence.seed)))).Gives
        (.fragment (Recurrence.rows (.ofList [("for", "v of a")]) Recurrence.seed)) :=
    gives_pure.2 rfl
  obtain ⟨bound, y, hy, heq⟩ := h Host.none none _ _ Recurrence.pair htree
    Recurrence.allRegular_rows nofun Recurrence.isClean_pair
  apply Recurrence.recurs_seed.not_finishes_rows bound bound
  have hcongr := @expandNodes_congr Host.none none ⟨0, bound + 2⟩ ⟨bound, bound + 2⟩ rfl bound
  rw [← heq ⟨bound, bound + 2⟩ le_rfl (Nat.le_add_right bound 2), Finishes, outcome_expand htree] at hy
  rwa [Finishes, Recurrence.plot, congrFun (congrFun (congrFun hcongr []) Recurrence.pair) _]

end Expansion

end Stencil
