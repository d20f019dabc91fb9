import Stencil.Proofs.Expansion.Repeats

/-!
# The pass over conditionals

Of a conditional and the alternative that follows it one is replaced by its expanded body. The pass
goes from node to node and hands on what is held back, as the filling of the nodes does
(`expandBranches_cons`), so each node can be looked at by itself (`remainsNode_branchNode`).

* `remains_expandBranches`: the nodes that the pass leaves are filled as the nodes before it.
-/

namespace Stencil.Expansion

open Node

/-! ### Conditionals -/

section

variable (host : Host) (expand : Expand) (context : Context)

/-- What the pass over conditionals makes of a node, without what was held back before it, and what it
    leaves for the next alternative. -/
def branchNode : Node → Pending → Evaluation (List Node × Pending)
  | .text data raw, pending =>
    if (Node.text data raw).isBlank then pure (pending.hold (.text data raw))
    else pure ([.text data raw], .nothing)
  | .comment data, _ => pure ([.comment data], .nothing)
  | .fragment children, _ => do
    let children ← expandBranches host expand context children .nothing
    return ([.fragment children], .nothing)
  | .element tag attrs children void, pending =>
    if tag = Directive.ifTag then do
      if ← condition host context tag attrs then
        let nodes ← expand context children
        return (nodes, .nothing)
      else return ([], .expanded [])
    else if tag = Directive.elseTag then do
      let nodes ← pending.alternative (expand context children)
      return (nodes, .nothing)
    else do
      let children ← expandBranches host expand context children .nothing
      return ([.element tag attrs children void], .nothing)

theorem expandBranches_cons_text (data : String) (raw : Bool) (ns : List Node) (pending : Pending) :
    expandBranches host expand context (.text data raw :: ns) pending =
      branchNode host expand context (.text data raw) pending >>= fun b =>
        expandBranches host expand context ns b.2 >>= fun rest =>
          pure (pending.released (.text data raw) ++ (b.1 ++ rest)) := by
  rw [branchNode]
  by_cases hblank : (Node.text data raw).isBlank = true
  · rw [if_pos hblank, pure_bind, released_eq_nil (.inl hblank)]
    cases pending with
    | nothing =>
      rw [expandBranches, if_pos hblank]
      rfl
    | expanded blanks =>
      rw [expandBranches, if_pos hblank]
      simp [Pending.hold]
  · rw [if_neg hblank, pure_bind, released_eq_blanks (by simpa using hblank) rfl,
      expandBranches.eq_def]
    simp only [if_neg hblank]
    rfl

theorem expandBranches_cons_element (tag : String) (attrs : Attributes) (children : List Node)
    (void : Bool) (ns : List Node) (pending : Pending) :
    expandBranches host expand context (.element tag attrs children void :: ns) pending =
      branchNode host expand context (.element tag attrs children void) pending >>= fun b =>
        expandBranches host expand context ns b.2 >>= fun rest =>
          pure (pending.released (.element tag attrs children void) ++ (b.1 ++ rest)) := by
  rw [branchNode]
  by_cases hif : tag = Directive.ifTag
  · have helse : tag ≠ Directive.elseTag := by rw [hif]; decide
    rw [if_pos hif, released_eq_blanks rfl (by simpa [hasTag] using helse),
      expandBranches.eq_def, condition]
    simp only [if_pos hif, bind_assoc]
    congr 1
    funext cond
    congr 1
    funext holds
    cases holds <;> simp
  rw [if_neg hif]
  by_cases helse : tag = Directive.elseTag
  · rw [if_pos helse, released_eq_nil (.inr (by simpa [hasTag] using helse)),
      expandBranches.eq_def]
    simp only [if_neg hif, if_pos helse]
    cases pending <;> simp [Pending.alternative]
  · rw [if_neg helse, released_eq_blanks rfl (by simpa [hasTag] using helse),
      expandBranches.eq_def]
    simp only [if_neg hif, if_neg helse, expandBranchesBelow]
    simp

/-- The pass over conditionals goes from node to node. -/
theorem expandBranches_cons (n : Node) (ns : List Node) (pending : Pending) :
    expandBranches host expand context (n :: ns) pending =
      branchNode host expand context n pending >>= fun b =>
        expandBranches host expand context ns b.2 >>= fun rest =>
          pure (pending.released n ++ (b.1 ++ rest)) := by
  cases n with
  | text data raw => exact expandBranches_cons_text host expand context data raw ns pending
  | comment data =>
    rw [branchNode, pure_bind, released_eq_blanks rfl rfl, expandBranches]
    rfl
  | fragment children =>
    rw [branchNode, released_eq_blanks rfl rfl, expandBranches, expandBranchesBelow]
    simp
  | element tag attrs children void =>
    exact expandBranches_cons_element host expand context tag attrs children void ns pending

variable {host expand context}

theorem gives_expandBranches_cons {n : Node} {ns nodes : List Node} {pending : Pending} :
    (expandBranches host expand context (n :: ns) pending).Gives nodes ↔
      ∃ b rest, (branchNode host expand context n pending).Gives b ∧
        (expandBranches host expand context ns b.2).Gives rest ∧
          nodes = pending.released n ++ (b.1 ++ rest) := by
  rw [expandBranches_cons]
  exact Evaluation.gives_bind_bind_pure

theorem eq_nil_of_gives_expandBranches {ns nodes : List Node}
    (h : (expandBranches host expand context ns .nothing).Gives nodes) (hns : ns = []) :
    nodes = [] := by
  rw [hns] at h
  exact (Evaluation.gives_pure.1 h).symm

theorem gives_branchNode_fragment {children : List Node} {pending : Pending}
    {b : List Node × Pending} :
    (branchNode host expand context (.fragment children) pending).Gives b ↔
      ∃ children', (expandBranches host expand context children .nothing).Gives children' ∧
        b = ([.fragment children'], .nothing) := by
  rw [branchNode, Evaluation.gives_bind]
  simp only [Evaluation.gives_pure, eq_comm]

variable {tag : String} {attrs : Attributes} {children : List Node} {void : Bool}
  {pending : Pending} {b : List Node × Pending}

theorem gives_branchNode_if (h : tag = Directive.ifTag) :
    (branchNode host expand context (.element tag attrs children void) pending).Gives b ↔
      ((condition host context tag attrs).Gives true ∧
        ∃ nodes, (expand context children).Gives nodes ∧ b = (nodes, .nothing)) ∨
      ((condition host context tag attrs).Gives false ∧ b = ([], .expanded [])) := by
  rw [branchNode, if_pos h]
  exact Evaluation.gives_bind_ite

theorem gives_branchNode_else (h : tag = Directive.elseTag) :
    (branchNode host expand context (.element tag attrs children void) pending).Gives b ↔
      ∃ nodes, (pending.alternative (expand context children)).Gives nodes ∧
        b = (nodes, .nothing) := by
  have hne : tag ≠ Directive.ifTag := by rw [h]; decide
  rw [branchNode, if_neg hne, if_pos h, Evaluation.gives_bind]
  simp only [Evaluation.gives_pure, eq_comm]

theorem gives_branchNode_element (hif : tag ≠ Directive.ifTag) (helse : tag ≠ Directive.elseTag) :
    (branchNode host expand context (.element tag attrs children void) pending).Gives b ↔
      ∃ children', (expandBranches host expand context children .nothing).Gives children' ∧
        b = ([.element tag attrs children' void], .nothing) := by
  rw [branchNode, if_neg hif, if_neg helse, Evaluation.gives_bind]
  simp only [Evaluation.gives_pure, eq_comm]

/-- What a node leaves for the next alternative. -/
theorem next_of_gives_branchNode {n : Node}
    (h : (branchNode host expand context n pending).Gives b) : Next host context pending n b.2 := by
  cases n with
  | text data raw =>
    rw [branchNode] at h
    rw [Next]
    split_ifs at h ⊢
    · rw [Evaluation.gives_pure.1 h]
    · rw [← Evaluation.gives_pure.1 h]
  | comment data => exact (Evaluation.gives_pure.1 h) ▸ rfl
  | fragment children =>
    obtain ⟨children', -, rfl⟩ := gives_branchNode_fragment.1 h
    rfl
  | element tag attrs children void =>
    rw [Next]
    by_cases hif : tag = Directive.ifTag
    · rw [if_pos hif]
      rcases (gives_branchNode_if hif).1 h with ⟨hcond, nodes, -, rfl⟩ | ⟨hcond, rfl⟩
      · exact .inl ⟨hcond, rfl⟩
      · exact .inr ⟨hcond, rfl⟩
    rw [if_neg hif]
    by_cases helse : tag = Directive.elseTag
    · obtain ⟨nodes, -, rfl⟩ := (gives_branchNode_else helse).1 h
      rfl
    · obtain ⟨children', -, rfl⟩ := (gives_branchNode_element hif helse).1 h
      rfl

end

/-! ### The pass leaves the filling as it was -/

section

variable {host : Host} {insert : Context → String → Evaluation (List Node)}
  {reached : Context → String → Prop} {expand : Expand} {context : Context} {alternative : Prop}
  {pending : Pending}

/-- There is no alternative where there are none. -/
theorem not_startsAlternative_of_reaches {tags : List String} (htags : Directive.elseTag ∈ tags)
    {ns : List Node}
    (h : ReachesWithout tags host reached ns context alternative) : ¬StartsAlternative ns := by
  induction ns generalizing alternative with
  | nil => exact id
  | cons n ns ih =>
    obtain ⟨hn, -, h⟩ := h
    rw [StartsAlternative]
    split
    · exact ih h
    · cases n with
      | element tag attrs children void =>
        rw [hasTag, beq_iff_eq]
        rintro rfl
        exact hn.lacks htags
      | text data raw => exact Bool.false_ne_true
      | comment data => exact Bool.false_ne_true
      | fragment children => exact Bool.false_ne_true

theorem settled_of_isBlank {data : String} {raw : Bool}
    (h : (Node.text data raw).isBlank = true) : Settled [.text data raw] := by
  rw [isBlank, Bool.and_eq_true, Bool.not_eq_true'] at h
  refine ⟨⟨h.1, ?_, trivial⟩, trivial, trivial⟩
  have hspace := List.all_eq_true.1 h.2
  exact Text.isolated_of_not_mem fun hm => absurd (hspace _ hm) (by decide)

theorem Next.settled_blanks {n : Node} {next : Pending} (h : Next host context pending n next)
    (hblanks : Settled pending.blanks) : Settled next.blanks := by
  cases n with
  | text data raw =>
    rw [Next] at h
    split_ifs at h with hblank
    · rw [h]
      cases pending with
      | nothing => trivial
      | expanded blanks => exact Settled.append hblanks (settled_of_isBlank hblank)
    · rw [h]
      trivial
  | comment data => exact h ▸ trivial
  | fragment children => exact h ▸ trivial
  | element tag attrs children void =>
    rw [Next] at h
    split_ifs at h
    · rcases h with ⟨-, rfl⟩ | ⟨-, rfl⟩ <;> trivial
    · rw [h]
      trivial

theorem templated_of_fillableWithout {n : Node} {ns : List Node}
    (h : FillableWithout [Directive.repeatTag] host context n) : Templated host context n ns := by
  refine ⟨h.toFillable, fun htag => ?_⟩
  cases n with
  | element tag attrs children void =>
    rw [hasTag, beq_iff_eq] at htag
    exact (h.lacks (htag ▸ List.mem_cons_self)).elim
  | text data raw => exact absurd htag Bool.false_ne_true
  | comment data => exact absurd htag Bool.false_ne_true
  | fragment children => exact absurd htag Bool.false_ne_true

/-- The tags of the directives that are left for the third pass are those of insertions. -/
def branchTags : List String := [Directive.repeatTag, Directive.ifTag, Directive.elseTag]

/-- A blank text stays where it is, or is held back. It has no placeholders. -/
theorem remainsNode_branchNode_text {data : String} {raw : Bool}
    (hn : Fillable host context (.text data raw)) {b : List Node × Pending}
    (hb : (branchNode host expand context (.text data raw) pending).Gives b) :
    RemainsNode branchTags host insert reached context
      (fillNode host insert (.text data raw) context pending) b.1 b.2 := by
  rw [branchNode] at hb
  by_cases hblank : (Node.text data raw).isBlank = true
  · rw [if_pos hblank, Evaluation.gives_pure] at hb
    have hsettled : Settled b.1 := by
      rw [← hb]
      cases pending with
      | nothing => exact settled_of_isBlank hblank
      | expanded blanks => trivial
    exact .of_settled (by decide) hsettled ((gives_fillNode_blank hblank).2 hb.symm) (.refl _)
  · rw [if_neg hblank, Evaluation.gives_pure] at hb
    subst hb
    rw [fillNode_of_pending (by simpa using hblank) rfl]
    exact remainsNode_text hn

variable {tag : String} {attrs : Attributes} {children : List Node} {void : Bool}
  {b : List Node × Pending}

/-- Of a conditional its body remains if its condition holds, and nothing otherwise. -/
theorem remainsNode_branchNode_if (hif : tag = Directive.ifTag)
    (hbody : (condition host context tag attrs).Gives true → ∀ r, (expand context children).Gives r →
      Settles (fillNodes host insert children context .nothing) r)
    (hb : (branchNode host expand context (.element tag attrs children void) pending).Gives b) :
    RemainsNode branchTags host insert reached context
      (fillNode host insert (.element tag attrs children void) context pending) b.1 b.2 := by
  rcases (gives_branchNode_if hif).1 hb with ⟨hcond, r, hr, rfl⟩ | ⟨hcond, rfl⟩
  · obtain ⟨hsettled, f, hf, halike⟩ := hbody hcond r hr
    exact .of_settled (by decide) hsettled
      ((gives_fillNode_if hif).2 (.inl ⟨hcond, f, hf, rfl⟩)) halike
  · exact .of_settled (by decide) trivial
      ((gives_fillNode_if hif).2 (.inr ⟨hcond, rfl⟩)) (.refl _)

/-- Of an alternative its body remains if its conditional was removed, and nothing otherwise. -/
theorem remainsNode_branchNode_else (helse : tag = Directive.elseTag)
    (hbody : pending.IsExpanded → ∀ r, (expand context children).Gives r →
      Settles (fillNodes host insert children context .nothing) r)
    (hb : (branchNode host expand context (.element tag attrs children void) pending).Gives b) :
    RemainsNode branchTags host insert reached context
      (fillNode host insert (.element tag attrs children void) context pending) b.1 b.2 := by
  obtain ⟨r, hr, rfl⟩ := (gives_branchNode_else helse).1 hb
  cases pending with
  | nothing =>
    obtain rfl := Evaluation.gives_pure.1 hr
    exact .of_settled (by decide) trivial
      ((gives_fillNode_else helse).2 ⟨[], Evaluation.gives_pure.2 rfl, rfl⟩) (.refl _)
  | expanded blanks =>
    obtain ⟨hsettled, f, hf, halike⟩ := hbody trivial r hr
    exact .of_settled (by decide) hsettled ((gives_fillNode_else helse).2 ⟨f, hf, rfl⟩) halike

/-- What the pass over conditionals makes of a node is filled like the node, if what it makes of the
    children is filled like the children. -/
theorem remainsNode_branchNode (hexpand : SoundExpand host insert reached expand) {n : Node}
    (hn : FillableWithout [Directive.repeatTag] host context n)
    (hbelow : ReachesBelow host reached
      (fun context n _ => FillableWithout [Directive.repeatTag] host context n) n context alternative)
    (hpending : pending.IsExpanded → alternative)
    (hchildren : ∀ children', ReachesWithout [Directive.repeatTag] host reached n.children context
        False → (expandBranches host expand context n.children .nothing).Gives children' →
      Remains branchTags host insert reached context
        (fillNodes host insert n.children context .nothing) children')
    (hb : (branchNode host expand context n pending).Gives b) :
    RemainsNode branchTags host insert reached context (fillNode host insert n context pending)
      b.1 b.2 := by
  have hbody : ∀ {children : List Node},
      ReachesWithout [Directive.repeatTag] host reached children context False →
        ∀ r, (expand context children).Gives r →
          Settles (fillNodes host insert children context .nothing) r := fun hreach r hr =>
    hexpand context _ r
      (hreach.imp (fun _ _ _ => templated_of_fillableWithout) (fun _ _ h => h) id) hr
  cases n with
  | text data raw => exact remainsNode_branchNode_text hn.toFillable hb
  | comment data => exact hn.plain.elim
  | fragment children =>
    obtain ⟨children', hchildren', rfl⟩ := gives_branchNode_fragment.1 hb
    rw [fillNode_of_pending rfl rfl]
    exact remainsNode_fragment (hchildren children' hbelow hchildren')
  | element tag attrs children void =>
    have hrepeat : tag ≠ Directive.repeatTag := fun h => hn.lacks (h ▸ List.mem_cons_self)
    by_cases hif : tag = Directive.ifTag
    · have hinsert : tag ≠ Directive.insertTag := by rw [hif]; decide
      rw [ReachesBelow, if_neg hrepeat, if_neg hinsert, Enters, if_pos hif] at hbelow
      exact remainsNode_branchNode_if hif (fun hcond => hbody (hbelow hcond)) hb
    by_cases helse : tag = Directive.elseTag
    · have hinsert : tag ≠ Directive.insertTag := by rw [helse]; decide
      rw [ReachesBelow, if_neg hrepeat, if_neg hinsert, Enters, if_neg hif, if_pos helse] at hbelow
      exact remainsNode_branchNode_else helse (fun h => hbody (hbelow (hpending h))) hb
    · obtain ⟨children', hchildren', rfl⟩ := (gives_branchNode_element hif helse).1 hb
      have hempty := eq_nil_of_gives_expandBranches hchildren'
      have hlacks : Lacks branchTags (.element tag attrs children' void) := by
        simpa [Lacks, branchTags] using ⟨hrepeat, hif, helse⟩
      rw [fillNode_of_pending rfl (by simpa [hasTag] using helse)]
      exact remainsNode_element hrepeat hif helse hn.toFillable hempty hlacks hbelow
        fun hreach => hchildren children' hreach hchildren'

theorem remains_expandBranches_cons (hexpand : SoundExpand host insert reached expand) {n : Node}
    {ns ns' : List Node}
    (h : ReachesWithout [Directive.repeatTag] host reached (n :: ns) context alternative)
    (hpending : pending.IsExpanded → alternative) (hblanks : Settled pending.blanks)
    (hchildren : ∀ children', ReachesWithout [Directive.repeatTag] host reached n.children context
        False → (expandBranches host expand context n.children .nothing).Gives children' →
      Remains branchTags host insert reached context
        (fillNodes host insert n.children context .nothing) children')
    (hrest : ∀ {ns' : List Node} {alternative : Prop} {pending : Pending},
      ReachesWithout [Directive.repeatTag] host reached ns context alternative →
        (pending.IsExpanded → alternative) → Settled pending.blanks →
          (expandBranches host expand context ns pending).Gives ns' →
            Remains branchTags host insert reached context
              (fillNodes host insert ns context pending) ns')
    (hns' : (expandBranches host expand context (n :: ns) pending).Gives ns') :
    Remains branchTags host insert reached context
      (fillNodes host insert (n :: ns) context pending) ns' := by
  obtain ⟨hn, hbelow, h⟩ := h
  obtain ⟨b, rest, hb, hrestb, rfl⟩ := gives_expandBranches_cons.1 hns'
  have hnext := next_of_gives_branchNode hb
  obtain ⟨hout, hreplaces⟩ := remainsNode_branchNode hexpand hn hbelow hpending hchildren hb
  have hremains := hrest h (hnext.leaves hpending) (hnext.settled_blanks hblanks) hrestb
  -- The pass leaves no alternatives, so the nodes that it leaves can be put behind each other.
  have htidy : ∀ {ns : List Node}, ReachesWithout branchTags host reached ns context False →
      ¬StartsAlternative ns := not_startsAlternative_of_reaches (by decide)
  have hall := hout.append (htidy hremains.reaches) hremains.reaches
  have hreleased := settled_released hblanks n
  exact ⟨(reaches_of_settled (by decide) hreleased).append (htidy hall) hall,
    hreplaces.refines_cons hblanks hremains.refines⟩

/-- The nodes with their conditionals and alternatives replaced are filled as before. -/
theorem remains_expandBranches (hexpand : SoundExpand host insert reached expand)
    {ns ns' : List Node} (h : ReachesWithout [Directive.repeatTag] host reached ns context alternative)
    (hpending : pending.IsExpanded → alternative) (hblanks : Settled pending.blanks)
    (hns' : (expandBranches host expand context ns pending).Gives ns') :
    Remains branchTags host insert reached context (fillNodes host insert ns context pending)
      ns' := by
  have hnil : Remains branchTags host insert reached context
      (fillNodes host insert [] context .nothing) [] := ⟨trivial, .refl _⟩
  induction ns using forest_induction generalizing ns' alternative pending with
  | nil =>
    -- What is still held back is put at the end.
    obtain rfl := Evaluation.gives_pure.1 hns'
    refine ⟨reaches_of_settled (by decide) hblanks, fun f hf => ⟨f, ?_, .refl f⟩⟩
    rw [gives_fillNodes_nil]
    exact hf.unique (gives_fillNodes_of_settled hblanks)
  | text data raw ns ih =>
    refine remains_expandBranches_cons hexpand h hpending hblanks ?_ ih hns'
    intro children' _ hchildren'
    obtain rfl := Evaluation.gives_pure.1 hchildren'
    exact hnil
  | comment data ns ih => exact h.1.plain.elim
  | fragment children ns ihc ih =>
    exact remains_expandBranches_cons hexpand h hpending hblanks
      (fun children' hreach => ihc hreach False.elim trivial) ih hns'
  | element tag attrs children void ns ihc ih =>
    exact remains_expandBranches_cons hexpand h hpending hblanks
      (fun children' hreach => ihc hreach False.elim trivial) ih hns'

end

end Stencil.Expansion
