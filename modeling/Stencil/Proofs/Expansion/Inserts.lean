import Stencil.Proofs.Expansion.Branches

/-!
# The pass over insertions

An insertion is replaced by the expanded template of its name. When this pass starts there are no
other directives left on the way of the filling, so everything in the tree is reached: the nodes that
the pass leaves are fillable, wherever they stand, and have no directives.

* `remains_expandInserts`: the nodes that the pass leaves are filled as the nodes before it;
* `everywhere_of_reaches`: without directives, filling comes to all nodes.
-/

namespace Stencil.Expansion

open Node

/-! ### The pass node by node -/

section

variable {insertExpand : String → Evaluation (List Node)}

theorem gives_expandInserts_cons {n : Node} {ns nodes : List Node} :
    (expandInserts insertExpand (n :: ns)).Gives nodes ↔
      ∃ a b, (expandInsertsAt insertExpand n).Gives a ∧ (expandInserts insertExpand ns).Gives b ∧
        nodes = a ++ b := by
  rw [expandInserts]
  exact Evaluation.gives_bind_bind_pure

theorem eq_nil_of_gives_expandInserts {ns nodes : List Node}
    (h : (expandInserts insertExpand ns).Gives nodes) (hns : ns = []) : nodes = [] := by
  rw [hns] at h
  exact (Evaluation.gives_pure.1 h).symm

theorem gives_expandInsertsAt_fragment {children nodes : List Node} :
    (expandInsertsAt insertExpand (.fragment children)).Gives nodes ↔
      ∃ children', (expandInserts insertExpand children).Gives children' ∧
        nodes = [.fragment children'] := by
  rw [expandInsertsAt, Evaluation.gives_bind]
  simp only [Evaluation.gives_pure, eq_comm]

variable {tag : String} {attrs : Attributes} {children nodes : List Node} {void : Bool}

theorem gives_expandInsertsAt_insert (h : tag = Directive.insertTag) :
    (expandInsertsAt insertExpand (.element tag attrs children void)).Gives nodes ↔
      ∃ id, (insertion tag attrs).Gives id ∧ (insertExpand id).Gives nodes := by
  rw [expandInsertsAt, if_pos h, Evaluation.gives_bind]
  rfl

theorem gives_expandInsertsAt_element (h : tag ≠ Directive.insertTag) :
    (expandInsertsAt insertExpand (.element tag attrs children void)).Gives nodes ↔
      ∃ children', (expandInserts insertExpand children).Gives children' ∧
        nodes = [.element tag attrs children' void] := by
  rw [expandInsertsAt, if_neg h, Evaluation.gives_bind]
  simp only [Evaluation.gives_pure, eq_comm]

end

/-! ### The pass leaves the filling as it was -/

section

variable {host : Host} {insert : Context → String → Evaluation (List Node)}
  {reached : Context → String → Prop} {insertExpand : String → Evaluation (List Node)}
  {context : Context} {alternative : Prop} {pending : Pending}

/-- What the pass over insertions makes of a node is filled like the node, if what it makes of the
    children is filled like the children. -/
theorem remainsNode_expandInsertsAt
    (hinsert : ∀ id r, reached context id → (insertExpand id).Gives r → Settles (insert context id) r)
    {n : Node} (hn : FillableWithout branchTags host context n)
    (hbelow : ReachesBelow host reached (fun context n _ => FillableWithout branchTags host context n)
      n context alternative)
    (hchildren : ∀ children', ReachesWithout branchTags host reached n.children context False →
      (expandInserts insertExpand n.children).Gives children' →
        Remains Directive.tags host insert reached context
          (fillNodes host insert n.children context .nothing) children')
    {out : List Node} (hout : (expandInsertsAt insertExpand n).Gives out) :
    RemainsNode Directive.tags host insert reached context
      (fillNode host insert n context .nothing) out .nothing := by
  cases n with
  | text data raw =>
    obtain rfl := Evaluation.gives_pure.1 hout
    exact remainsNode_text hn.toFillable
  | comment data => exact hn.plain.elim
  | fragment children =>
    obtain ⟨children', hchildren', rfl⟩ := gives_expandInsertsAt_fragment.1 hout
    exact remainsNode_fragment (hchildren children' hbelow hchildren')
  | element tag attrs children void =>
    obtain ⟨hrepeat, hif, helse⟩ :
        tag ≠ Directive.repeatTag ∧ tag ≠ Directive.ifTag ∧ tag ≠ Directive.elseTag := by
      simpa [Lacks, branchTags] using hn.lacks
    by_cases hins : tag = Directive.insertTag
    · rw [ReachesBelow, if_neg hrepeat, if_pos hins] at hbelow
      obtain ⟨id, hid, hr⟩ := (gives_expandInsertsAt_insert hins).1 hout
      obtain ⟨hsettled, f, hf, halike⟩ := hinsert id out (hbelow id hid) hr
      exact .of_settled (fun _ h => h) hsettled
        ((gives_fillNode_insert hins).2 ⟨id, f, hid, hf, rfl⟩) halike
    · obtain ⟨children', hchildren', rfl⟩ := (gives_expandInsertsAt_element hins).1 hout
      have hempty := eq_nil_of_gives_expandInserts hchildren'
      have hlacks : Lacks Directive.tags (.element tag attrs children' void) := by
        simpa [Lacks, Directive.tags] using ⟨hrepeat, hif, helse, hins⟩
      exact remainsNode_element hrepeat hif helse hn.toFillable hempty hlacks hbelow
        fun hreach => hchildren children' hreach hchildren'

theorem remains_expandInserts_cons
    (hinsert : ∀ id r, reached context id → (insertExpand id).Gives r → Settles (insert context id) r)
    {n : Node} {ns ns' : List Node}
    (h : ReachesWithout branchTags host reached (n :: ns) context alternative)
    (hchildren : ∀ children', ReachesWithout branchTags host reached n.children context False →
      (expandInserts insertExpand n.children).Gives children' →
        Remains Directive.tags host insert reached context
          (fillNodes host insert n.children context .nothing) children')
    (hrest : ∀ {ns' : List Node} {alternative : Prop},
      ReachesWithout branchTags host reached ns context alternative →
        (expandInserts insertExpand ns).Gives ns' →
          Remains Directive.tags host insert reached context
            (fillNodes host insert ns context .nothing) ns')
    (hns' : (expandInserts insertExpand (n :: ns)).Gives ns') :
    Remains Directive.tags host insert reached context
      (fillNodes host insert (n :: ns) context .nothing) ns' := by
  obtain ⟨hn, hbelow, h⟩ := h
  obtain ⟨out, rest, hout, hrest', rfl⟩ := gives_expandInserts_cons.1 hns'
  obtain ⟨hreach, hreplaces⟩ := remainsNode_expandInsertsAt hinsert hn hbelow hchildren hout
  have hremains := hrest h hrest'
  have htidy : ¬StartsAlternative rest := not_startsAlternative_of_reaches (by decide) hremains.reaches
  have hblanks : Settled Pending.nothing.blanks := trivial
  have := hreplaces.refines_cons hblanks hremains.refines
  rw [released_nothing, List.nil_append] at this
  exact ⟨hreach.append htidy hremains.reaches, this⟩

/-- The nodes with their insertions replaced are filled as before. -/
theorem remains_expandInserts
    (hinsert : ∀ id r, reached context id → (insertExpand id).Gives r → Settles (insert context id) r)
    {ns ns' : List Node} (h : ReachesWithout branchTags host reached ns context alternative)
    (hns' : (expandInserts insertExpand ns).Gives ns') :
    Remains Directive.tags host insert reached context (fillNodes host insert ns context .nothing)
      ns' := by
  have hnil : ∀ {nodes : List Node}, (expandInserts insertExpand []).Gives nodes →
      Remains Directive.tags host insert reached context
        (fillNodes host insert [] context .nothing) nodes := by
    intro nodes hnodes
    obtain rfl := Evaluation.gives_pure.1 hnodes
    exact ⟨trivial, .refl _⟩
  induction ns using forest_induction generalizing ns' alternative with
  | nil => exact hnil hns'
  | text data raw ns ih =>
    exact remains_expandInserts_cons hinsert h (fun children' _ hchildren' => hnil hchildren') ih hns'
  | comment data ns ih => exact h.1.plain.elim
  | fragment children ns ihc ih =>
    exact remains_expandInserts_cons hinsert h (fun children' hreach => ihc hreach) ih hns'
  | element tag attrs children void ns ihc ih =>
    exact remains_expandInserts_cons hinsert h (fun children' hreach => ihc hreach) ih hns'

end

/-- Without directives, filling comes to all nodes. -/
theorem everywhere_of_reaches {host : Host} {reached : Context → String → Prop} {context : Context}
    {alternative : Prop} {ns : List Node}
    (h : ReachesWithout Directive.tags host reached ns context alternative) :
    Everywhere (fun n _ => FillableWithout Directive.tags host context n) ns := by
  induction ns using forest_induction generalizing alternative with
  | nil => trivial
  | text data raw ns ih => exact ⟨h.1, trivial, ih h.2.2⟩
  | comment data ns ih => exact h.1.plain.elim
  | fragment children ns ihc ih => exact ⟨h.1, ihc h.2.1, ih h.2.2⟩
  | element tag attrs children void ns ihc ih =>
    obtain ⟨hn, hbelow, h⟩ := h
    refine ⟨hn, ?_, ih h⟩
    obtain ⟨hrepeat, hif, helse, hinsert⟩ : tag ≠ Directive.repeatTag ∧ tag ≠ Directive.ifTag ∧
        tag ≠ Directive.elseTag ∧ tag ≠ Directive.insertTag := by
      simpa [Lacks, Directive.tags] using hn.lacks
    rw [ReachesBelow, if_neg hrepeat, if_neg hinsert, Enters, if_neg hif, if_neg helse] at hbelow
    exact ihc (hbelow trivial)

end Stencil.Expansion
