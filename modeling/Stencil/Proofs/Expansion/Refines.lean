import Stencil.Proofs.Expansion.Settled

/-!
# Nodes that are filled as others are

A pass puts nodes in the place of others. The filling of the nodes before *refines* that of the nodes
behind the pass if it gives nodes whenever the other one does, and the same ones up to the normal
form. Each node may be looked at by itself: it is kept, with children that refine its children, or
settled nodes are put in its place, which are filled to themselves.

* `Refines.cons`: a node is kept;
* `Replaces.refines_cons`: other nodes are put in its place, behind what was held back;
* `RemainsNode.of_settled`, `remainsNode_element`: settled nodes are put in the place of a directive,
  and any other element stays with what remains of its children.
-/

namespace Stencil.Expansion

open Node

/-! ### Refinement node by node -/

section

variable {host : Host} {insert : Context → String → Evaluation (List Node)} {context : Context}
  {alternative : Prop} {pending : Pending}

/-- One filling gives nodes if another one does, and the same ones up to the normal form. -/
def Refines (x x' : Evaluation (List Node)) : Prop :=
  ∀ f', x'.Gives f' → ∃ f, x.Gives f ∧ Alike f f'

/-- One filling of a node gives nodes if another one does, and the same ones up to the normal form. -/
def RefinesNode (x x' : Evaluation (List Node × Pending)) : Prop :=
  ∀ filled, x'.Gives filled → ∃ nodes, x.Gives (nodes, filled.2) ∧ Alike nodes filled.1

theorem Refines.refl (x : Evaluation (List Node)) : Refines x x :=
  fun f h => ⟨f, h, .refl f⟩

theorem Refines.trans {x y z : Evaluation (List Node)} (hxy : Refines x y) (hyz : Refines y z) :
    Refines x z := by
  intro f' hf'
  obtain ⟨f, hf, halike⟩ := hyz f' hf'
  obtain ⟨g, hg, hgalike⟩ := hxy f hf
  exact ⟨g, hg, hgalike.trans halike⟩

theorem RefinesNode.refl (x : Evaluation (List Node × Pending)) : RefinesNode x x :=
  fun filled h => ⟨filled.1, h, .refl _⟩

theorem Refines.cons {n n' : Node} {ns ns' : List Node}
    (hn : RefinesNode (fillNode host insert n context pending)
      (fillNode host insert n' context pending))
    (hreleased : pending.released n = pending.released n')
    (hns : ∀ filled, (fillNode host insert n' context pending).Gives filled →
      Refines (fillNodes host insert ns context filled.2)
        (fillNodes host insert ns' context filled.2)) :
    Refines (fillNodes host insert (n :: ns) context pending)
      (fillNodes host insert (n' :: ns') context pending) := by
  intro f' hf'
  obtain ⟨filled, rest', hfilled, hrest', rfl⟩ := gives_fillNodes_cons.1 hf'
  obtain ⟨nodes, hnodes, halike⟩ := hn filled hfilled
  obtain ⟨rest, hrest, hrestalike⟩ := hns filled hfilled rest' hrest'
  refine ⟨_, gives_fillNodes_cons.2 ⟨(nodes, filled.2), rest, hnodes, hrest, rfl⟩, ?_⟩
  rw [hreleased]
  exact (Alike.refl _).append (halike.append hrestalike)

theorem refinesNode_fragment {children children' : List Node}
    (h : Refines (fillNodes host insert children context .nothing)
      (fillNodes host insert children' context .nothing)) :
    RefinesNode (fillNode host insert (.fragment children) context pending)
      (fillNode host insert (.fragment children') context pending) := by
  intro filled hfilled
  obtain ⟨nodes', hnodes', rfl⟩ := gives_fillNode_fragment.1 hfilled
  obtain ⟨nodes, hnodes, halike⟩ := h nodes' hnodes'
  exact ⟨_, gives_fillNode_fragment.2 ⟨nodes, hnodes, rfl⟩, alike_fragment halike⟩

/-- An element other than a repetition keeps what it is filled to if its children do, as far as they
    are filled at all. -/
theorem refinesNode_element {tag : String} (hrepeat : tag ≠ Directive.repeatTag)
    {attrs : Attributes} {children children' : List Node} {void : Bool}
    (hpending : pending.IsExpanded → alternative)
    (h : tag ≠ Directive.insertTag → Enters host context alternative tag attrs →
      Refines (fillNodes host insert children context .nothing)
        (fillNodes host insert children' context .nothing)) :
    RefinesNode (fillNode host insert (.element tag attrs children void) context pending)
      (fillNode host insert (.element tag attrs children' void) context pending) := by
  intro filled hfilled
  -- The children are filled under a condition that depends on the tag, and `Enters` says which: only
  -- where it holds is anything known of them.
  by_cases hif : tag = Directive.ifTag
  · have hinsert : tag ≠ Directive.insertTag := by rw [hif]; decide
    rw [Enters, if_pos hif] at h
    rcases (gives_fillNode_if hif).1 hfilled with ⟨hcond, nodes', hnodes', rfl⟩ | ⟨hcond, rfl⟩
    · obtain ⟨nodes, hnodes, halike⟩ := h hinsert hcond nodes' hnodes'
      exact ⟨_, (gives_fillNode_if hif).2 (.inl ⟨hcond, nodes, hnodes, rfl⟩), halike⟩
    · exact ⟨_, (gives_fillNode_if hif).2 (.inr ⟨hcond, rfl⟩), .refl _⟩
  rw [Enters, if_neg hif] at h
  by_cases helse : tag = Directive.elseTag
  · have hinsert : tag ≠ Directive.insertTag := by rw [helse]; decide
    rw [if_pos helse] at h
    obtain ⟨nodes', hnodes', rfl⟩ := (gives_fillNode_else helse).1 hfilled
    cases pending with
    | nothing =>
      -- The alternative is removed, whatever its children are.
      exact ⟨_, (gives_fillNode_else helse).2 ⟨nodes', hnodes', rfl⟩, .refl _⟩
    | expanded blanks =>
      obtain ⟨nodes, hnodes, halike⟩ := h hinsert (hpending trivial) nodes' hnodes'
      exact ⟨_, (gives_fillNode_else helse).2 ⟨nodes, hnodes, rfl⟩, halike⟩
  rw [if_neg helse] at h
  by_cases hinsert : tag = Directive.insertTag
  · -- What an insertion is filled to does not depend on its children.
    obtain ⟨id, nodes, hid, hnodes, rfl⟩ := (gives_fillNode_insert hinsert).1 hfilled
    exact ⟨_, (gives_fillNode_insert hinsert).2 ⟨id, nodes, hid, hnodes, rfl⟩, .refl _⟩
  have htag : tag ∉ Directive.tags := by
    simp only [Directive.tags, List.mem_cons, List.not_mem_nil, or_false, not_or]
    exact ⟨hrepeat, hif, helse, hinsert⟩
  obtain ⟨attrs', nodes', hattrs, hnodes', rfl⟩ := (gives_fillNode_element htag).1 hfilled
  obtain ⟨nodes, hnodes, halike⟩ := h hinsert trivial nodes' hnodes'
  exact ⟨_, (gives_fillNode_element htag).2 ⟨attrs', nodes, hattrs, hnodes, rfl⟩,
    alike_element tag attrs' halike void⟩

end

/-! ### Nodes in the place of a node -/

/-- Nodes are settled, and alike to what others are filled to. -/
def Settles (filling : Evaluation (List Node)) (r : List Node) : Prop :=
  Settled r ∧ ∃ f, filling.Gives f ∧ Alike f r

section

variable {host : Host} {insert : Context → String → Evaluation (List Node)} {context : Context}
  {pending : Pending}

theorem settled_released (h : Settled pending.blanks) (n : Node) : Settled (pending.released n) := by
  rw [Pending.released]
  split
  · trivial
  · exact h

/-- Nodes are filled like the node in whose place they stand, whatever comes behind them. -/
def Replaces (host : Host) (insert : Context → String → Evaluation (List Node)) (context : Context)
    (filling : Evaluation (List Node × Pending)) (out : List Node) (next : Pending) : Prop :=
  ∀ rest f, (fillNodes host insert (out ++ rest) context .nothing).Gives f →
    ∃ nodes o restf, filling.Gives (nodes, next) ∧ Alike nodes o ∧
      (fillNodes host insert rest context .nothing).Gives restf ∧ f = o ++ restf

theorem replaces_of_settled {filling : Evaluation (List Node × Pending)} {out nodes : List Node}
    {next : Pending} (hout : Settled out) (h : filling.Gives (nodes, next))
    (halike : Alike nodes out) : Replaces host insert context filling out next := by
  intro rest f hf
  obtain ⟨restf, hrestf, rfl⟩ := (gives_fillNodes_settled_append hout).1 hf
  exact ⟨nodes, out, restf, h, halike, hrestf, rfl⟩

theorem replaces_of_refinesNode {filling : Evaluation (List Node × Pending)} {n : Node}
    (hif : n.hasTag Directive.ifTag = false)
    (h : RefinesNode filling (fillNode host insert n context .nothing)) :
    Replaces host insert context filling [n] .nothing := by
  intro rest f hf
  obtain ⟨filled, restf, hfilled, hrestf, rfl⟩ := gives_fillNodes_cons.1 hf
  obtain ⟨nodes, hnodes, halike⟩ := h filled hfilled
  have hnext := (next_of_gives_fillNode hfilled).eq_nothing hif
  rw [hnext] at hnodes hrestf
  exact ⟨nodes, filled.1, restf, hnodes, halike, hrestf, by rw [released_nothing, List.nil_append]⟩

theorem Replaces.refines_cons {n : Node} {ns out ns' : List Node} {next : Pending}
    (hblanks : Settled pending.blanks)
    (hout : Replaces host insert context (fillNode host insert n context pending) out next)
    (hns : Refines (fillNodes host insert ns context next)
      (fillNodes host insert ns' context .nothing)) :
    Refines (fillNodes host insert (n :: ns) context pending)
      (fillNodes host insert (pending.released n ++ (out ++ ns')) context .nothing) := by
  intro f' hf'
  -- What was held back comes first. It is settled, so it is filled to itself and can be taken off.
  have hreleased := settled_released hblanks n
  obtain ⟨all, hall, rfl⟩ := (gives_fillNodes_settled_append hreleased).1 hf'
  obtain ⟨nodes, o, restf', hnodes, halike, hrestf', rfl⟩ := hout ns' all hall
  obtain ⟨restf, hrestf, hrestalike⟩ := hns restf' hrestf'
  exact ⟨_, gives_fillNodes_cons.2 ⟨(nodes, next), restf, hnodes, hrestf, rfl⟩,
    (Alike.refl _).append (halike.append hrestalike)⟩

/-- What a pass leaves: nodes without the given tags that are filled as others are. -/
structure Remains (tags : List String) (host : Host)
    (insert : Context → String → Evaluation (List Node)) (reached : Context → String → Prop)
    (context : Context) (filling : Evaluation (List Node)) (ns' : List Node) : Prop where
  reaches : ReachesWithout tags host reached ns' context False
  refines : Refines filling (fillNodes host insert ns' context .nothing)

/-- What a pass leaves of one node: nodes without the given tags that are filled as the node is. -/
structure RemainsNode (tags : List String) (host : Host)
    (insert : Context → String → Evaluation (List Node)) (reached : Context → String → Prop)
    (context : Context) (filling : Evaluation (List Node × Pending)) (out : List Node)
    (next : Pending) : Prop where
  reaches : ReachesWithout tags host reached out context False
  replaces : Replaces host insert context filling out next

end

/-! ### What remains of a node -/

section

variable {tags : List String} {host : Host} {insert : Context → String → Evaluation (List Node)}
  {reached : Context → String → Prop} {context : Context}

/-- Settled nodes remain of a directive, if it is filled to what is alike. -/
theorem RemainsNode.of_settled (htags : ∀ tag ∈ tags, tag ∈ Directive.tags)
    {filling : Evaluation (List Node × Pending)} {out nodes : List Node} {next : Pending}
    (hout : Settled out) (h : filling.Gives (nodes, next)) (halike : Alike nodes out) :
    RemainsNode tags host insert reached context filling out next :=
  ⟨reaches_of_settled htags hout, replaces_of_settled hout h halike⟩

theorem remainsNode_text {data : String} {raw : Bool}
    (h : Fillable host context (.text data raw)) :
    RemainsNode tags host insert reached context
      (fillNode host insert (.text data raw) context .nothing) [.text data raw] .nothing :=
  ⟨⟨⟨h, trivial⟩, trivial, trivial⟩, replaces_of_refinesNode rfl (.refl _)⟩

theorem remainsNode_fragment {children children' : List Node}
    (h : Remains tags host insert reached context (fillNodes host insert children context .nothing)
      children') :
    RemainsNode tags host insert reached context
      (fillNode host insert (.fragment children) context .nothing) [.fragment children'] .nothing :=
  ⟨⟨⟨fillable_fragment children', trivial⟩, h.reaches, trivial⟩,
    replaces_of_refinesNode rfl (refinesNode_fragment h.refines)⟩

/-- An element that is neither repeated nor conditional stays, with what remains of its children. The
    children of an insertion are never filled, and nothing has to be known of them. -/
theorem remainsNode_element {P : Context → Node → List Node → Prop} {alternative : Prop}
    {tag : String} {attrs : Attributes} {children children' : List Node} {void : Bool}
    (hrepeat : tag ≠ Directive.repeatTag) (hif : tag ≠ Directive.ifTag)
    (helse : tag ≠ Directive.elseTag)
    (hn : Fillable host context (.element tag attrs children void))
    (hempty : children = [] → children' = [])
    (hlacks : Lacks tags (.element tag attrs children' void))
    (hbelow : ReachesBelow host reached P (.element tag attrs children void) context alternative)
    (hchildren : Reaches host reached P children context False →
      Remains tags host insert reached context (fillNodes host insert children context .nothing)
        children') :
    RemainsNode tags host insert reached context
      (fillNode host insert (.element tag attrs children void) context .nothing)
      [.element tag attrs children' void] .nothing := by
  rw [ReachesBelow, if_neg hrepeat, Enters, if_neg hif, if_neg helse] at hbelow
  refine ⟨⟨⟨hn.of_children hempty, hlacks⟩, ?_, trivial⟩,
    replaces_of_refinesNode (by simpa [hasTag] using hif) ?_⟩
  · rw [ReachesBelow, if_neg hrepeat]
    split_ifs at hbelow ⊢
    · exact hbelow
    · exact fun _ => (hchildren (hbelow trivial)).reaches
  · have hpending : Pending.nothing.IsExpanded → False := id
    refine refinesNode_element hrepeat hpending fun hinsert _ => ?_
    rw [if_neg hinsert] at hbelow
    exact (hchildren (hbelow trivial)).refines

end

end Stencil.Expansion
