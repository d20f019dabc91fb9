import Stencil.Proofs.Expansion.Nesting
import Stencil.Proofs.Issue

/-!
# Alternatives that are never rendered

The check of a template warns of an *orphan*: an alternative that follows no conditional, blank texts
apart. The pass over conditionals removes it unseen, so a template expands to the same without it, and
without its orphans nothing is left to warn of (`expand_prune`).

The check looks at the template as it is written, but the pass over conditionals at what the pass over
repetitions has left of it. Behind a repetition the two differ: a repetition over nothing leaves no
node, and the orphan behind it then follows what stands before the repetition, which may be a
conditional (`gives_expand_orphan`). So the orphans behind a repetition stay.

What the passes keep is `Thinned`: of two lists of nodes the second lacks some alternatives of the
first, each in a place where nothing is left for an alternative, whatever the values are.

* `thinned_expandRepeats`, `extends_expandBranches`: what the first two passes make of thinned nodes;
* `thinned_prune`: a template is thinned if it loses its orphans;
* `notWarned_prune`, `prune_of_notWarned`: the orphans are what the check warns of.
-/

namespace Stencil

namespace Issue

open Node

/-- An alternative that follows no conditional, given the last node before it that is not a blank
    text. -/
def isOrphan (previous : Option Node) (n : Node) : Bool :=
  n.hasTag Directive.elseTag && !previous.any (hasTag Directive.ifTag)

/-- The check of siblings warns of every orphan. -/
theorem ofAlternatives_cons (previous : Option Node) (n : Node) (ns : List Node) :
    ofAlternatives previous (n :: ns) =
      if n.isBlank then ofAlternatives previous ns
      else (if isOrphan previous n then
          [⟨.warning, Directive.elseTag, "Not preceded by an <if>; it will never render"⟩]
        else []) ++ ofAlternatives (some n) ns :=
  rfl

/-- The check of a template warns of none of its alternatives, whatever the registry is. -/
def NotWarned (template : Node) : Prop :=
  ∀ registry, ∀ issue ∈ ofTemplate registry template, issue.tag ≠ Directive.elseTag

/-- Of alternatives only the check of siblings warns. -/
theorem notWarned_iff {template : Node} :
    NotWarned template ↔
      ∀ siblings ∈ template.content :: (elementsOf template.content).map children,
        ofAlternatives none siblings = [] := by
  constructor
  · intro h siblings hsiblings
    refine List.eq_nil_iff_forall_not_mem.2 fun issue hissue => ?_
    have helse := tag_of_mem_ofAlternatives hissue
    exact h none issue ((mem_ofTemplate_iff_of_elseTag helse).2 ⟨siblings, hsiblings, hissue⟩) helse
  · intro h registry issue hissue helse
    obtain ⟨siblings, hsiblings, hissue⟩ := (mem_ofTemplate_iff_of_elseTag helse).1 hissue
    rw [h siblings hsiblings] at hissue
    exact List.not_mem_nil hissue

end Issue

namespace Expansion

open Node

/-- An orphan that does not follow a repetition either. -/
def isNeverRendered (previous : Option Node) (n : Node) : Bool :=
  Issue.isOrphan previous n && !previous.any (hasTag Directive.repeatTag)

mutual

/-- The node without the orphans below it. -/
def pruneBelow : Node → Node
  | .element tag attrs children void => .element tag attrs (prune true none children) void
  -- what stands directly in a fragment is not checked
  | .fragment children => .fragment (prune false none children)
  | .text data raw => .text data raw
  | .comment data => .comment data
termination_by structural n => n

/-- The nodes without the orphans below them and, if they are `checked`, without those among them that
    follow no repetition, given the last node before them that is not a blank text. -/
def prune (checked : Bool) (previous : Option Node) : List Node → List Node
  | [] => []
  | n :: ns =>
    if n.isBlank then n :: prune checked previous ns
    else if checked && isNeverRendered previous n then prune checked (some n) ns
    else pruneBelow n :: prune checked (some n) ns
termination_by structural ns => ns

end

/-- Whether nothing is left for an alternative behind a node, given whether something may be left
    before it: only a conditional leaves something, and what is before a repetition over nothing. -/
def closes (closed : Bool) (n : Node) : Bool :=
  if n.isBlank then closed else !(n.hasTag Directive.ifTag || n.hasTag Directive.repeatTag)

/-- Nodes without some of their alternatives, each in a place where nothing is left for it. Before the
    nodes nothing is left for an alternative if they stand in a `closed` place. -/
inductive Thinned : (closed : Bool) → List Node → List Node → Prop where
  | nil (closed : Bool) : Thinned closed [] []
  | drop {attrs : Attributes} {children ns ms : List Node} {void : Bool} : Thinned true ns ms →
      Thinned true (.element Directive.elseTag attrs children void :: ns) ms
  | text {closed : Bool} {data : String} {raw : Bool} {ns ms : List Node} :
      Thinned (closes closed (.text data raw)) ns ms →
      Thinned closed (.text data raw :: ns) (.text data raw :: ms)
  | comment {closed : Bool} {data : String} {ns ms : List Node} : Thinned true ns ms →
      Thinned closed (.comment data :: ns) (.comment data :: ms)
  | element {closed : Bool} {tag : String} {attrs : Attributes} {children children' ns ms : List Node}
      {void : Bool} : Thinned true children children' →
      Thinned (closes closed (.element tag attrs children void)) ns ms →
      Thinned closed (.element tag attrs children void :: ns) (.element tag attrs children' void :: ms)
  | fragment {closed : Bool} {children children' ns ms : List Node} : Thinned true children children' →
      Thinned true ns ms → Thinned closed (.fragment children :: ns) (.fragment children' :: ms)

/-! ### Thinned nodes -/

theorem closes_mono {closed closed' : Bool} (h : closed = true → closed' = true) (n : Node)
    (hn : closes closed n = true) : closes closed' n = true := by
  rw [closes] at hn ⊢
  split_ifs at hn ⊢
  · exact h hn
  · exact hn

/-- What may be lacking in a place may be lacking in a place where less is left before it. -/
theorem Thinned.mono {closed closed' : Bool} {ns ms : List Node} (h : Thinned closed ns ms)
    (hclosed : closed = true → closed' = true) : Thinned closed' ns ms := by
  induction h generalizing closed' with
  | nil => exact .nil closed'
  | drop h ih =>
    obtain rfl := hclosed rfl
    exact .drop h
  | text h ih => exact .text (ih (closes_mono hclosed _))
  | comment h ih => exact .comment h
  | element hchildren h _ ih => exact .element hchildren (ih (closes_mono hclosed _))
  | fragment hchildren h => exact .fragment hchildren h

theorem Thinned.refl (closed : Bool) (ns : List Node) : Thinned closed ns ns := by
  induction ns using forest_induction generalizing closed with
  | nil => exact .nil closed
  | text data raw ns ih => exact .text (ih _)
  | comment data ns ih => exact .comment (ih true)
  | element tag attrs children void ns ihc ih => exact .element (ihc true) (ih _)
  | fragment children ns ihc ih => exact .fragment (ihc true) (ih true)

/-- Thinned nodes may stand behind any others if something may be left before them. -/
theorem Thinned.append_left {ns ms : List Node} (h : Thinned false ns ms) (closed : Bool)
    (as : List Node) : Thinned closed (as ++ ns) (as ++ ms) := by
  induction as generalizing closed with
  | nil => exact h.mono nofun
  | cons a as ih =>
    cases a with
    | text data raw => exact .text (ih _)
    | comment data => exact .comment (ih true)
    | element tag attrs children void => exact .element (.refl true children) (ih _)
    | fragment children => exact .fragment (.refl true children) (ih true)

theorem isNeverRendered_of_not_else {n : Node} (h : n.hasTag Directive.elseTag = false)
    (previous : Option Node) : isNeverRendered previous n = false := by
  rw [isNeverRendered, Issue.isOrphan, h]
  rfl

theorem prune_cons {checked : Bool} {previous : Option Node} {n : Node} (hblank : n.isBlank = false)
    (h : (checked && isNeverRendered previous n) = false) (ns : List Node) :
    prune checked previous (n :: ns) = pruneBelow n :: prune checked (some n) ns := by
  rw [prune, hblank, h]
  rfl

/-- What is no alternative stays. -/
theorem prune_cons_of_not_else {n : Node} (hblank : n.isBlank = false)
    (helse : n.hasTag Directive.elseTag = false) (checked : Bool) (previous : Option Node)
    (ns : List Node) :
    prune checked previous (n :: ns) = pruneBelow n :: prune checked (some n) ns :=
  prune_cons hblank (by rw [isNeverRendered_of_not_else helse, Bool.and_false]) ns

/-- A template is thinned if it loses its orphans. -/
theorem thinned_prune (checked : Bool) {closed : Bool} {previous : Option Node} {ns : List Node}
    (hclosed : previous.any (hasTag Directive.ifTag) = false →
      previous.any (hasTag Directive.repeatTag) = false → closed = true) :
    Thinned closed ns (prune checked previous ns) := by
  -- What is behind a node that is no blank text only depends on this node.
  have hnext : ∀ {closed : Bool} {n : Node}, n.isBlank = false →
      (some n).any (hasTag Directive.ifTag) = false →
      (some n).any (hasTag Directive.repeatTag) = false → closes closed n = true := by
    intro closed n hblank hif hrepeat
    rw [Option.any_some] at hif hrepeat
    rw [closes, hblank, hif, hrepeat]
    rfl
  induction ns using forest_induction generalizing checked closed previous with
  | nil => exact .nil closed
  | text data raw ns ih =>
    by_cases hblank : (Node.text data raw).isBlank = true
    · rw [prune, if_pos hblank]
      refine .text (ih checked fun hif hrepeat => ?_)
      rw [closes, if_pos hblank]
      exact hclosed hif hrepeat
    · rw [Bool.not_eq_true] at hblank
      rw [prune_cons_of_not_else hblank rfl]
      exact .text (ih checked (hnext hblank))
  | comment data ns ih =>
    rw [prune_cons_of_not_else rfl rfl]
    exact .comment (ih checked fun _ _ => rfl)
  | fragment children ns ihc ih =>
    rw [prune_cons_of_not_else rfl rfl]
    exact .fragment (ihc false fun _ _ => rfl) (ih checked fun _ _ => rfl)
  | element tag attrs children void ns ihc ih =>
    cases hremoved : checked && isNeverRendered previous (.element tag attrs children void) with
    | true =>
      -- Only an alternative is removed, and only where the place is closed.
      rw [prune, if_neg Bool.noConfusion, if_pos hremoved]
      simp only [isNeverRendered, Issue.isOrphan, hasTag, Bool.and_eq_true, beq_iff_eq,
        Bool.not_eq_true'] at hremoved
      obtain ⟨-, ⟨rfl, hif⟩, hrepeat⟩ := hremoved
      obtain rfl := hclosed hif hrepeat
      exact .drop (ih checked fun _ _ => rfl)
    | false =>
      rw [prune_cons rfl hremoved]
      exact .element (ihc true fun _ _ => rfl) (ih checked (hnext rfl))

/-! ### What the check warns of -/

/-- No alternative follows a repetition. -/
def IsTidy (n : Node) (ns : List Node) : Prop :=
  n.hasTag Directive.repeatTag = true → ¬StartsAlternative ns

theorem tag_unique {n : Node} {tag tag' : String} (h : n.hasTag tag = true)
    (h' : n.hasTag tag' = true) : tag = tag' := by
  cases n with
  | element t attrs children void => exact (beq_iff_eq.1 h).symm.trans (beq_iff_eq.1 h')
  | _ => cases h

theorem hasTag_pruneBelow (tag : String) (n : Node) : (pruneBelow n).hasTag tag = n.hasTag tag := by
  cases n <;> rfl

theorem isBlank_pruneBelow (n : Node) : (pruneBelow n).isBlank = n.isBlank := by
  cases n <;> rfl

/-- Among siblings there are no orphans left, if none of them follows a repetition. -/
theorem ofAlternatives_prune {p q : Option Node} {ns : List Node}
    (hif : p.any (hasTag Directive.ifTag) = true → q.any (hasTag Directive.ifTag) = true)
    (hrepeat : p.any (hasTag Directive.repeatTag) = true → ¬StartsAlternative ns)
    (h : Everywhere IsTidy ns) : Issue.ofAlternatives q (prune true p ns) = [] := by
  -- A node that is removed is the last one only before the pruning, so the last nodes differ.
  induction ns generalizing p q with
  | nil => rfl
  | cons n ns ih =>
    obtain ⟨hn, -, hns⟩ := h
    rw [StartsAlternative] at hrepeat
    by_cases hblank : n.isBlank = true
    · rw [prune, if_pos hblank, Issue.ofAlternatives_cons, if_pos hblank]
      rw [if_pos hblank] at hrepeat
      exact ih hif hrepeat hns
    rw [if_neg hblank] at hrepeat
    cases hremoved : isNeverRendered p n with
    | true =>
      rw [prune, if_neg hblank, if_pos (by rw [hremoved]; rfl)]
      rw [isNeverRendered, Issue.isOrphan, Bool.and_eq_true, Bool.and_eq_true] at hremoved
      obtain ⟨⟨helse, -⟩, -⟩ := hremoved
      exact ih (fun hif => absurd (tag_unique helse hif) (by decide))
        (fun hrepeat => absurd (tag_unique helse hrepeat) (by decide)) hns
    | false =>
      have horphan : Issue.isOrphan q (pruneBelow n) = false := by
        rw [isNeverRendered, Issue.isOrphan] at hremoved
        rw [Issue.isOrphan, hasTag_pruneBelow]
        cases helse : n.hasTag Directive.elseTag with
        | false => rfl
        | true =>
          rw [helse] at hremoved hrepeat
          cases hp : p.any (hasTag Directive.ifTag) with
          | true => rw [hif hp]; rfl
          | false =>
            rw [hp] at hremoved
            exact absurd rfl (hrepeat (by simpa using hremoved))
      rw [prune_cons (by simpa using hblank) (by rw [hremoved]; rfl), Issue.ofAlternatives_cons,
        isBlank_pruneBelow, if_neg hblank, horphan, if_neg Bool.false_ne_true, List.nil_append]
      refine ih (fun h => ?_) hn hns
      rwa [Option.any_some, hasTag_pruneBelow]

theorem ofAlternatives_of_mem_elementsOf {checked : Bool} {previous : Option Node} {ns : List Node}
    (h : Everywhere IsTidy ns) {e : Node} (he : e ∈ elementsOf (prune checked previous ns)) :
    Issue.ofAlternatives none e.children = [] := by
  induction ns using forest_induction generalizing checked previous with
  | nil => exact absurd he List.not_mem_nil
  | text data raw ns ih =>
    by_cases hblank : (Node.text data raw).isBlank = true
    · rw [prune, if_pos hblank] at he
      exact ih h.2.2 he
    · rw [Bool.not_eq_true] at hblank
      rw [prune_cons_of_not_else hblank rfl] at he
      exact ih h.2.2 he
  | comment data ns ih =>
    rw [prune_cons_of_not_else rfl rfl] at he
    exact ih h.2.2 he
  | fragment children ns ihc ih =>
    rw [prune_cons_of_not_else rfl rfl, elementsOf] at he
    rcases List.mem_append.1 he with he | he
    · exact ihc h.2.1 he
    · exact ih h.2.2 he
  | element tag attrs children void ns ihc ih =>
    cases hremoved : checked && isNeverRendered previous (.element tag attrs children void) with
    | true =>
      rw [prune, if_neg Bool.noConfusion, if_pos hremoved] at he
      exact ih h.2.2 he
    | false =>
      rw [prune_cons rfl hremoved, elementsOf, pruneBelow, elements] at he
      rcases List.mem_append.1 he with he | he
      · rcases List.mem_cons.1 he with rfl | he
        · exact ofAlternatives_prune id (fun hnone => Bool.noConfusion hnone) h.2.1
        · exact ihc h.2.1 he
      · exact ih h.2.2 he

/-- The check warns of no alternative in a template that has lost its orphans, if none of them followed a
    repetition. -/
theorem notWarned_prune {ns : List Node} (h : Everywhere IsTidy ns) :
    Issue.NotWarned (.fragment (prune true none ns)) := by
  refine Issue.notWarned_iff.2 (List.forall_mem_cons.2
    ⟨ofAlternatives_prune id (fun hnone => Bool.noConfusion hnone) h, fun siblings hsiblings => ?_⟩)
  obtain ⟨e, he, rfl⟩ := List.mem_map.1 hsiblings
  exact ofAlternatives_of_mem_elementsOf h he

/-- A node stays if the check does not warn of it. -/
theorem not_removed_of_ofAlternatives {checked : Bool} {previous : Option Node} {n : Node}
    {ns : List Node} (hblank : n.isBlank = false)
    (h : checked = true → Issue.ofAlternatives previous (n :: ns) = []) :
    (checked && isNeverRendered previous n) = false ∧
      (checked = true → Issue.ofAlternatives (some n) ns = []) := by
  rw [Issue.ofAlternatives_cons, hblank, if_neg Bool.false_ne_true] at h
  refine ⟨?_, fun hchecked => (List.append_eq_nil_iff.1 (h hchecked)).2⟩
  cases checked with
  | false => rfl
  | true =>
    have horphan : Issue.isOrphan previous n = false := by
      by_contra hne
      rw [Bool.not_eq_false] at hne
      have hwarned := (List.append_eq_nil_iff.1 (h rfl)).1
      rw [if_pos hne] at hwarned
      exact List.cons_ne_nil _ _ hwarned
    rw [isNeverRendered, horphan]
    rfl

/-- Nodes stay as they are if the check warns of no alternative among them. -/
theorem prune_eq_self {checked : Bool} {previous : Option Node} {ns : List Node}
    (hsiblings : checked = true → Issue.ofAlternatives previous ns = [])
    (h : ∀ e ∈ elementsOf ns, Issue.ofAlternatives none e.children = []) :
    prune checked previous ns = ns := by
  induction ns using forest_induction generalizing checked previous with
  | nil => rfl
  | text data raw ns ih =>
    by_cases hblank : (Node.text data raw).isBlank = true
    · rw [Issue.ofAlternatives_cons, if_pos hblank] at hsiblings
      rw [prune, if_pos hblank, ih hsiblings h]
    · rw [Bool.not_eq_true] at hblank
      obtain ⟨hstays, hsiblings⟩ := not_removed_of_ofAlternatives hblank hsiblings
      rw [prune_cons hblank hstays, ih hsiblings h, pruneBelow]
  | comment data ns ih =>
    obtain ⟨hstays, hsiblings⟩ := not_removed_of_ofAlternatives rfl hsiblings
    rw [prune_cons rfl hstays, ih hsiblings h, pruneBelow]
  | fragment children ns ihc ih =>
    obtain ⟨hstays, hsiblings⟩ := not_removed_of_ofAlternatives rfl hsiblings
    rw [elementsOf, elements, List.forall_mem_append] at h
    have hchildren : prune false none children = children :=
      ihc (fun hchecked => Bool.noConfusion hchecked) h.1
    rw [prune_cons rfl hstays, ih hsiblings h.2, pruneBelow, hchildren]
  | element tag attrs children void ns ihc ih =>
    obtain ⟨hstays, hsiblings⟩ := not_removed_of_ofAlternatives rfl hsiblings
    rw [elementsOf, elements, List.forall_mem_append, List.forall_mem_cons] at h
    rw [prune_cons rfl hstays, ih hsiblings h.2, pruneBelow, ihc (fun _ => h.1.1) h.1.2]

/-- Nothing is removed from a template if the check warns of no alternative in it. -/
theorem prune_of_notWarned {node : Node} (h : Issue.NotWarned node) :
    prune true none node.content = node.content := by
  obtain ⟨hsiblings, hbelow⟩ := List.forall_mem_cons.1 (Issue.notWarned_iff.1 h)
  exact prune_eq_self (fun _ => hsiblings) (List.forall_mem_map.1 hbelow)

/-! ### The passes over thinned nodes -/

section

variable {host : Host} {expand : Expand} {context : Context}

/-- A repetition whose body is thinned gives the same nodes. -/
theorem gives_expandRepeatsAt_of_thinned
    (hexpand : ∀ context {ns ms}, Thinned true ns ms →
      (expand context ns).Extends (expand context ms))
    {tag : String} (hrepeat : tag = Directive.repeatTag) {attrs : Attributes}
    {children children' : List Node} {void : Bool} (hchildren : Thinned true children children')
    {nodes : List Node}
    (h : (expandRepeatsAt host expand context (.element tag attrs children void)).Gives nodes) :
    (expandRepeatsAt host expand context (.element tag attrs children' void)).Gives nodes := by
  rw [expandRepeatsAt_repeat hrepeat] at h ⊢
  exact (Evaluation.Extends.refl (repetition host context tag attrs)).bind
    (fun r => Evaluation.extendsUnless_false.1
      (concatItems_extends (fun item => (hexpand _ hchildren).unless) r.items)) nodes h

/-- The pass over repetitions leaves thinned nodes of thinned nodes. -/
theorem thinned_expandRepeats
    (hexpand : ∀ context {ns ms}, Thinned true ns ms →
      (expand context ns).Extends (expand context ms))
    {closed : Bool} {ns ms : List Node} (h : Thinned closed ns ms) {r : List Node}
    (hr : (expandRepeats host expand context ns).Gives r) :
    ∃ r', (expandRepeats host expand context ms).Gives r' ∧ Thinned closed r r' := by
  induction h generalizing r with
  | nil closed => exact ⟨r, hr, .refl closed r⟩
  | drop h ih =>
    obtain ⟨a, b, ha, hb, rfl⟩ := gives_expandRepeats_cons.1 hr
    obtain ⟨children', -, rfl⟩ := (gives_expandRepeatsAt_element (by decide)).1 ha
    obtain ⟨b', hb', hthinned⟩ := ih hb
    exact ⟨b', hb', .drop hthinned⟩
  | text h ih =>
    obtain ⟨a, b, ha, hb, rfl⟩ := gives_expandRepeats_cons.1 hr
    obtain rfl := Evaluation.gives_pure.1 ha
    obtain ⟨b', hb', hthinned⟩ := ih hb
    exact ⟨_, gives_expandRepeats_cons.2 ⟨_, b', ha, hb', rfl⟩, .text hthinned⟩
  | comment h ih =>
    obtain ⟨a, b, ha, hb, rfl⟩ := gives_expandRepeats_cons.1 hr
    obtain rfl := Evaluation.gives_pure.1 ha
    obtain ⟨b', hb', hthinned⟩ := ih hb
    exact ⟨_, gives_expandRepeats_cons.2 ⟨_, b', ha, hb', rfl⟩, .comment hthinned⟩
  | fragment hchildren h ihc ih =>
    obtain ⟨a, b, ha, hb, rfl⟩ := gives_expandRepeats_cons.1 hr
    obtain ⟨children₁, hchildren₁, rfl⟩ := gives_expandRepeatsAt_fragment.1 ha
    obtain ⟨children₂, hchildren₂, hbelow⟩ := ihc hchildren₁
    obtain ⟨b', hb', hthinned⟩ := ih hb
    exact ⟨_, gives_expandRepeats_cons.2 ⟨_, b', gives_expandRepeatsAt_fragment.2
      ⟨children₂, hchildren₂, rfl⟩, hb', rfl⟩, .fragment hbelow hthinned⟩
  | @element closed tag attrs children children' ns ms void hchildren h ihc ih =>
    obtain ⟨a, b, ha, hb, rfl⟩ := gives_expandRepeats_cons.1 hr
    obtain ⟨b', hb', hthinned⟩ := ih hb
    by_cases hrepeat : tag = Directive.repeatTag
    · -- The bodies give the same nodes, which may leave anything for an alternative.
      have hbody := gives_expandRepeatsAt_of_thinned hexpand hrepeat hchildren ha
      have hcloses : closes closed (.element tag attrs children void) = false := by
        simp [closes, isBlank, hasTag, hrepeat]
      rw [hcloses] at hthinned
      exact ⟨_, gives_expandRepeats_cons.2 ⟨a, b', hbody, hb', rfl⟩, hthinned.append_left closed a⟩
    · obtain ⟨children₁, hchildren₁, rfl⟩ := (gives_expandRepeatsAt_element hrepeat).1 ha
      obtain ⟨children₂, hchildren₂, hbelow⟩ := ihc hchildren₁
      exact ⟨_, gives_expandRepeats_cons.2 ⟨_, b', (gives_expandRepeatsAt_element hrepeat).2
        ⟨children₂, hchildren₂, rfl⟩, hb', rfl⟩, .element hbelow hthinned⟩

/-- In a closed place nothing is left for an alternative. -/
theorem Next.eq_nothing_of_closes {pending next : Pending} {n : Node} {closed : Bool}
    (h : Next host context pending n next) (hpending : closed = true → pending = .nothing)
    (hcloses : closes closed n = true) : next = .nothing := by
  cases n with
  | text data raw =>
    rw [closes] at hcloses
    rw [Next] at h
    split_ifs at h hcloses with hblank
    · rw [h, hpending hcloses]
      rfl
    · exact h
  | comment data => exact h
  | fragment children => exact h
  | element tag attrs children void =>
    have hif : tag ≠ Directive.ifTag := by
      rintro rfl
      simp [closes, isBlank, hasTag] at hcloses
    rwa [Next, if_neg hif] at h

/-- One node after the other: the new one gives what the old one does, and leaves the same. -/
theorem extends_expandBranches_cons {closed : Bool} {pending : Pending} {n n' : Node}
    {ns ms : List Node} (hpending : closed = true → pending = .nothing)
    (hn : (branchNode host expand context n pending).Extends
      (branchNode host expand context n' pending))
    (hreleased : pending.released n = pending.released n')
    (hns : ∀ {next : Pending}, (closes closed n = true → next = .nothing) →
      (expandBranches host expand context ns next).Extends
        (expandBranches host expand context ms next)) :
    (expandBranches host expand context (n :: ns) pending).Extends
      (expandBranches host expand context (n' :: ms) pending) := by
  intro r hr
  obtain ⟨b, rest, hb, hrest, rfl⟩ := gives_expandBranches_cons.1 hr
  have hnext := (next_of_gives_branchNode hb).eq_nothing_of_closes hpending
  exact gives_expandBranches_cons.2 ⟨b, rest, hn b hb, hns hnext rest hrest, by rw [hreleased]⟩

/-- The pass over conditionals gives the same for thinned nodes: what they lack it would remove. -/
theorem extends_expandBranches
    (hexpand : ∀ {ns ms}, Thinned true ns ms → (expand context ns).Extends (expand context ms))
    {closed : Bool} {ns ms : List Node} (h : Thinned closed ns ms) {pending : Pending}
    (hpending : closed = true → pending = .nothing) :
    (expandBranches host expand context ns pending).Extends
      (expandBranches host expand context ms pending) := by
  induction h generalizing pending with
  | nil => exact .refl _
  | drop h ih =>
    obtain rfl := hpending rfl
    intro r hr
    obtain ⟨b, rest, hb, hrest, rfl⟩ := gives_expandBranches_cons.1 hr
    obtain ⟨nodes, hnodes, rfl⟩ := (gives_branchNode_else rfl).1 hb
    obtain rfl := Evaluation.gives_pure.1 hnodes
    rw [released_nothing]
    exact ih (fun _ => rfl) rest hrest
  | text h ih => exact extends_expandBranches_cons hpending (.refl _) rfl ih
  | comment h ih => exact extends_expandBranches_cons hpending (.refl _) rfl fun hnext => ih hnext
  | fragment hchildren h ihc ih =>
    refine extends_expandBranches_cons hpending ?_ rfl fun hnext => ih hnext
    rw [branchNode, branchNode]
    exact (ihc fun _ => rfl).map _
  | element hchildren h ihc ih =>
    refine extends_expandBranches_cons hpending ?_ rfl ih
    rw [branchNode, branchNode]
    split_ifs with hif helse
    · refine (Evaluation.Extends.refl _).bind fun holds => ?_
      cases holds with
      | true => exact (hexpand hchildren).map _
      | false => exact .refl _
    · cases pending with
      | nothing => exact .refl _
      | expanded blanks => exact (hexpand hchildren).map _
    · exact (ihc fun _ => rfl).map _

end

/-- Thinned nodes expand to the same. -/
theorem extends_expandNodes (s : Surroundings) (depth : Nat) (inserting : List String)
    (context : Context) {ns ms : List Node} (h : Thinned true ns ms) :
    (expandNodes s depth inserting context ns).Extends
      (expandNodes s depth inserting context ms) := by
  induction depth generalizing context ns ms with
  | zero => exact fun r hr => absurd hr Evaluation.not_gives_fail
  | succ depth ih =>
    rw [expandNodes_succ, expandNodes_succ]
    intro r hr
    obtain ⟨repeated, hrepeated, hr⟩ := Evaluation.gives_bind.1 hr
    obtain ⟨repeated', hrepeated', hthinned⟩ := thinned_expandRepeats ih h hrepeated
    obtain ⟨branched, hbranched, hr⟩ := Evaluation.gives_bind.1 hr
    have hbranched' := extends_expandBranches (ih context) hthinned (fun _ => rfl) branched hbranched
    exact Evaluation.gives_bind.2
      ⟨repeated', hrepeated', Evaluation.gives_bind.2 ⟨branched, hbranched', hr⟩⟩

/-- A template expands to the same without its orphans, but for those behind a repetition. If there are
    none of these, the check warns of no alternative in what is left, and if it warns of none in the
    template itself, nothing is removed. -/
theorem expand_prune {s : Surroundings} {template : Template} {node : Node} {data : Value}
    {r : List Node} (hnode : (treeOf template).Gives node) (hr : (expand s template data).Gives r) :
    (expand s (.tree (.fragment (prune true none node.content))) data).Gives r ∧
      (Everywhere IsTidy node.content →
        Issue.NotWarned (.fragment (prune true none node.content))) ∧
      (Issue.NotWarned node → prune true none node.content = node.content) := by
  refine ⟨?_, notWarned_prune, prune_of_notWarned⟩
  obtain ⟨node', hnode', hr⟩ := Evaluation.gives_bind.1 hr
  obtain rfl := hnode'.unique hnode
  cases data with
  | map context =>
    exact extends_expandNodes s _ [] context (thinned_prune true fun _ _ => rfl) r hr
  | _ => exact absurd hr Evaluation.not_gives_throw

/-- An orphan in front of a text is removed. -/
theorem expand_prune_orphan :
    prune true none [.element "else" .empty [.text "a" false] false, .text "b" false] =
        [.text "b" false] ∧
      (expand ⟨Host.none, none, ⟨1, 1⟩⟩ (.tree (.fragment (prune true none
        [.element "else" .empty [.text "a" false] false, .text "b" false]))) (.map [])).Gives
          [.text "b" false] ∧
      Issue.NotWarned (.fragment (prune true none
        [.element "else" .empty [.text "a" false] false, .text "b" false])) := by
  have hnode : (treeOf (.tree (.fragment
      [.element "else" .empty [.text "a" false] false, .text "b" false]))).Gives
      (.fragment [.element "else" .empty [.text "a" false] false, .text "b" false]) := rfl
  have htidy : Everywhere IsTidy
      [.element "else" .empty [.text "a" false] false, .text "b" false] :=
    ⟨nofun, ⟨nofun, trivial, trivial⟩, nofun, trivial, trivial⟩
  have hgives : (expand ⟨Host.none, none, ⟨1, 1⟩⟩ (.tree (.fragment
      [.element "else" .empty [.text "a" false] false, .text "b" false])) (.map [])).Gives
      [.text "b" false] := rfl
  obtain ⟨hpruned, hwarned, -⟩ := expand_prune hnode hgives
  exact ⟨rfl, hpruned, hwarned htidy⟩

/-- An orphan behind a repetition over nothing is rendered, if a conditional stands before it. -/
theorem gives_expand_orphan :
    Issue.ofTemplate none (.fragment [.element "if" (.ofList [("cond", "false")]) [] false,
        .element "repeat" (.ofList [("for", "x of xs")]) [] false,
        .element "else" .empty [.text "E" false] false]) =
          [⟨.warning, "else", "Not preceded by an <if>; it will never render"⟩] ∧
      (expand ⟨Host.none, none, .standard⟩
        (.tree (.fragment [.element "if" (.ofList [("cond", "false")]) [] false,
          .element "repeat" (.ofList [("for", "x of xs")]) [] false,
          .element "else" .empty [.text "E" false] false]))
        (.map [(.str "xs", .list [])])).Gives [.text "E" false] ∧
      (expand ⟨Host.none, none, .standard⟩
        (.tree (.fragment [.element "if" (.ofList [("cond", "false")]) [] false,
          .element "repeat" (.ofList [("for", "x of xs")]) [] false]))
        (.map [(.str "xs", .list [])])).Gives [] :=
  ⟨rfl, rfl, rfl⟩

end Expansion

end Stencil
