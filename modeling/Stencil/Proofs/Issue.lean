import Stencil.Issue
import Stencil.Proofs.Markup.Forest

/-!
# What the issues of a template say

Every issue is about a directive and has its tag, and no two checks look at the same directive. So the
issues with the tag of conditionals are those that the check of conditionals finds
(`mem_ofTemplate_iff_of_ifTag`), and likewise for alternatives (`mem_ofTemplate_iff_of_elseTag`).

If there is no error among the issues of a template, every directive in it, however deep, has what its
expansion asks of it: its attribute is there and well-formed, and the template that it inserts is known
(`everywhere_isChecked`). Repetitions are looked at from the outside to the inside, conditionals and
insertions among all the elements in a row.
-/

namespace Stencil

namespace Node

/-- An element that is a repetition has a variable and a source. -/
def HasSource : Node → Prop
  | element tag attrs _ _ => tag = Directive.repeatTag →
    ∃ value, Directive.require tag attrs "for" = .ok value ∧
      ∃ parts, Directive.parseRepeat value.toList = .ok parts
  | _ => True

/-- An element that is a conditional has a condition without forbidden characters. -/
def HasCondition : Node → Prop
  | element tag attrs _ _ => tag = Directive.ifTag →
    ∃ value, Directive.require tag attrs "cond" = .ok value ∧
      Condition.forbiddenIn value.toList = []
  | _ => True

/-- An element that is an insertion inserts a known template. -/
def HasTarget (registry : Registry) : Node → Prop
  | element tag attrs _ _ => tag = Directive.insertTag →
    ∃ id, Directive.require tag attrs "template" = .ok id ∧
      ∃ template, registry.get? id = some template
  | _ => True

/-- A node has what its expansion as a directive asks of it. -/
structure IsChecked (registry : Registry) (n : Node) : Prop where
  source : n.HasSource
  condition : n.HasCondition
  target : n.HasTarget registry

end Node

namespace Issue

open Node

/-! ### Tags of issues -/

section

variable {registry : Option Registry} {template : Node} {issue : Issue}

theorem tag_of_mem_ofRepeats {bound : List String} {ns : List Node} (h : issue ∈ ofRepeats bound ns) :
    issue.tag = Directive.repeatTag := by
  induction ns using forest_induction generalizing bound with
  | nil => cases h
  | text data raw ns ih =>
    rw [ofRepeats, ofRepeatsAt, List.nil_append] at h
    exact ih h
  | comment data ns ih =>
    rw [ofRepeats, ofRepeatsAt, List.nil_append] at h
    exact ih h
  | fragment children ns ihc ih =>
    rw [ofRepeats, ofRepeatsAt, List.mem_append] at h
    exact h.elim ihc ih
  | element tag attrs children void ns ihc ih =>
    rw [ofRepeats, ofRepeatsAt, List.mem_append] at h
    refine h.elim (fun h => ?_) ih
    split_ifs at h with htag
    · split at h
      · rcases List.mem_cons.1 h with rfl | h
        · exact htag
        · exact ihc h
      split at h
      · rcases List.mem_cons.1 h with rfl | h
        · exact htag
        · exact ihc h
      · rcases List.mem_append.1 h with h | h
        · split_ifs at h
          · obtain rfl := List.mem_singleton.1 h
            exact htag
          · cases h
        · exact ihc h
    · exact ihc h

theorem tag_of_mem_ofCondition {n : Node} (h : issue ∈ ofCondition n) : issue.tag = Directive.ifTag := by
  rw [ofCondition] at h
  split_ifs at h
  · split at h
    · obtain rfl := List.mem_singleton.1 h
      rfl
    · split at h
      · cases h
      · obtain rfl := List.mem_singleton.1 h
        rfl
  · cases h

theorem tag_of_mem_ofAlternatives {previous : Option Node} {ns : List Node}
    (h : issue ∈ ofAlternatives previous ns) : issue.tag = Directive.elseTag := by
  induction ns generalizing previous with
  | nil => cases h
  | cons n ns ih =>
    rw [ofAlternatives] at h
    split_ifs at h
    · exact ih h
    · rcases List.mem_append.1 h with h | h
      · obtain rfl := List.mem_singleton.1 h
        rfl
      · exact ih h
    · exact ih h

theorem tag_of_mem_ofInsertion {n : Node} (h : issue ∈ ofInsertion registry n) :
    issue.tag = Directive.insertTag := by
  rw [ofInsertion] at h
  split_ifs at h
  · split at h
    · obtain rfl := List.mem_singleton.1 h
      rfl
    · split_ifs at h
      · obtain rfl := List.mem_singleton.1 h
        rfl
      · cases h
  · cases h

theorem mem_ofTemplate_iff : issue ∈ ofTemplate registry template ↔
    issue ∈ ofRepeats [] template.content ∨
      (∃ n ∈ elementsOf template.content, issue ∈ ofCondition n) ∨
      (∃ siblings ∈ template.content :: (elementsOf template.content).map children,
        issue ∈ ofAlternatives none siblings) ∨
      ∃ n ∈ elementsOf template.content, issue ∈ ofInsertion registry n := by
  simp only [ofTemplate, ofNodes, List.mem_append, List.mem_flatMap, or_assoc]

/-- The issues of conditionals are told by their tag. -/
theorem mem_ofTemplate_iff_of_ifTag (h : issue.tag = Directive.ifTag) :
    issue ∈ ofTemplate registry template ↔ ∃ n ∈ elementsOf template.content, issue ∈ ofCondition n := by
  rw [mem_ofTemplate_iff]
  constructor
  · rintro (hmem | hmem | ⟨siblings, -, hmem⟩ | ⟨n, -, hmem⟩)
    · exact absurd (h.symm.trans (tag_of_mem_ofRepeats hmem)) (by decide)
    · exact hmem
    · exact absurd (h.symm.trans (tag_of_mem_ofAlternatives hmem)) (by decide)
    · exact absurd (h.symm.trans (tag_of_mem_ofInsertion hmem)) (by decide)
  · exact fun hmem => .inr (.inl hmem)

/-- The issues of alternatives are told by their tag. -/
theorem mem_ofTemplate_iff_of_elseTag (h : issue.tag = Directive.elseTag) :
    issue ∈ ofTemplate registry template ↔
      ∃ siblings ∈ template.content :: (elementsOf template.content).map children,
        issue ∈ ofAlternatives none siblings := by
  rw [mem_ofTemplate_iff]
  constructor
  · rintro (hmem | ⟨n, -, hmem⟩ | hmem | ⟨n, -, hmem⟩)
    · exact absurd (h.symm.trans (tag_of_mem_ofRepeats hmem)) (by decide)
    · exact absurd (h.symm.trans (tag_of_mem_ofCondition hmem)) (by decide)
    · exact hmem
    · exact absurd (h.symm.trans (tag_of_mem_ofInsertion hmem)) (by decide)
  · exact fun hmem => .inr (.inr (.inl hmem))

end

/-! ### Issues of all elements -/

/-- What holds of all elements holds everywhere if it is true of all that is no element. -/
theorem everywhere_of_elements {P : Node → Prop} (hother : ∀ n, n.tag? = none → P n)
    {ns : List Node} (h : ∀ n ∈ elementsOf ns, P n) : Everywhere (fun n _ => P n) ns := by
  induction ns using forest_induction with
  | nil => trivial
  | text data raw ns ih => exact ⟨hother _ rfl, trivial, ih fun n hn => h n (by
      rwa [elementsOf, elements, List.nil_append])⟩
  | comment data ns ih => exact ⟨hother _ rfl, trivial, ih fun n hn => h n (by
      rwa [elementsOf, elements, List.nil_append])⟩
  | element tag attrs children void ns ihc ih =>
    rw [elementsOf, elements] at h
    refine ⟨h _ List.mem_cons_self, ihc fun n hn => h n ?_, ih fun n hn => h n ?_⟩
    · exact List.mem_append_left _ (List.mem_cons_of_mem _ hn)
    · exact List.mem_append_right _ hn
  | fragment children ns ihc ih =>
    rw [elementsOf, elements] at h
    exact ⟨hother _ rfl, ihc fun n hn => h n (List.mem_append_left _ hn),
      ih fun n hn => h n (List.mem_append_right _ hn)⟩

theorem hasErrors_flatMap {f : Node → List Issue} {ns : List Node}
    (h : hasErrors (ns.flatMap f) = false) {n : Node} (hn : n ∈ ns) : hasErrors (f n) = false := by
  rw [hasErrors, List.any_eq_false] at h ⊢
  exact fun i hi => h i (List.mem_flatMap.2 ⟨n, hn, hi⟩)

/-- An attribute that is there and not empty is what a directive requires. -/
theorem require_of_attrNonempty {tag : String} {attrs : Attributes} {children : List Node}
    {void : Bool} {name value : String}
    (h : (element tag attrs children void).attrNonempty? name = some value) :
    Directive.require tag attrs name = .ok value := by
  rw [attrNonempty?, Option.filter_eq_some_iff] at h
  obtain ⟨hvalue, hne⟩ := h
  have hget : attrs.get? name = some value := hvalue
  rw [Directive.require, hget]
  exact if_neg (by simpa using hne)

/-! ### The three checks -/

theorem everywhere_hasSource {bound : List String} {ns : List Node}
    (h : hasErrors (ofRepeats bound ns) = false) : Everywhere (fun n _ => n.HasSource) ns := by
  induction ns using forest_induction generalizing bound with
  | nil => trivial
  | text data raw ns ih =>
    rw [ofRepeats, hasErrors_append, Bool.or_eq_false_iff] at h
    exact ⟨trivial, trivial, ih h.2⟩
  | comment data ns ih =>
    rw [ofRepeats, hasErrors_append, Bool.or_eq_false_iff] at h
    exact ⟨trivial, trivial, ih h.2⟩
  | fragment children ns ihc ih =>
    rw [ofRepeats, hasErrors_append, Bool.or_eq_false_iff, ofRepeatsAt] at h
    exact ⟨trivial, ihc h.1, ih h.2⟩
  | element tag attrs children void ns ihc ih =>
    rw [ofRepeats, hasErrors_append, Bool.or_eq_false_iff, ofRepeatsAt] at h
    obtain ⟨hn, h⟩ := h
    split at hn
    next hrepeat =>
      split at hn
      · exact absurd hn (by simp [hasErrors])
      next value hvalue =>
        split at hn
        · exact absurd hn (by simp [hasErrors])
        next binding source hparts =>
          rw [hasErrors_append, Bool.or_eq_false_iff] at hn
          exact ⟨fun _ => ⟨value, hvalue, _, hparts⟩, ihc hn.2, ih h⟩
    next hrepeat => exact ⟨fun ht => absurd ht hrepeat, ihc hn, ih h⟩

theorem hasCondition_of_ofCondition {n : Node} (h : hasErrors (ofCondition n) = false) :
    n.HasCondition := by
  cases n with
  | element tag attrs children void =>
    rintro rfl
    rw [ofCondition, if_pos (by simp [hasTag])] at h
    split at h
    · exact absurd h (by simp [hasErrors])
    next value hvalue =>
      split at h
      next hforbidden => exact ⟨value, require_of_attrNonempty hvalue, hforbidden⟩
      · exact absurd h (by simp [hasErrors])
  | text data raw => trivial
  | comment data => trivial
  | fragment children => trivial

theorem hasTarget_of_ofInsertion {registry : Registry} {n : Node}
    (h : hasErrors (ofInsertion (some registry) n) = false) : n.HasTarget registry := by
  cases n with
  | element tag attrs children void =>
    rintro rfl
    rw [ofInsertion, if_pos (by simp [hasTag])] at h
    split at h
    · exact absurd h (by simp [hasErrors])
    next id hid =>
      split at h
      · exact absurd h (by simp [hasErrors])
      next hknown =>
        refine ⟨id, require_of_attrNonempty hid, Option.ne_none_iff_exists'.1 ?_⟩
        simpa [OrderedMap.contains] using hknown
  | text data raw => trivial
  | comment data => trivial
  | fragment children => trivial

/-- Without errors among the issues of a template, every directive in it has what its expansion asks
    of it. -/
theorem everywhere_isChecked {registry : Registry} {template : Node}
    (h : hasErrors (ofTemplate (some registry) template) = false) :
    Everywhere (fun n _ => n.IsChecked registry) template.content := by
  rw [ofTemplate, ofNodes] at h
  simp only [hasErrors_append, Bool.or_eq_false_iff] at h
  obtain ⟨⟨⟨hsources, hconditions⟩, -⟩, htargets⟩ := h
  -- The other two checks go over a list of all elements, so nothing is known of other nodes; but of
  -- these there is nothing to check.
  have hother : ∀ n : Node, n.tag? = none → n.HasCondition ∧ n.HasTarget registry := by
    intro n hn
    cases n with
    | element tag attrs children void => cases hn
    | _ => exact ⟨trivial, trivial⟩
  have hrest := everywhere_of_elements hother fun n hn =>
    ⟨hasCondition_of_ofCondition (hasErrors_flatMap hconditions hn),
      hasTarget_of_ofInsertion (hasErrors_flatMap htargets hn)⟩
  exact (everywhere_hasSource hsources).and hrest |>.imp
    fun n _ hn => ⟨hn.1, hn.2.1, hn.2.2⟩

end Issue

end Stencil
