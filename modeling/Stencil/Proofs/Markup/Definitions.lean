import Stencil.Proofs.Markup.Forest
import Stencil.Proofs.OrderedMap
import Stencil.Registry

/-!
# Documents without their definitions

A registry collects the definitions of a document wherever they stand in it. Taking them away goes
through the elements only: a fragment that stands in a document is left as it is, with the definitions
in it. What is left to collect are thus the definitions of the outermost such fragments
(`outerFragments`), and only a document in which these have none is left without definitions.

* `definitionsIn_withoutDefinitionsIn`: without the definitions in fragments too, none is left;
* `withoutDefinitionsIn_stripDefinitionsIn`: nothing but definitions is taken away;
* `stripDefinitions_document`: what is taken away, and what a registry collects of the rest.
-/

namespace Stencil.Node

mutual

/-- The node without the definitions below it, those in fragments too. -/
def withoutDefinitions : Node → Node
  | element tag attrs children void => element tag attrs (withoutDefinitionsIn children) void
  | fragment children => fragment (withoutDefinitionsIn children)
  | text data raw => text data raw
  | comment data => comment data
termination_by structural n => n

/-- The nodes without the definitions at and below them, those in fragments too. -/
def withoutDefinitionsIn : List Node → List Node
  | [] => []
  | n :: ns =>
    if isDefinition n then withoutDefinitionsIn ns
    else withoutDefinitions n :: withoutDefinitionsIn ns
termination_by structural ns => ns

end

mutual

/-- The fragments at and below a node that stand in no other fragment and in no definition. -/
def outerFragments : Node → List Node
  | element _ _ children _ => outerFragmentsIn children
  | fragment children => [fragment children]
  | text _ _ => []
  | comment _ => []
termination_by structural n => n

/-- The fragments at and below nodes that stand in no other fragment and in no definition. -/
def outerFragmentsIn : List Node → List Node
  | [] => []
  | n :: ns =>
    if isDefinition n then outerFragmentsIn ns else outerFragments n ++ outerFragmentsIn ns
termination_by structural ns => ns

end

/-! ### What is a definition -/

theorem isDefinition_comment (data : String) : (comment data).isDefinition = false := rfl

theorem isDefinition_fragment (children : List Node) : (fragment children).isDefinition = false :=
  rfl

/-! ### What is left of the first node -/

theorem stripDefinitionsIn_of_isDefinition {n : Node} (h : n.isDefinition) (ns : List Node) :
    stripDefinitionsIn (n :: ns) = stripDefinitionsIn ns := by
  cases n with
  | element => simp [stripDefinitionsIn, h]
  | _ => exact nomatch h

theorem stripDefinitionsIn_text (data : String) (raw : Bool) (ns : List Node) :
    stripDefinitionsIn (text data raw :: ns) = text data raw :: stripDefinitionsIn ns := by
  simp [stripDefinitionsIn, stripDefinitions, isDefinition_text]

theorem stripDefinitionsIn_comment (data : String) (ns : List Node) :
    stripDefinitionsIn (comment data :: ns) = comment data :: stripDefinitionsIn ns := by
  simp [stripDefinitionsIn, stripDefinitions, isDefinition_comment]

theorem stripDefinitionsIn_element {tag : String} {attrs : Attributes} {children : List Node}
    {void : Bool} (h : (element tag attrs children void).isDefinition = false) (ns : List Node) :
    stripDefinitionsIn (element tag attrs children void :: ns) =
      element tag attrs (stripDefinitionsIn children) void :: stripDefinitionsIn ns := by
  simp [stripDefinitionsIn, stripDefinitions, h]

theorem stripDefinitionsIn_fragment (children ns : List Node) :
    stripDefinitionsIn (fragment children :: ns) = fragment children :: stripDefinitionsIn ns := by
  simp [stripDefinitionsIn, isDefinition_fragment]

theorem withoutDefinitionsIn_of_isDefinition {n : Node} (h : n.isDefinition) (ns : List Node) :
    withoutDefinitionsIn (n :: ns) = withoutDefinitionsIn ns := by
  rw [withoutDefinitionsIn, if_pos h]

theorem withoutDefinitionsIn_cons {n : Node} (h : n.isDefinition = false) (ns : List Node) :
    withoutDefinitionsIn (n :: ns) = n.withoutDefinitions :: withoutDefinitionsIn ns := by
  rw [withoutDefinitionsIn, if_neg (Bool.eq_false_iff.1 h)]

theorem outerFragmentsIn_of_isDefinition {n : Node} (h : n.isDefinition) (ns : List Node) :
    outerFragmentsIn (n :: ns) = outerFragmentsIn ns := by
  rw [outerFragmentsIn, if_pos h]

theorem outerFragmentsIn_cons {n : Node} (h : n.isDefinition = false) (ns : List Node) :
    outerFragmentsIn (n :: ns) = n.outerFragments ++ outerFragmentsIn ns := by
  rw [outerFragmentsIn, if_neg (Bool.eq_false_iff.1 h)]

end Stencil.Node

namespace Stencil.Registry

open Node

/-- The definitions at and below nodes, in document order. -/
def definitionsIn (ns : List Node) : List (String × Node) :=
  ns.flatMap definitions

theorem definitions_fragment (children : List Node) :
    definitions (fragment children) = definitionsIn children := by
  rw [definitions, elements]
  induction children with
  | nil => rfl
  | cons n ns ih =>
    rw [elementsOf, List.filterMap_append, ih]
    rfl

/-- An element that is no definition has the definitions of its children. -/
theorem definitions_element {tag : String} {attrs : Attributes} {children : List Node} {void : Bool}
    (h : (element tag attrs children void).isDefinition = false) :
    definitions (element tag attrs children void) = definitionsIn children := by
  have hnone : (element tag attrs children void).definition? = none := by
    simpa [isDefinition] using h
  rw [← definitions_fragment, definitions, definitions, elements, elements, List.filterMap_cons,
    hnone]
  rfl

theorem definitionsIn_cons (n : Node) (ns : List Node) :
    definitionsIn (n :: ns) = definitions n ++ definitionsIn ns := rfl

theorem definitions_text (data : String) (raw : Bool) : definitions (text data raw) = [] := by
  rw [definitions, elements]
  rfl

theorem definitions_comment (data : String) : definitions (comment data) = [] := by
  rw [definitions, elements]
  rfl

theorem definitionsIn_append (as bs : List Node) :
    definitionsIn (as ++ bs) = definitionsIn as ++ definitionsIn bs :=
  List.flatMap_append

/-- A node without definitions is none. -/
theorem isDefinition_of_definitions {n : Node} (h : definitions n = []) :
    n.isDefinition = false := by
  cases n with
  | element tag attrs children void =>
    have hself := List.filterMap_eq_nil_iff.1 h _ (mem_elements_self tag attrs children void)
    simpa [isDefinition] using hself
  | _ => rfl

end Stencil.Registry

namespace Stencil.Node

open Registry

/-- Without the definitions in them, nodes have no definitions. -/
theorem definitionsIn_withoutDefinitionsIn (ns : List Node) :
    definitionsIn (withoutDefinitionsIn ns) = [] := by
  induction ns using forest_induction with
  | nil => rfl
  | text data raw ns ih =>
    rw [withoutDefinitionsIn_cons (isDefinition_text data raw), withoutDefinitions,
      definitionsIn_cons, definitions_text, ih, List.nil_append]
  | comment data ns ih =>
    rw [withoutDefinitionsIn_cons (isDefinition_comment data), withoutDefinitions,
      definitionsIn_cons, definitions_comment, ih, List.nil_append]
  | element tag attrs children void ns ihc ih =>
    cases h : (element tag attrs children void).isDefinition with
    | true => rw [withoutDefinitionsIn_of_isDefinition h, ih]
    | false =>
      have hkept : (element tag attrs (withoutDefinitionsIn children) void).isDefinition = false := h
      rw [withoutDefinitionsIn_cons h, withoutDefinitions, definitionsIn_cons,
        definitions_element hkept, ihc, ih, List.nil_append]
  | fragment children ns ihc ih =>
    rw [withoutDefinitionsIn_cons (isDefinition_fragment children), withoutDefinitions,
      definitionsIn_cons, definitions_fragment, ihc, ih, List.nil_append]

/-- Nodes without definitions stay as they are. -/
theorem withoutDefinitionsIn_of_definitionsIn {ns : List Node} (h : definitionsIn ns = []) :
    withoutDefinitionsIn ns = ns := by
  induction ns using forest_induction with
  | nil => rfl
  | text data raw ns ih =>
    rw [withoutDefinitionsIn_cons (isDefinition_text data raw), withoutDefinitions,
      ih (List.append_eq_nil_iff.1 h).2]
  | comment data ns ih =>
    rw [withoutDefinitionsIn_cons (isDefinition_comment data), withoutDefinitions,
      ih (List.append_eq_nil_iff.1 h).2]
  | element tag attrs children void ns ihc ih =>
    obtain ⟨hn, hns⟩ := List.append_eq_nil_iff.1 h
    have hno := isDefinition_of_definitions hn
    rw [definitions_element hno] at hn
    rw [withoutDefinitionsIn_cons hno, withoutDefinitions, ihc hn, ih hns]
  | fragment children ns ihc ih =>
    obtain ⟨hn, hns⟩ := List.append_eq_nil_iff.1 h
    rw [definitions_fragment] at hn
    rw [withoutDefinitionsIn_cons (isDefinition_fragment children), withoutDefinitions, ihc hn,
      ih hns]

/-! ### What is taken away -/

/-- Taking definitions away a second time changes nothing. -/
theorem stripDefinitionsIn_stripDefinitionsIn (ns : List Node) :
    stripDefinitionsIn (stripDefinitionsIn ns) = stripDefinitionsIn ns := by
  induction ns using forest_induction with
  | nil => rfl
  | text data raw ns ih => rw [stripDefinitionsIn_text, stripDefinitionsIn_text, ih]
  | comment data ns ih => rw [stripDefinitionsIn_comment, stripDefinitionsIn_comment, ih]
  | element tag attrs children void ns ihc ih =>
    cases h : (element tag attrs children void).isDefinition with
    | true => rw [stripDefinitionsIn_of_isDefinition h, ih]
    | false =>
      have hkept : (element tag attrs (stripDefinitionsIn children) void).isDefinition = false := h
      rw [stripDefinitionsIn_element h, stripDefinitionsIn_element hkept, ihc, ih]
  | fragment children ns _ ih => rw [stripDefinitionsIn_fragment, stripDefinitionsIn_fragment, ih]

/-- Nodes that are no definitions are never taken away. -/
theorem withoutDefinitionsIn_stripDefinitionsIn (ns : List Node) :
    withoutDefinitionsIn (stripDefinitionsIn ns) = withoutDefinitionsIn ns := by
  induction ns using forest_induction with
  | nil => rfl
  | text data raw ns ih =>
    have h := isDefinition_text data raw
    rw [stripDefinitionsIn_text, withoutDefinitionsIn_cons h, withoutDefinitionsIn_cons h, ih]
  | comment data ns ih =>
    have h := isDefinition_comment data
    rw [stripDefinitionsIn_comment, withoutDefinitionsIn_cons h, withoutDefinitionsIn_cons h, ih]
  | element tag attrs children void ns ihc ih =>
    cases h : (element tag attrs children void).isDefinition with
    | true => rw [stripDefinitionsIn_of_isDefinition h, withoutDefinitionsIn_of_isDefinition h, ih]
    | false =>
      have hkept : (element tag attrs (stripDefinitionsIn children) void).isDefinition = false := h
      rw [stripDefinitionsIn_element h, withoutDefinitionsIn_cons h, withoutDefinitionsIn_cons hkept,
        withoutDefinitions, withoutDefinitions, ihc, ih]
  | fragment children ns _ ih =>
    have h := isDefinition_fragment children
    rw [stripDefinitionsIn_fragment, withoutDefinitionsIn_cons h, withoutDefinitionsIn_cons h, ih]

/-- The definitions that are left are those of the outermost fragments. -/
theorem definitionsIn_stripDefinitionsIn (ns : List Node) :
    definitionsIn (stripDefinitionsIn ns) = definitionsIn (outerFragmentsIn ns) := by
  induction ns using forest_induction with
  | nil => rfl
  | text data raw ns ih =>
    rw [stripDefinitionsIn_text, definitionsIn_cons, definitions_text,
      outerFragmentsIn_cons (isDefinition_text data raw), outerFragments, ih, List.nil_append,
      List.nil_append]
  | comment data ns ih =>
    rw [stripDefinitionsIn_comment, definitionsIn_cons, definitions_comment,
      outerFragmentsIn_cons (isDefinition_comment data), outerFragments, ih, List.nil_append,
      List.nil_append]
  | element tag attrs children void ns ihc ih =>
    cases h : (element tag attrs children void).isDefinition with
    | true => rw [stripDefinitionsIn_of_isDefinition h, outerFragmentsIn_of_isDefinition h, ih]
    | false =>
      have hkept : (element tag attrs (stripDefinitionsIn children) void).isDefinition = false := h
      rw [stripDefinitionsIn_element h, definitionsIn_cons, definitions_element hkept, ihc, ih,
        outerFragmentsIn_cons h, outerFragments, definitionsIn_append]
  | fragment children ns _ ih =>
    rw [stripDefinitionsIn_fragment, definitionsIn_cons, ih,
      outerFragmentsIn_cons (isDefinition_fragment children), outerFragments, List.singleton_append,
      definitionsIn_cons]

/-- All definitions are taken away only if no outermost fragment has any. -/
theorem stripDefinitionsIn_eq_withoutDefinitionsIn_iff (ns : List Node) :
    stripDefinitionsIn ns = withoutDefinitionsIn ns ↔ definitionsIn (outerFragmentsIn ns) = [] := by
  rw [← definitionsIn_stripDefinitionsIn]
  constructor
  · intro h
    rw [h, definitionsIn_withoutDefinitionsIn]
  · intro h
    rw [← withoutDefinitionsIn_stripDefinitionsIn, withoutDefinitionsIn_of_definitionsIn h]

/-- What taking definitions away does to a document: nothing the second time, and nothing at all to
    what is no definition. A registry collects from the rest what the outermost fragments of the
    document define. If these define nothing, and only then, the registry is empty and the rest is
    the document without any of its definitions. -/
theorem stripDefinitions_document (children : List Node) :
    (fragment children).stripDefinitions.stripDefinitions = (fragment children).stripDefinitions ∧
    (fragment children).stripDefinitions.withoutDefinitions =
      (fragment children).withoutDefinitions ∧
    definitions (fragment children).stripDefinitions =
      (outerFragmentsIn children).flatMap definitions ∧
    (ofDocument (fragment children).stripDefinitions = OrderedMap.empty ↔
      ∀ f ∈ outerFragmentsIn children, definitions f = []) ∧
    ((fragment children).stripDefinitions = (fragment children).withoutDefinitions ↔
      ∀ f ∈ outerFragmentsIn children, definitions f = []) ∧
    ofDocument (fragment children).withoutDefinitions = OrderedMap.empty := by
  have hleft : definitions (fragment children).stripDefinitions =
      definitionsIn (outerFragmentsIn children) := by
    rw [stripDefinitions, definitions_fragment, definitionsIn_stripDefinitionsIn]
  have hnone : definitionsIn (outerFragmentsIn children) = [] ↔
      ∀ f ∈ outerFragmentsIn children, definitions f = [] := List.flatMap_eq_nil_iff
  refine ⟨?_, ?_, hleft, ?_, ?_, ?_⟩
  · rw [stripDefinitions, stripDefinitions, stripDefinitionsIn_stripDefinitionsIn]
  · rw [stripDefinitions, withoutDefinitions, withoutDefinitions,
      withoutDefinitionsIn_stripDefinitionsIn]
  · rw [ofDocument, OrderedMap.ofList_eq_empty_iff, hleft, hnone]
  · rw [stripDefinitions, withoutDefinitions, fragment.injEq,
      stripDefinitionsIn_eq_withoutDefinitionsIn_iff, hnone]
  · rw [ofDocument, withoutDefinitions, definitions_fragment, definitionsIn_withoutDefinitionsIn]
    rfl

/-- A document with a definition in a fragment of its own. -/
def nestedDefinition : Node :=
  fragment [fragment [element "template" (OrderedMap.ofList [("id", "a")]) [] false]]

/-- The definition in the fragment is not taken away, and is collected from the rest. -/
theorem stripDefinitions_nestedDefinition :
    nestedDefinition.stripDefinitions = nestedDefinition ∧
    nestedDefinition.withoutDefinitions = fragment [fragment []] ∧
    (ofDocument nestedDefinition.stripDefinitions).keys = ["a"] := by
  have hkept : nestedDefinition.stripDefinitions = nestedDefinition := by
    rw [nestedDefinition, stripDefinitions, stripDefinitionsIn_fragment, stripDefinitionsIn]
  refine ⟨hkept, ?_, ?_⟩
  · rfl
  · rw [hkept]
    rfl

end Stencil.Node
