import Stencil.OrderedMap
import Stencil.Text.Space

/-!
# Trees of markup

A document is a list of nodes. A text is *raw* if it stands in the markup as it is, as the bodies
of scripts and style sheets and the declarations do; any other text is escaped there. An element
is *void* if it has no closing tag.

* `mem_elements_self`: an element is the first of its own elements.
-/

namespace Stencil

/-- The attributes of an element. -/
abbrev Attributes := OrderedMap String String

/-- A node of a document. -/
inductive Node where
  | text (data : String) (raw : Bool)
  | comment (data : String)
  | element (tag : String) (attrs : Attributes) (children : List Node) (void : Bool)
  | fragment (children : List Node)
  deriving Inhabited

namespace Node

/-- The nodes directly below. -/
def children : Node → List Node
  | element _ _ children _ => children
  | fragment children => children
  | _ => []

/-- The tag of an element. -/
def tag? : Node → Option String
  | element tag _ _ _ => some tag
  | _ => none

/-- Whether this is an element with the given tag. -/
def hasTag (tag : String) : Node → Bool
  | element t _ _ _ => t == tag
  | _ => false

/-- The value of an attribute. -/
def attr? (name : String) : Node → Option String
  | element _ attrs _ _ => attrs.get? name
  | _ => none

/-- The value of an attribute that is there and is not empty. -/
def attrNonempty? (name : String) (node : Node) : Option String :=
  (node.attr? name).filter (· ≠ "")

/-- Whether this is a text of blanks that is not raw. -/
def isBlank : Node → Bool
  | text data raw => !raw && Text.isBlank data.toList
  | _ => false

mutual

/-- The elements at and below a node, in document order. -/
def elements : Node → List Node
  | element tag attrs children void =>
    element tag attrs children void :: elementsOf children
  | fragment children => elementsOf children
  | text _ _ => []
  | comment _ => []
termination_by structural n => n

/-- The elements at and below nodes, in document order. -/
def elementsOf : List Node → List Node
  | [] => []
  | n :: ns => elements n ++ elementsOf ns
termination_by structural ns => ns

end

/-- The elements at and below a node that have the given tag. -/
def findAll (tag : String) (node : Node) : List Node :=
  node.elements.filter (hasTag tag)

theorem mem_elements_self (tag : String) (attrs : Attributes) (children : List Node) (void : Bool) :
    element tag attrs children void ∈ (element tag attrs children void).elements := by
  rw [elements]
  exact List.mem_cons_self

/-- The elements that have no closing tag. -/
def voidTags : List String :=
  ["base", "link", "meta", "br", "hr", "wbr", "area", "img", "embed", "param", "source", "track",
    "col", "input"]

/-- The elements whose body stands in the markup as it is. -/
def rawTags : List String :=
  ["script", "style"]

end Node

end Stencil
