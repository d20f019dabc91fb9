import Stencil.Markup.Node.Build

/-!
# Registries of templates

Templates are inserted by their names. A registry keeps them in the order in which the names first
came; a name that is registered again takes the new template. A document defines the templates of
its `<template id="...">` elements, wherever they stand in it.

* `isDefinition_text`: only elements define templates.
-/

namespace Stencil

/-- Templates by their names. -/
abbrev Registry := OrderedMap String Node

namespace Node

/-- The tag of a definition. -/
def templateTag : String := "template"

/-- What a template is filled in: what stands in a fragment or in a `<template>`, and any other
    node itself. -/
def content : Node → List Node
  | fragment children => children
  | element tag attrs children void =>
    if tag = templateTag then children else [element tag attrs children void]
  | node => [node]

/-- The name of the template that an element defines. -/
def definition? (node : Node) : Option String :=
  if node.hasTag templateTag then node.attrNonempty? "id" else none

/-- Whether a node defines a template. -/
def isDefinition (node : Node) : Bool :=
  node.definition?.isSome

mutual

/-- The node without the definitions below it. -/
def stripDefinitions : Node → Node
  | element tag attrs children void => element tag attrs (stripDefinitionsIn children) void
  | fragment children => fragment (stripDefinitionsIn children)
  | text data raw => text data raw
  | comment data => comment data
termination_by structural n => n

/-- The nodes without definitions among them and in the elements among them. A fragment among them
    is left as it is. -/
def stripDefinitionsIn : List Node → List Node
  | [] => []
  | n :: ns =>
    if isDefinition n then stripDefinitionsIn ns
    else
      match n with
      | fragment children => fragment children :: stripDefinitionsIn ns
      | n => stripDefinitions n :: stripDefinitionsIn ns
termination_by structural ns => ns

end

theorem isDefinition_text (data : String) (raw : Bool) : (text data raw).isDefinition = false := rfl

end Node

namespace Registry

/-- The definitions of a document, in document order. -/
def definitions (document : Node) : List (String × Node) :=
  document.elements.filterMap fun node => node.definition?.map fun id => (id, node)

/-- The registry of the definitions of a document. -/
def ofDocument (document : Node) : Registry :=
  OrderedMap.ofList (definitions document)

/-- The registry with all templates of another one registered after its own. -/
def update (registry other : Registry) : Registry :=
  registry.insertAll other.entries

end Registry

end Stencil
