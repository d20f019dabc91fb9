import Stencil.Yaml.Scalar.Meaning
import Stencil.Yaml.Token.Read

/-!
# Nodes of YAML documents

A document is a tree of nodes: scalars, sequences and mappings. Each has a tag, the one that was
written before it or the one of its kind; that of a plain scalar is the one that its text is written
like. An alias stands for the node of its name and is no node of its own, unless it stands in that
node itself.

The text of a node is that of a scalar, or of the main value of a mapping.
-/

namespace Stencil.Yaml

/-- A node. -/
inductive Node where
  | scalar (tag : Tag) (content : Content)
  | sequence (tag : Tag) (items : List Node)
  | mapping (tag : Tag) (entries : List (Node × Node))
  /-- A node that this one stands in. -/
  | outer
  deriving Inhabited

namespace Node

/-- The tag of a node. -/
def tag : Node → Tag
  | scalar tag _ => tag
  | sequence tag _ => tag
  | mapping tag _ => tag
  | outer => .unknown

/-- What stands where nothing is written. -/
def empty : Node := .scalar .null ⟨0, ""⟩

mutual

/-- The text of a node. -/
def content? : Node → Option Content
  | scalar _ content => some content
  | sequence _ _ => none
  | mapping _ entries => mainContent? entries
  | outer => none
termination_by structural n => n

/-- The text of the main value among entries. -/
def mainContent? : List (Node × Node) → Option Content
  | [] => none
  | (key, n) :: rest => if key.tag = .value then n.content? else mainContent? rest
termination_by structural entries => entries

end

end Node

end Stencil.Yaml
