import Stencil.Error
import Stencil.Markup.Node.Basic
import Stencil.Text.Search

/-!
# Directives

Four tags direct the expansion of a template: `<repeat for="x of xs">`, `<if cond="...">`,
`<else>` and `<insert template="id">`. Every other node is plain.
-/

namespace Stencil

/-- What a node directs. -/
inductive Directive where
  | repetition (binding source : String) (body : List Node)
  | conditional (condition : String) (body : List Node)
  | alternative (body : List Node)
  | insertion (id : String)
  | plain

namespace Directive

/-- The tag of a repetition. -/
def repeatTag : String := "repeat"

/-- The tag of a conditional. -/
def ifTag : String := "if"

/-- The tag of the alternative of a conditional. -/
def elseTag : String := "else"

/-- The tag of an insertion. -/
def insertTag : String := "insert"

/-- The variable and the source of a repetition, from its attribute `x of xs`. -/
def parseRepeat (attr : List Char) : Except TemplateError (String × String) :=
  match Text.cut [' ', 'o', 'f', ' '] attr with
  | none => .error (.badRepeat (String.ofList attr))
  | some (before, after) =>
    match Text.trim before, Text.trim after with
    | [], _ => .error (.badRepeat (String.ofList attr))
    | _, [] => .error (.badRepeat (String.ofList attr))
    | binding, source => .ok (String.ofList binding, String.ofList source)

/-- The value of an attribute that an element must have. -/
def require (tag : String) (attrs : Attributes) (name : String) : Except TemplateError String :=
  match attrs.get? name with
  | none => .error (.missingAttribute tag name)
  | some value => if value = "" then .error (.missingAttribute tag name) else .ok value

/-- The directive that a node is. -/
def classify : Node → Except TemplateError Directive
  | .element tag attrs children _ =>
    if tag = repeatTag then do
      let (binding, source) ← parseRepeat (← require tag attrs "for").toList
      return repetition binding source children
    else if tag = ifTag then do
      return conditional (← require tag attrs "cond") children
    else if tag = elseTag then
      return alternative children
    else if tag = insertTag then do
      return insertion (← require tag attrs "template")
    else return plain
  | _ => return plain

/-- The tags of the directives. -/
def tags : List String := [repeatTag, ifTag, elseTag, insertTag]

end Directive

end Stencil
