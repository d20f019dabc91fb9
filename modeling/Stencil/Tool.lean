import Stencil.Condition
import Stencil.Expansion
import Stencil.Issue
import Stencil.Json.Write
import Stencil.Markup.Node.TableTags

/-!
# Tools

The library can be called as four tools, which work on texts and values instead of files and answer
with a document in JSON. Errors of templates are answers too; all other failures are not.
-/

namespace Stencil

namespace Tool

/-- The answer to an error of a template. -/
def errorDocument (e : TemplateError) : JsonDocument :=
  .object [("error", .text e.message), ("kind", .text e.kind)]

/-- An evaluation that answers errors of templates. -/
def answering (x : Evaluation JsonDocument) : Evaluation JsonDocument :=
  match x.outcome with
  | .error (.template e) => ⟨.ok (errorDocument e), x.trace⟩
  | _ => x

/-- The data that a tool was given. What counts as false is the empty mapping. -/
def dataOf (v : Value) : Value :=
  if v.truthy then v else .map []

/-- The tree of a text of markup. -/
def parse (text : String) : Evaluation Node := do
  return .fragment (← Evaluation.ofMarkup (Node.parse text))

/-- The registry with templates that are given as texts. -/
def registerAll (registry : Registry) : List (String × String) → Evaluation Registry
  | [] => pure registry
  | (id, text) :: rest => do
    let tree ← parse text
    registerAll (registry.insert id tree) rest

/-- The registry of what a page defines and of the templates that are given besides. -/
def registryOf (template : String) (templates : List (String × String)) : Evaluation Registry := do
  registerAll (Registry.ofDocument (← parse template)) templates

/-- The tool that renders a page. -/
def render (host : Host) (template : String) (data : Value) (templates : List (String × String))
    (tableTags : Bool) : Evaluation JsonDocument :=
  answering do
    let registry ← registryOf template templates
    let page := (← parse template).stripDefinitions
    let nodes ← Expansion.expand ⟨host, some registry, .standard⟩ (.tree page) (dataOf data)
    let result := Node.fragment nodes
    let result := if tableTags then result.renameTableTags else result
    return .object [("html", .text result.markup)]

/-- An issue as a part of an answer. -/
def issueDocument (i : Issue) : JsonDocument :=
  .object [("level", .text i.level.name), ("tag", .text i.tag), ("message", .text i.message)]

/-- The tool that checks a page. -/
def check (template : String) (templates : List (String × String)) : Evaluation JsonDocument := do
  let registry ← registryOf template templates
  let issues := Issue.ofTemplate (some registry) (← parse template)
  return .object
    [("ok", .bool !Issue.hasErrors issues), ("issues", .list (issues.map issueDocument))]

/-- The tool that evaluates a condition. -/
def evaluate (host : Host) (condition : String) (data : Value) : Evaluation JsonDocument :=
  answering do
    return .object [("result", .bool (← Condition.evaluate host condition.toList (dataOf data)))]

/-- The tool that resolves a path. -/
def resolve (host : Host) (path : String) (data : Value) : Evaluation JsonDocument :=
  answering do
    let v ← Path.resolve host path.toList (dataOf data)
    return .object [("value", .text (← Evaluation.ofNumber v.render))]

end Tool

end Stencil
