import Stencil.Command.Options
import Stencil.Command.Report
import Stencil.Expansion
import Stencil.Loading.Data
import Stencil.Loading.Templates
import Stencil.Markup.Node.TableTags

/-!
# Rendering a file

A file of markup is expanded with the data of a file. What is not asked for is taken from the
configuration of the current directory. The page itself is rendered without the templates that it
defines, or one template in its place.
-/

namespace Stencil

/-- A request to render a file. -/
structure RenderRequest where
  template : String
  data : Option String
  /-- The template that is rendered in place of the whole file. -/
  id : Option String
  /-- The sources of templates besides those of the configuration. -/
  sources : List String
  tableTags : Option Bool

/-- What was chosen, if it is more than an empty text. -/
def chosen? (s : Option String) : Option String :=
  s.filter (· ≠ "")

namespace Disk

/-- The data in a file that may have been chosen, starting from the current directory. -/
def loadChosenData (platform : Platform) (disk : Disk) (path : Option String) :
    Except LoadFault Context :=
  match chosen? path with
  | none => .ok []
  | some path => disk.loadData platform (disk.currentPath.join (.ofString path))

/-- The tree that is to be expanded. -/
def chooseTree (registry : Registry) (document : Node) (id : Option String) :
    Except LoadFault Node :=
  match chosen? id with
  | none => .ok document.stripDefinitions
  | some id =>
    match registry.get? id with
    | some tree => .ok tree
    | none => .error (.evaluation (.template (.templateNotFound id)))

/-- The markup that a file is rendered to. -/
def render (platform : Platform) (disk : Disk) (r : RenderRequest) : Loading String := do
  let config ← Loading.ofExcept (disk.loadConfig platform disk.currentPath)
  let path := disk.currentPath.join (.ofString r.template)
  let document ← Loading.ofExcept (disk.loadTemplate path)
  let registry ← disk.loadRegistry (config.templates ++ r.sources) (some document)
  let tree ← Loading.ofExcept (chooseTree registry document r.id)
  let data ← Loading.ofExcept (disk.loadChosenData platform (chosen? r.data <|> config.data))
  let nodes ← Loading.ofEvaluation
    (Expansion.expand ⟨.none, some registry, .standard⟩ (.tree tree) (.map data))
  let result := Node.fragment nodes
  return (if r.tableTags.getD config.tableTags then result.renameTableTags else result).markup

end Disk

namespace Command

/-- How the command is used. -/
def renderUsage : String :=
  "Usage: markfill render <template> [--data FILE] [--id ID] [--templates PATH] [--tables]"

/-- The command that renders a file. -/
def render (platform : Platform) (disk : Disk) (args : List String) : Except LoadFault Report :=
  match Options.parse args with
  | .error fault => .ok (.refusal fault.message)
  | .ok o =>
    match o.positional with
    | [template] =>
      let tableTags := if o.has .tables then some true else none
      let request : RenderRequest :=
        ⟨template, o.last? .data, o.last? .id, o.values .templates, tableTags⟩
      Report.ofLoading (fun e => some ("Render error (" ++ e.kind ++ "): " ++ e.message))
        (disk.render platform request) fun markup => .ok (.success [markup])
    | _ => .ok (.refusal renderUsage)

end Command

end Stencil
