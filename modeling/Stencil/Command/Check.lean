import Stencil.Command.Options
import Stencil.Command.Report
import Stencil.Issue
import Stencil.Loading.Data
import Stencil.Loading.Templates

/-!
# Checking a file

The issues of a file of markup and of every template that is loaded with it are listed, or those of
one template alone. The page is listed under the name it was given as, unless a template has that
name: then the template stands in its place. The command fails if there is an error among the
issues.
-/

namespace Stencil

namespace Command

/-- How the command is used. -/
def checkUsage : String := "Usage: markfill check <template> [--id ID] [--templates PATH]"

/-- What is checked: a template that was chosen, or the page and all templates. -/
def checkTargets (name : String) (document : Node) (registry : Registry) (id : Option String) :
    Except String (OrderedMap String Node) :=
  match id.filter (· ≠ "") with
  | none => .ok ((OrderedMap.empty.insert name document.stripDefinitions).insertAll registry.entries)
  | some id =>
    match registry.get? id with
    | some tree => .ok (OrderedMap.empty.insert id tree)
    | none => .error ("Template with id \"" ++ id ++ "\" does not exist.")

/-- What was checked, with its issues. -/
abbrev Checked := List (String × List Issue)

/-- The issues of all that is checked. -/
def checkAll (targets : OrderedMap String Node) (registry : Registry) : Checked :=
  targets.entries.map fun (name, tree) => (name, Issue.ofTemplate (some registry) tree)

/-- Whether there is an error among the issues. -/
def isFailed (checked : Checked) : Bool :=
  checked.any fun (_, issues) => Issue.hasErrors issues

/-- The lines on what was checked. -/
def checkLines (name : String) (issues : List Issue) : List String :=
  let verdict :=
    if Issue.hasErrors issues then Report.crossMark ++ " \"" ++ name ++ "\" failed validation:"
    else Report.checkMark ++ " \"" ++ name ++ "\" ok"
  verdict :: if issues.isEmpty then [] else [Issue.report issues]

/-- The report on all that was checked. -/
def checkReport (checked : Checked) : Report :=
  let texts := checked.flatMap fun (name, issues) => checkLines name issues
  ⟨if isFailed checked then 1 else 0, texts, ""⟩

/-- A page and the templates that are loaded with it. -/
def loadPage (platform : Platform) (disk : Disk) (path : FilePath) (sources : List String) :
    Loading (Node × Registry) := do
  let config ← Loading.ofExcept (disk.loadConfig platform disk.currentPath)
  let document ← Loading.ofExcept (disk.loadTemplate path)
  let registry ← disk.loadRegistry (config.templates ++ sources) (some document)
  return (document, registry)

/-- The report on a page that was loaded. -/
def checkPage (name : String) (id : Option String) (page : Node × Registry) : Report :=
  match checkTargets name page.1 page.2 id with
  | .ok targets => checkReport (checkAll targets page.2)
  | .error text => .refusal (Report.crossMark ++ " " ++ text)

/-- The command that checks a file. -/
def check (platform : Platform) (disk : Disk) (args : List String) : Except LoadFault Report :=
  match Options.parse args with
  | .error fault => .ok (.refusal fault.message)
  | .ok o =>
    match o.positional with
    | [name] => do
      let path := disk.currentPath.join (.ofString name)
      match ← (disk.find? path).mapError (LoadFault.read ∘ ReadFault.file) with
      | none => return .refusal ("Template file not found: " ++ path.text)
      | some _ =>
        Report.ofLoading (fun _ => none) (loadPage platform disk path (o.values .templates))
          fun page => .ok (checkPage name (o.last? .id) page)
    | _ => .ok (.refusal checkUsage)

end Command

end Stencil
