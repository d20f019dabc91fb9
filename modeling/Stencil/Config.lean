import Stencil.Value.Equality
import Stencil.Value.Text

/-!
# Configurations

A configuration says where templates and data are found and whether table tags are renamed. It is a
mapping with three keys, some of which have other names as well; of two names for one key the last
in the mapping counts. All other keys are kept as they are.
-/

namespace Stencil

/-- A configuration. -/
structure Config where
  /-- Files and directories of templates. -/
  templates : List String
  /-- The file of the data, unless another one is asked for. -/
  data : Option String
  tableTags : Bool
  /-- All that is no part of a configuration. -/
  extra : Context

/-- Why a value is no configuration. -/
inductive ConfigFault where
  | notMapping
  | templates
  | data
  /-- A number in the list of templates cannot be written. -/
  | number (fault : NumberFault)
  deriving DecidableEq, Repr

/-- What is reported. -/
def ConfigFault.message : ConfigFault → String
  | notMapping => "Invalid config: expected a mapping"
  | templates => "Invalid config: \"templates\" must be a path or a list of paths"
  | data => "Invalid config: \"data\" must be a path"
  | number fault => fault.message

namespace Config

/-- What is configured where nothing is said. -/
def default : Config := ⟨[], none, false, []⟩

instance : Inhabited Config := ⟨default⟩

/-- The keys of a configuration. -/
def keys : List String := ["templates", "data", "table_tags"]

/-- The other names of keys. -/
def otherNames : List (String × String) :=
  [("partials", "templates"), ("template_dirs", "templates"), ("context", "data"),
    ("tables", "table_tags"), ("table-tags", "table_tags")]

/-- The key that a name stands for. -/
def keyOf (name : String) : String :=
  (otherNames.lookup name).getD name

/-- The entries of a configuration with the names of keys replaced by the keys. -/
def normalize (entries : Context) : Context :=
  Context.ofPairs (entries.map fun (k, v) =>
    match k with
    | .str name => (.str (keyOf name), v)
    | k => (k, v))

/-- The paths that a value lists. What counts as false lists none. -/
def listPaths? (v : Value) : Option (List Value) :=
  match v with
  | .str s => if s = "" then some [] else some [.str s]
  | .list items => some items
  | v => if v.truthy then none else some []

/-- The configuration of a mapping. -/
def ofEntries (entries : Context) : Except ConfigFault Config := do
  let entries := normalize entries
  let get (key : String) := (Context.get? entries key).getD .null
  let some paths := listPaths? (get "templates") | throw .templates
  let data ←
    match get "data" with
    | .null => pure none
    | .str s => pure (some s)
    | _ => throw .data
  let templates ← (paths.mapM Value.plain).mapError ConfigFault.number
  let isExtra (entry : Value × Value) : Bool :=
    match entry.1 with
    | .str name => !keys.contains name
    | _ => true
  return ⟨templates, data, (get "table_tags").truthy, entries.filter isExtra⟩

/-- The configuration that a value is. -/
def ofValue (v : Value) : Except ConfigFault Config :=
  match v with
  | .null => .ok default
  | .map entries => ofEntries entries
  | _ => .error .notMapping

end Config

end Stencil
