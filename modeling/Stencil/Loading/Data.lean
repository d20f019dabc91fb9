import Stencil.Loading.Basic

/-!
# Data and configurations from files

A file of data is read as JSON if its suffix says so and as YAML otherwise, which the platform has a
reader for, and must hold a mapping; one that holds nothing holds the empty one. The configuration of a
directory is in a file of a fixed name, and the paths in it start from that directory.
-/

namespace Stencil

/-- The name of the file of a configuration. -/
def configFile : String := "markfill.yaml"

/-- The suffix of files in JSON. -/
def jsonSuffix : String := ".json"

namespace Disk

/-- The mapping that the value of a file of data is. -/
def dataOf (path : FilePath) (v : Value) : Except LoadFault Context :=
  match v with
  | .null => .ok []
  | .map entries => .ok entries
  | _ => .error (.dataNotMapping path)

/-- The data in a file. -/
def loadData (platform : Platform) (disk : Disk) (path : FilePath) : Except LoadFault Context := do
  let text ← (disk.readText path).mapError LoadFault.read
  let v ←
    if path.suffix = jsonSuffix then (Json.read platform.halves text).mapError LoadFault.json
    else (platform.readYaml text).mapError LoadFault.yaml
  dataOf path v

/-- The configuration that a text writes. -/
def readConfig (platform : Platform) (text : List Char) : Except LoadFault Config := do
  let v ← (platform.readYaml text).mapError LoadFault.yaml
  (Config.ofValue v).mapError LoadFault.config

/-- The path that a text writes, starting from a directory, as a text. -/
def pathFrom (directory : FilePath) (text : String) : String :=
  (directory.join (.ofString text)).text

/-- The configuration of a directory; the defaults if it has none. -/
def loadConfig (platform : Platform) (disk : Disk) (directory : FilePath) :
    Except LoadFault Config := do
  let path := directory.child configFile
  match ← (disk.find? path).mapError (LoadFault.read ∘ ReadFault.file) with
  | none => return .default
  | some _ =>
    let config ← readConfig platform (← (disk.readText path).mapError LoadFault.read)
    let data := config.data.map fun s => if s = "" then s else pathFrom directory s
    return { config with templates := config.templates.map (pathFrom directory), data := data }

end Disk

end Stencil
