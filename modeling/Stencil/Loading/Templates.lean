import Stencil.Loading.Basic
import Stencil.Registry

/-!
# Templates from files

A file of markup is a template under the name of the file without its suffix, and it defines the
templates of its `<template>` elements besides. A directory holds one template in every file that a
pattern selects. Of templates with the same name the last one counts: files in the order of their
paths, sources in the order in which they are given, and a document after all sources.
-/

namespace Stencil

/-- The registry with a file's template and then with those that it defines. -/
def Registry.addFile (registry : Registry) (path : FilePath) (tree : Node) : Registry :=
  Registry.update (registry.insert path.stem tree) (Registry.ofDocument tree)

/-- The pattern that selects the templates of a directory. -/
def templatePattern : String := "*.html"

namespace Disk

/-- The tree of a text of markup. -/
def parseTemplate (text : List Char) : Except LoadFault Node :=
  ((Node.parse (String.ofList text)).map Node.fragment).mapError (LoadFault.evaluation ∘ Failure.markup)

/-- The tree of a file of markup. -/
def loadTemplate (disk : Disk) (path : FilePath) : Except LoadFault Node := do
  parseTemplate (← (disk.readText path).mapError LoadFault.read)

/-- The registry with the templates of files. A file that cannot be read is passed over. -/
def loadFiles (disk : Disk) (registry : Registry) : List FilePath → Loading Registry
  | [] => pure registry
  | path :: paths =>
    match disk.readText path with
    | .error fault => do
      Loading.warn path fault
      loadFiles disk registry paths
    | .ok text => do
      let tree ← Loading.ofExcept (parseTemplate text)
      loadFiles disk (registry.addFile path tree) paths

/-- The templates of a directory; none if it is no directory. -/
def loadDirectory (disk : Disk) (path : FilePath) (pattern : String) : Loading Registry := do
  match ← Loading.ofExcept ((disk.find? path).mapError (LoadFault.read ∘ ReadFault.file)) with
  | some (.directory _) =>
    let files ← Loading.ofExcept ((Glob.files disk path pattern).mapError LoadFault.pattern)
    loadFiles disk .empty files
  | _ => pure .empty

/-- The registry with the templates of a file or a directory. -/
def loadSource (disk : Disk) (registry : Registry) (source : String) : Loading Registry := do
  let path := FilePath.ofString source
  match ← Loading.ofExcept ((disk.find? path).mapError (LoadFault.read ∘ ReadFault.file)) with
  | some (.directory _) => return registry.update (← disk.loadDirectory path templatePattern)
  | some (.file _) => return registry.addFile path (← Loading.ofExcept (disk.loadTemplate path))
  | none => Loading.ofExcept (.error (.sourceNotFound path))

/-- The registry with the templates of sources, in order. -/
def loadSources (disk : Disk) (registry : Registry) : List String → Loading Registry
  | [] => pure registry
  | source :: sources => do
    let registry ← disk.loadSource registry source
    loadSources disk registry sources

/-- The registry of sources and of the definitions of a document. -/
def loadRegistry (disk : Disk) (sources : List String) (document : Option Node) :
    Loading Registry := do
  let registry ← disk.loadSources .empty sources
  match document with
  | none => return registry
  | some document => return registry.update (Registry.ofDocument document)

end Disk

end Stencil
