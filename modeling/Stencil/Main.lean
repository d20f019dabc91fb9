import Stencil.Command.Run
import Stencil.Yaml.Read

/-!
# The program

The command line is run on a picture of the disk: the current directory with all that is in it, and
what the arguments and the configuration name outside of it. What the command leaves behind is
printed, and its exit code is the program's.
-/

namespace Stencil

namespace Program

/-- The entries with an entry put where names lead to. -/
def put (entry : Entry) : (names : List String) → List (String × Entry) → List (String × Entry)
  | [], entries => entries
  | name :: names, entries =>
    let inside :=
      match entries.lookup name with
      | some (.directory inside) => inside
      | _ => []
    let entry := if names.isEmpty then entry else .directory (put entry names inside)
    (name, entry) :: entries.filter (·.1 ≠ name)

/-- The entry that an absolute path leads to, with all that is in it. -/
partial def readEntry (path : String) : IO Entry := do
  let place ← IO.FS.realPath path
  if ← place.isDir then
    let entries ← (← place.readDir).toList.mapM fun e => do
      return (e.fileName, ← readEntry e.path.toString)
    return .directory entries
  else return .file (← IO.FS.readBinFile place).toList

/-- The names of an absolute path, with the steps back taken. -/
def straighten (names : List String) : List String :=
  (names.foldl (fun back name => if name = ".." then back.drop 1 else name :: back) []).reverse

/-- The picture with what a path leads to, if there is anything. -/
def include? (disk : Disk) (text : String) : IO Disk := do
  let path := disk.currentPath.join (.ofString text)
  let known := (disk.find path).toOption.isSome
  let found ← (readEntry path.text).toBaseIO
  match disk.root, found with
  | .directory entries, .ok entry =>
    if known then return disk
    else return { disk with root := .directory (put entry (straighten path.names) entries) }
  | _, _ => return disk

/-- The picture of the current directory. -/
def currentDisk : IO Disk := do
  let current := (← IO.currentDir).toString
  let names := (FilePath.ofString current).names
  return ⟨.directory (put (← readEntry current) names []), names⟩

/-- The paths that arguments may name. -/
def pathsIn (args : List String) : List String :=
  args.flatMap fun arg => [arg, String.ofList (((Text.cutAt '=' arg.toList).map Prod.snd).getD [])]

/-- The picture that a command needs. -/
def diskFor (args : List String) : IO Disk := do
  let disk ← (pathsIn args).foldlM include? (← currentDisk)
  match disk.loadConfig .standard disk.currentPath with
  | .ok config => (config.templates ++ config.data.toList).foldlM include? disk
  | .error _ => return disk

end Program

end Stencil

/-- The program. -/
def main (args : List String) : IO UInt32 := do
  match Stencil.Command.execute .standard (← Stencil.Program.diskFor args) args with
  | .ok report =>
    IO.print report.output
    IO.eprint report.errors
    return UInt32.ofNat report.exitCode
  | .error fault =>
    IO.eprintln fault.message
    return 1
