import Stencil.Text.Search

/-!
# Paths of files

A path is a list of names from a place on: from the current directory, or from the root, which is
written with one slash or with two. Empty names and the name `.` say nothing and are dropped; `..`
stays, as only the disk can tell where it leads.
-/

namespace Stencil

/-- Where a path starts. -/
inductive PathStart where
  /-- At the current directory. -/
  | here
  /-- At the root, written with one slash. -/
  | root
  /-- At the root, written with two slashes. -/
  | doubleRoot
  deriving DecidableEq, Repr

/-- How a start is written. -/
def PathStart.text : PathStart → String
  | here => ""
  | root => "/"
  | doubleRoot => "//"

/-- A path. -/
structure FilePath where
  start : PathStart
  names : List String
  deriving DecidableEq, Repr

namespace FilePath

/-- Where a written path starts: exactly two slashes differ from one and from more. -/
def startOf (s : List Char) : PathStart :=
  match (s.takeWhile (· = '/')).length with
  | 0 => .here
  | 2 => .doubleRoot
  | _ => .root

/-- Whether a name between two slashes says something. -/
def isName (name : List Char) : Bool :=
  name != [] && name != ['.']

/-- The path that a text writes. -/
def ofString (s : String) : FilePath where
  start := startOf s.toList
  names := ((Text.fields '/' s.toList).filter isName).map String.ofList

/-- A path as it is written. -/
def text (p : FilePath) : String :=
  match p.start, p.names with
  | .here, [] => "."
  | start, names => start.text ++ "/".intercalate names

/-- The path that leads along one path and then along another. -/
def join (base p : FilePath) : FilePath :=
  match p.start with
  | .here => ⟨base.start, base.names ++ p.names⟩
  | _ => p

/-- The path to something in a directory. -/
def child (p : FilePath) (name : String) : FilePath :=
  ⟨p.start, p.names ++ [name]⟩

/-- The last name of a path; empty if there is none. -/
def name (p : FilePath) : String :=
  p.names.getLastD ""

/-- A name before its last dot, and the dot with what follows it. A dot at either end of the name
    does not count. -/
def splitName (name : List Char) : List Char × List Char :=
  let last := (name.reverse.takeWhile (· ≠ '.')).reverse
  let before := name.take (name.length - last.length - 1)
  if last = [] ∨ before = [] then (name, []) else (before, '.' :: last)

/-- The last name without its suffix. -/
def stem (p : FilePath) : String :=
  String.ofList (splitName p.name.toList).1

/-- The suffix of the last name, with its dot; empty if it has none. -/
def suffix (p : FilePath) : String :=
  String.ofList (splitName p.name.toList).2

end FilePath

end Stencil
