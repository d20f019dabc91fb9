import Stencil.Files.Path
import Stencil.Text.Quoted
import Stencil.Text.Utf8

/-!
# Disks

A disk is a tree of directories and files, seen from a current directory. A path is walked name by
name: `..` leads back to the directory that was entered last, and from the root nowhere else. The
empty name leads nowhere else from any directory.

* `readText_of_missing`: what cannot be read has no text.
-/

namespace Stencil

/-- What is on a disk under a name. -/
inductive Entry where
  | file (bytes : List UInt8)
  | directory (entries : List (String × Entry))

/-- What is on a disk, and the names that lead from its root to the current directory. -/
structure Disk where
  root : Entry
  current : List String

/-- Why a path leads to no file that can be read. -/
inductive FileReason where
  | missing
  | notDirectory
  | isDirectory
  /-- A name in the path is too long, or the path is. -/
  | nameTooLong
  /-- The path holds a character that no path can hold. -/
  | nul
  deriving DecidableEq, Repr

/-- The path that was asked for, and why it cannot be read. -/
structure FileFault where
  path : FilePath
  reason : FileReason
  deriving DecidableEq, Repr

/-- What is reported. -/
def FileFault.message (f : FileFault) : String :=
  let about (text : String) := text ++ ": " ++ String.ofList (Text.quote f.path.text.toList)
  match f.reason with
  | .missing => about "[Errno 2] No such file or directory"
  | .notDirectory => about "[Errno 20] Not a directory"
  | .isDirectory => about "[Errno 21] Is a directory"
  | .nameTooLong => about "[Errno 36] File name too long"
  | .nul => "embedded null byte"

/-- Why the text of a file cannot be read. -/
inductive ReadFault where
  | file (fault : FileFault)
  | text (fault : Text.Utf8Fault)
  deriving DecidableEq, Repr

/-- What is reported. -/
def ReadFault.message : ReadFault → String
  | file fault => fault.message
  | text fault => fault.message

namespace Disk

/-- How many bytes a name may have. -/
def maxNameLength : Nat := 255

/-- How many bytes a path may have. -/
def maxPathLength : Nat := 4095

/-- Where names lead to from an entry, given the directories that it lies in, innermost first. -/
def walk (above : List Entry) (here : Entry) : List String → Except FileReason Entry
  | [] => .ok here
  | name :: names =>
    match here with
    | .file _ => .error .notDirectory
    | .directory entries =>
      if name = ".." then
        match above with
        -- above the root is the root
        | [] => walk [] here names
        | outer :: above => walk above outer names
      else if name = "" then walk above here names
      else if maxNameLength < name.utf8ByteSize then .error .nameTooLong
      else
        match entries.lookup name with
        | none => .error .missing
        | some entry => walk (here :: above) entry names

/-- What a path leads to. -/
def find (disk : Disk) (p : FilePath) : Except FileReason Entry :=
  if p.names.any fun name => '\x00' ∈ name.toList then .error .nul
  else if maxPathLength < p.text.utf8ByteSize then .error .nameTooLong
  else
    match p.start with
    | .here => walk [] disk.root (disk.current ++ p.names)
    | _ => walk [] disk.root p.names

/-- What a path leads to, if it leads to anything. A name or a path that is too long is a fault all the
    same, as the disk refuses to look for it. -/
def find? (disk : Disk) (p : FilePath) : Except FileFault (Option Entry) :=
  match disk.find p with
  | .ok entry => .ok (some entry)
  | .error .nameTooLong => .error ⟨p, .nameTooLong⟩
  | .error _ => .ok none

/-- The path of the current directory. -/
def currentPath (disk : Disk) : FilePath :=
  ⟨.root, disk.current⟩

/-- The bytes of a file. -/
def read (disk : Disk) (p : FilePath) : Except FileFault (List UInt8) :=
  match disk.find p with
  | .ok (.file bytes) => .ok bytes
  | .ok (.directory _) => .error ⟨p, .isDirectory⟩
  | .error reason => .error ⟨p, reason⟩

/-- The text of a file, with every line ending in a line feed. -/
def readText (disk : Disk) (p : FilePath) : Except ReadFault (List Char) := do
  let bytes ← (disk.read p).mapError ReadFault.file
  let text ← (Text.decode bytes).mapError ReadFault.text
  return Text.unifyLines text

theorem readText_of_missing {disk : Disk} {p : FilePath} {fault : FileFault}
    (h : disk.read p = .error fault) : disk.readText p = .error (.file fault) := by
  rw [readText, h]
  rfl

end Disk

end Stencil
