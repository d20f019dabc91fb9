import Stencil.Files.Disk

/-!
# Patterns of paths

A pattern selects paths in a directory. It is a path itself: a name with `*`, `?` or brackets in it
stands for every name that it matches, also for one that starts with a dot, and any other name for
itself. A pattern that ends in a slash selects directories only.
-/

namespace Stencil

/-- Why a text is no pattern. -/
inductive PatternFault where
  | empty
  /-- The pattern starts at the root. -/
  | rooted
  /-- The pattern has no name. -/
  | nameless
  deriving DecidableEq, Repr

/-- What is reported. -/
def PatternFault.message : PatternFault → String
  | empty => "Unacceptable pattern: \x27\x27"
  | rooted => "Non-relative patterns are unsupported"
  | nameless => "tuple index out of range"

/-- A piece of a pattern of names. -/
inductive GlobPiece where
  | char (c : Char)
  | any
  | star
  /-- One character out of ranges, or out of none of them. -/
  | oneOf (negated : Bool) (ranges : List (Char × Char))
  deriving DecidableEq, Repr

/-- Whether a piece other than a star stands for a character. -/
def GlobPiece.admits (piece : GlobPiece) (c : Char) : Bool :=
  match piece with
  | .char d => c == d
  | .any => true
  | .star => false
  | .oneOf negated ranges =>
    negated != ranges.any fun (first, last) => first.toNat ≤ c.toNat && c.toNat ≤ last.toNat

namespace Glob

/-- The ranges between two brackets; a character alone is a range of its own. -/
def readRanges : List Char → List (Char × Char)
  | c :: '-' :: d :: s => (c, d) :: readRanges s
  | c :: s => (c, c) :: readRanges s
  | [] => []

/-- What stands in brackets after the opening one, and the rest. A closing bracket that comes
    first does not close. -/
def readBrackets? (s : List Char) : Option (GlobPiece × List Char) :=
  let (negated, s) :=
    match s with
    | '!' :: s => (true, s)
    | s => (false, s)
  let (first, s) :=
    match s with
    | ']' :: s => ([']'], s)
    | s => ([], s)
  (Text.cutAt ']' s).map fun (inside, rest) => (.oneOf negated (readRanges (first ++ inside)), rest)

/-- The pieces of a pattern, at most `fuel` of them. -/
def readPieces : (fuel : Nat) → List Char → List GlobPiece
  | 0, _ => []
  | _ + 1, [] => []
  | fuel + 1, '*' :: s => .star :: readPieces fuel s
  | fuel + 1, '?' :: s => .any :: readPieces fuel s
  | fuel + 1, '[' :: s =>
    match readBrackets? s with
    | some (piece, rest) => piece :: readPieces fuel rest
    | none => .char '[' :: readPieces fuel s
  | fuel + 1, c :: s => .char c :: readPieces fuel s

/-- Whether a star followed by something matches a name, given what matches that. -/
def matchesStar (rest : List Char → Bool) : List Char → Bool
  | [] => rest []
  | c :: s => rest (c :: s) || matchesStar rest s

/-- Whether pieces match a name. -/
def matchesPieces : List GlobPiece → List Char → Bool
  | [], s => s.isEmpty
  | .star :: pieces, s => matchesStar (matchesPieces pieces) s
  | _ :: _, [] => false
  | piece :: pieces, c :: s => piece.admits c && matchesPieces pieces s

/-- Whether a name in a pattern stands for others than itself. -/
def isPattern (name : String) : Bool :=
  name.toList.any fun c => c = '*' || c = '?' || c = '['

/-- The entries of a directory that a name in a pattern stands for. -/
def selectNames (name : String) (entries : List (String × Entry)) : List (String × Entry) :=
  let pieces := readPieces name.length name.toList
  entries.filter fun (other, _) => matchesPieces pieces other.toList

/-- The paths below a path that the names of a pattern select. -/
def select (disk : Disk) : (names : List String) → (p : FilePath) → List FilePath
  | [], p => [p]
  | name :: names, p =>
    let below :=
      if isPattern name then
        match disk.find p with
        | .ok (.directory entries) => (selectNames name entries).map Prod.fst
        | _ => []
      else [name]
    let kept := (below.map p.child).filter fun q =>
      match disk.find q with
      | .ok (.directory _) => true
      | .ok (.file _) => names.isEmpty
      | .error _ => false
    kept.flatMap (select disk names)

/-- Whether a path comes before another one or is the same: name by name, character by
    character. -/
def sorted (p q : FilePath) : Bool :=
  !decide (q.names < p.names)

/-- The names of a pattern. Behind a slash at its end stands an empty one, which only leads on from
    a directory. -/
def patternNames (pattern : String) : List String :=
  (FilePath.ofString pattern).names ++ if pattern.toList.getLast? == some '/' then [""] else []

/-- The paths in a directory that a pattern selects, in order. -/
def files (disk : Disk) (directory : FilePath) (pattern : String) :
    Except PatternFault (List FilePath) :=
  let names := patternNames pattern
  if pattern = "" then .error .empty
  else if (FilePath.ofString pattern).start ≠ .here then .error .rooted
  else if names = [] then .error .nameless
  else .ok ((select disk names directory).mergeSort sorted)

end Glob

end Stencil
