import Stencil.Yaml.Cursor

/-!
# Block scalars

A block scalar is made of the lines below its header that are indented like the first of them. In
a literal one every line break stands for itself; in a folded one a line break between two lines
that start with no blank stands for a blank, or for nothing if empty lines follow it. The header
may give the indentation, and it says what becomes of the line breaks at the end: one is kept, or
none, or all.
-/

namespace Stencil.Yaml.Block

/-- What becomes of the line breaks at the end. -/
inductive Ending where
  | clip
  | strip
  | keep
  deriving DecidableEq, Repr

/-- The header of a block scalar. -/
structure Header where
  ending : Ending
  /-- How much deeper than what it belongs to the scalar is indented, if that is given. -/
  indentation : Option Nat

/-- The ending that a sign stands for. -/
def ending? (c : Char) : Option Ending :=
  if c = '+' then some .keep else if c = '-' then some .strip else none

/-- The sign and the digit of a header in either order, and the place behind them. -/
def readSigns (c : Cursor) : Header × Cursor :=
  match c.rest with
  | [] => (⟨.clip, none⟩, c)
  | a :: rest =>
    match ending? a, Text.asciiDigit? a with
    | some ending, _ =>
      match rest.head?.bind Text.asciiDigit? with
      | some n => (⟨ending, some n⟩, c.skip 2)
      | none => (⟨ending, none⟩, c.next)
    | none, some n =>
      match rest.head?.bind ending? with
      | some ending => (⟨ending, some n⟩, c.skip 2)
      | none => (⟨.clip, some n⟩, c.next)
    | none, none => (⟨.clip, none⟩, c)

/-- The header at a place, and the place where the next line starts. -/
def readHeader (c : Cursor) : Except Fault (Header × Cursor) :=
  let (header, c) := readSigns c
  if header.indentation = some 0 ∨ ¬endsField c.rest then .error (.token .blockHeader)
  else
    match c.skipEmptyLine? with
    | some c => .ok (header, c)
    | none => .error (.token .blockHeader)

/-- The line breaks of leading empty lines, the deepest column that blanks lead to, and the place
    behind them. -/
def readLeading : (fuel deepest : Nat) → Cursor → List Char × Nat × Cursor
  | 0, deepest, c => ([], deepest, c)
  | fuel + 1, deepest, c =>
    if c.rest.head? = some ' ' then readLeading fuel (max deepest c.next.column) c.next
    else
      match c.lineBreak? with
      | none => ([], deepest, c)
      | some (a, c) =>
        let (rest, deepest, c) := readLeading fuel deepest c
        (a :: rest, deepest, c)

/-- The place behind blanks, but not beyond a column. -/
def skipIndent (indent : Nat) : (fuel : Nat) → Cursor → Cursor
  | 0, c => c
  | fuel + 1, c =>
    if c.column < indent ∧ c.rest.head? = some ' ' then skipIndent indent fuel c.next else c

/-- The line breaks of empty lines, and the place where the next line of the scalar would start. -/
def readEmptyLines (indent : Nat) : (fuel : Nat) → Cursor → List Char × Cursor
  | 0, c => ([], c)
  | fuel + 1, c =>
    let c := skipIndent indent indent c
    match c.lineBreak? with
    | none => ([], c)
    | some (a, c) =>
      let (rest, c) := readEmptyLines indent fuel c
      (a :: rest, c)

/-- Whether a line starts with a blank or a tab. -/
def startsBlank (s : List Char) : Bool :=
  s.head? = some ' ' || s.head? = some '\t'

/-- What the line break between two lines stands for. -/
def fold (folded : Bool) (before after : List Char) (lineBreak : Option Char)
    (empty : List Char) : List Char :=
  if folded ∧ lineBreak = some '\n' ∧ ¬startsBlank before ∧ ¬startsBlank after then
    if empty.isEmpty then [' '] else []
  else lineBreak.toList

/-- What the line breaks at the end stand for. -/
def Ending.apply (ending : Ending) (lineBreak : Option Char) (empty : List Char) : List Char :=
  match ending with
  | clip => lineBreak.toList
  | strip => []
  | keep => lineBreak.toList ++ empty

/-- The lines from a place on, given the line break before it and the empty lines between. -/
def readLines (folded : Bool) (ending : Ending) (indent : Nat) :
    (fuel : Nat) → (lineBreak : Option Char) → (empty : List Char) → Cursor → List Char × Cursor
  | 0, lineBreak, empty, c => (ending.apply lineBreak empty, c)
  | fuel + 1, lineBreak, empty, c =>
    if c.column = indent ∧ ¬c.rest.isEmpty then
      let before := c.rest
      let (line, c) := c.restOfLine
      let lineBreak := c.lineBreak?.map Prod.fst
      let (following, c) := readEmptyLines indent c.rest.length c.skipLineBreak
      let (more, c') := readLines folded ending indent fuel lineBreak following c
      -- behind the last line the header decides, and not the folding
      let between :=
        if c.column = indent ∧ ¬c.rest.isEmpty then fold folded before c.rest lineBreak following
        else []
      (empty ++ line ++ between ++ more, c')
    else (ending.apply lineBreak empty, c)

/-- The scalar whose header starts behind a place, and the place behind it. -/
def read (folded : Bool) (outer : Int) (c : Cursor) : Except Fault (List Char × Cursor) := do
  let (header, c) ← readHeader c.next
  let least := max (outer + 1) 1
  match header.indentation with
  | some n =>
    let indent := (least + n - 1).toNat
    let (empty, c) := readEmptyLines indent (c.rest.length + 1) c
    return readLines folded header.ending indent (c.rest.length + 1) none empty c
  | none =>
    let (empty, deepest, c) := readLeading (c.rest.length + 1) 0 c
    let indent := max least.toNat deepest
    return readLines folded header.ending indent (c.rest.length + 1) none empty c

end Stencil.Yaml.Block
