import Stencil.Yaml.Cursor

/-!
# Plain scalars

A scalar without quotes is made of words in the same line or in lines that are indented more than
what it belongs to. Blanks between two words stand for themselves, a line break for a blank, and a
line break with empty lines after it for those. A comment ends the scalar, and so do a colon that a
blank follows and, inside brackets, every character that brackets give a meaning to.
-/

namespace Stencil.Yaml.Plain

/-- Whether a colon before a text ends a plain scalar. -/
def endsKey (inBrackets : Bool) (s : List Char) : Bool :=
  endsWord s || (inBrackets && (match s with
    | c :: _ => c = ',' || c = '[' || c = ']' || c = '{' || c = '}'
    | [] => false))

/-- Whether a plain scalar ends before a character that a text follows. -/
def endsBefore (inBrackets : Bool) (c : Char) (s : List Char) : Bool :=
  endsWord (c :: s) || (c = ':' && endsKey inBrackets s) ||
    (inBrackets && (c = ',' || c = '?' || c = '[' || c = ']' || c = '{' || c = '}'))

/-- The word at the start of a text. -/
def readWord (inBrackets : Bool) : List Char → List Char
  | [] => []
  | c :: s => if endsBefore inBrackets c s then [] else c :: readWord inBrackets s

/-- The line breaks of empty lines, and the place where the next word starts; no place if a
    document starts or ends before that. -/
def readEmptyLines : (fuel : Nat) → Cursor → Option (List Char) × Cursor
  | 0, c => (some [], c)
  | fuel + 1, c =>
    let c := c.skipBlanks
    match c.lineBreak? with
    | none => (some [], c)
    | some (a, c) =>
      if c.isMarker then (none, c)
      else
        let (rest, c) := readEmptyLines fuel c
        (rest.map (a :: ·), c)

/-- What is between a word and the next one. -/
structure Gap where
  /-- What it stands for; nothing if there is no next word. -/
  text : List Char
  cursor : Cursor
  /-- Whether a line ends in it. -/
  breaks : Bool

/-- What is between the word that ends at a place and the next one. -/
def readGap (c : Cursor) : Gap :=
  let (blanks, c) := c.run (· = ' ')
  match c.lineBreak? with
  | none => ⟨blanks, c, false⟩
  | some (a, c) =>
    if c.isMarker then ⟨[], c, true⟩
    else
      match readEmptyLines c.rest.length c with
      | (none, c) => ⟨[], c, true⟩
      | (some empty, c) =>
        let folded := if a != '\n' then [a] else if empty.isEmpty then [' '] else []
        ⟨folded ++ empty, c, true⟩

/-- A plain scalar. -/
structure Scalar where
  text : List Char
  /-- The place behind it. -/
  cursor : Cursor
  /-- Whether a line ends between its last word and the place behind it. -/
  breaks : Bool

/-- The words of a scalar from a place on, given what is between the word before and that place. In
    brackets the indentation does not matter. -/
def readWords (inBrackets : Bool) (indent : Int) : (fuel : Nat) → Gap → Scalar
  | 0, gap => ⟨[], gap.cursor, gap.breaks⟩
  | fuel + 1, gap =>
    let word := readWord inBrackets gap.cursor.rest
    if word = [] ∨ gap.cursor.rest.head? = some '#' then ⟨[], gap.cursor, gap.breaks⟩
    else
      let after := readGap (gap.cursor.skip word.length)
      let here := gap.text ++ word
      -- without a blank or a line break behind it the word was the last one
      if after.text = [] ∨ (¬inBrackets ∧ (after.cursor.column : Int) < indent) then
        ⟨here, after.cursor, after.breaks⟩
      else
        let more := readWords inBrackets indent fuel after
        ⟨here ++ more.text, more.cursor, more.breaks⟩

/-- The scalar at a place. -/
def read (inBrackets : Bool) (indent : Int) (c : Cursor) : Scalar :=
  readWords inBrackets indent (c.rest.length + 1) ⟨[], c, false⟩

end Stencil.Yaml.Plain
