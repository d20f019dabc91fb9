import Stencil.Text.Halves
import Stencil.Yaml.Cursor

/-!
# Quoted scalars

Between quotes a line break stands for a blank, and a line break with empty lines after it for
those; blanks around a line break are dropped. Between single quotes two of them stand for one.
Between double quotes a backslash starts an escape: a letter for a control character, a number for
any character, or a line break, which is dropped. A number may be that of a half of a character.
-/

namespace Stencil.Yaml.Quoted

/-- What a letter after a backslash stands for. -/
def escaped? (c : Char) : Option Char :=
  let table : List (Char × Char) :=
    [('0', '\x00'), ('a', '\x07'), ('b', '\x08'), ('t', '\t'), ('\t', '\t'), ('n', '\n'),
      ('v', '\x0b'), ('f', '\x0c'), ('r', '\r'), ('e', '\x1b'), (' ', ' '), ('"', '"'),
      ('\\', '\\'), ('/', '/'), ('N', '\x85'), ('_', '\xA0'), ('L', '\u2028'), ('P', '\u2029')]
  table.lookup c

/-- How many digits follow a letter that starts an escape by number. -/
def digitCount? (c : Char) : Option Nat :=
  if c = 'x' then some 2 else if c = 'u' then some 4 else if c = 'U' then some 8 else none

/-- The character that an escape by number writes, or what is kept for a half of one. -/
def readNumber (halves : Halves) (count : Nat) (c : Cursor) : Except Fault (Char × Cursor) :=
  match (c.rest.take count).mapM Text.hexDigit? with
  | none => .error (.token .escape)
  | some digits =>
    let n := Text.ofDigits 16 digits
    if digits.length < count then .error (.token .escape)
    else if 0x110000 ≤ n then .error (.noCharacter n)
    else .ok (halves.charOf n, c.skip count)

/-- The line breaks of empty lines, and the place where the text goes on. -/
def readEmptyLines : (fuel : Nat) → Cursor → Except Fault (List Char × Cursor)
  | 0, c => .ok ([], c)
  | fuel + 1, c =>
    if c.isMarker then .error (.token .markerInQuotes)
    else
      let c := (c.run fun a => a = ' ' || a = '\t').2
      match c.lineBreak? with
      | none => .ok ([], c)
      | some (a, c) => do
        let (rest, c) ← readEmptyLines fuel c
        return (a :: rest, c)

/-- What the blanks and line breaks at a place stand for. -/
def readGap (c : Cursor) : Except Fault (List Char × Cursor) :=
  let (blanks, c) := c.run fun a => a = ' ' || a = '\t'
  match c.lineBreak? with
  | none => if c.rest.isEmpty then .error (.token .unclosedQuote) else .ok (blanks, c)
  | some (a, c) => do
    let (empty, c) ← readEmptyLines (c.rest.length + 1) c
    return ((if a != '\n' then [a] else if empty.isEmpty then [' '] else []) ++ empty, c)

/-- What a backslash and what follows it stand for. The place is behind the backslash. -/
def readEscape (halves : Halves) (c : Cursor) : Except Fault (List Char × Cursor) :=
  match c.rest with
  | [] => .error (.token .escape)
  | a :: _ =>
    match escaped? a, digitCount? a, c.lineBreak? with
    | some b, _, _ => .ok ([b], c.next)
    | none, some count, _ => do
      let (b, c) ← readNumber halves count c.next
      return ([b], c)
    | none, none, some (_, c) => readEmptyLines (c.rest.length + 1) c
    | none, none, none => .error (.token .escape)

/-- The text from a place behind an opening quote to the closing one, and the place behind that. -/
def readRest (halves : Halves) (quote : Char) :
    (fuel : Nat) → Cursor → Except Fault (List Char × Cursor)
  | 0, _ => .error (.token .unclosedQuote)
  | fuel + 1, c =>
    match c.rest with
    | [] => .error (.token .unclosedQuote)
    | a :: rest =>
      if a = quote then
        -- two single quotes are one, and do not close
        if a = '\x27' ∧ rest.head? = some '\x27' then do
          let (more, c) ← readRest halves quote fuel (c.skip 2)
          return (a :: more, c)
        else .ok ([], c.next)
      else if a = '\\' ∧ quote = '"' then do
        let (here, c) ← readEscape halves c.next
        let (more, c) ← readRest halves quote fuel c
        return (here ++ more, c)
      else if a = ' ' ∨ a = '\t' ∨ isLineBreak a then do
        let (here, c) ← readGap c
        let (more, c) ← readRest halves quote fuel c
        return (here ++ more, c)
      else do
        let (more, c) ← readRest halves quote fuel c.next
        return (a :: more, c)

/-- The scalar whose opening quote is at a place, and the place behind it. -/
def read (halves : Halves) (c : Cursor) : Except Fault (List Char × Cursor) :=
  match c.rest with
  | [] => .error (.token .unclosedQuote)
  | quote :: rest => readRest halves quote (rest.length + 1) c.next

end Stencil.Yaml.Quoted
