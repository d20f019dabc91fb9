import Stencil.Yaml.Basic

/-!
# Places in a document

The layout of a document carries meaning, so that its reader keeps the place where it stands: how
many characters and lines lie before it, and how many characters of its line. A line feed may
follow a carriage return without being a line break of its own, and a byte order mark takes no
room.
-/

namespace Stencil.Yaml

/-- A place in a document. -/
structure Cursor where
  /-- The text from the place on. -/
  rest : List Char
  index : Nat
  line : Nat
  column : Nat

namespace Cursor

/-- The place at the start of a text. -/
def start (s : List Char) : Cursor := ⟨s, 0, 0, 0⟩

/-- The place behind the next character. -/
def next (c : Cursor) : Cursor :=
  match c.rest with
  | [] => c
  | a :: rest =>
    if isLineBreak a ∧ ¬(a = '\r' ∧ rest.head? = some '\n') then
      ⟨rest, c.index + 1, c.line + 1, 0⟩
    else ⟨rest, c.index + 1, c.line, if a = '\uFEFF' then c.column else c.column + 1⟩

/-- The place behind some characters. -/
def skip (c : Cursor) : Nat → Cursor
  | 0 => c
  | n + 1 => c.next.skip n

/-- The longest run of characters of a kind, and the place behind it. -/
def run (c : Cursor) (kind : Char → Bool) : List Char × Cursor :=
  let s := c.rest.takeWhile kind
  (s, c.skip s.length)

/-- The place behind the next blanks. -/
def skipBlanks (c : Cursor) : Cursor :=
  (c.run (· = ' ')).2

/-- The rest of the line, and the place where the line ends. -/
def restOfLine (c : Cursor) : List Char × Cursor :=
  c.run fun a => !isLineBreak a

/-- The character that the next line break counts as, and the place behind it. -/
def lineBreak? (c : Cursor) : Option (Char × Cursor) :=
  match c.rest with
  | '\r' :: '\n' :: _ => some ('\n', c.skip 2)
  | a :: _ =>
    if a = '\u2028' ∨ a = '\u2029' then some (a, c.next)
    else if isLineBreak a then some ('\n', c.next)
    else none
  | [] => none

/-- The place behind the next line break, if there is one. -/
def skipLineBreak (c : Cursor) : Cursor :=
  match c.lineBreak? with
  | some (_, c) => c
  | none => c

/-- Whether three characters make up the next word. -/
def isWord (c : Cursor) (a : Char) : Bool :=
  match c.rest with
  | x :: y :: z :: rest => x = a && y = a && z = a && endsWord rest
  | _ => false

/-- Whether the next word marks the start or the end of a document. -/
def isMarker (c : Cursor) : Bool :=
  c.isWord '-' || c.isWord '.'

/-- The place behind blanks, a comment and the end of a line; absent if there is anything else in
    the line. -/
def skipEmptyLine? (c : Cursor) : Option Cursor :=
  let c := c.skipBlanks
  let c := if c.rest.head? = some '#' then c.restOfLine.2 else c
  if endsLine c.rest then some c.skipLineBreak else none

end Cursor

end Stencil.Yaml
