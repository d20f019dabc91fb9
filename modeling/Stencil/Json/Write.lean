import Stencil.Text.Quoted

/-!
# Writing JSON

A document is written in one line, with a blank after every comma and colon, or in lines that are
indented by two blanks a level, a container without elements staying in its line. Quotes,
backslashes and control characters are escaped; all other characters stand for themselves.
-/

namespace Stencil

/-- A document. -/
inductive JsonDocument where
  | bool (b : Bool)
  | text (s : String)
  | list (items : List JsonDocument)
  | object (members : List (String × JsonDocument))

namespace JsonDocument

/-- The characters that are escaped by a character of their own, with that one. -/
def escapes : List (Char × Char) :=
  Text.controlLetters ++ [('"', '"'), ('\\', '\\'), ('\x08', 'b'), ('\x0c', 'f')]

/-- A character inside a text. -/
def escapeChar (c : Char) : List Char :=
  match escapes.lookup c with
  | some letter => ['\\', letter]
  | none => if c.toNat < 0x20 then '\\' :: 'u' :: Text.hex 4 c.toNat else [c]

/-- A text in quotes. -/
def quoted (s : String) : String :=
  "\"" ++ String.ofList (s.toList.flatMap escapeChar) ++ "\""

mutual

/-- A document in one line. -/
def line : JsonDocument → String
  | bool b => if b then "true" else "false"
  | text s => quoted s
  | list items => "[" ++ ", ".intercalate (lineItems items) ++ "]"
  | object members => "\x7b" ++ ", ".intercalate (lineMembers members) ++ "\x7d"
termination_by structural d => d

/-- The elements of a list, each in one line. -/
def lineItems : List JsonDocument → List String
  | [] => []
  | d :: ds => line d :: lineItems ds
termination_by structural ds => ds

/-- The members of an object, each in one line. -/
def lineMembers : List (String × JsonDocument) → List String
  | [] => []
  | (name, d) :: rest => (quoted name ++ ": " ++ line d) :: lineMembers rest
termination_by structural members => members

end

/-- Texts between two brackets, each in a line of its own, at a level of indentation. -/
def block (level : Nat) (opening closing : String) (texts : List String) : String :=
  let newline (level : Nat) := "\n".pushn ' ' (2 * level)
  if texts.isEmpty then opening ++ closing
  else
    opening ++ newline (level + 1) ++ ("," ++ newline (level + 1)).intercalate texts ++
      newline level ++ closing

mutual

/-- A document in lines, the first of which stands at a level of indentation. -/
def lines (level : Nat) : JsonDocument → String
  | bool b => if b then "true" else "false"
  | text s => quoted s
  | list items => block level "[" "]" (linesItems (level + 1) items)
  | object members => block level "\x7b" "\x7d" (linesMembers (level + 1) members)
termination_by structural d => d

/-- The elements of a list in lines. -/
def linesItems (level : Nat) : List JsonDocument → List String
  | [] => []
  | d :: ds => lines level d :: linesItems level ds
termination_by structural ds => ds

/-- The members of an object in lines. -/
def linesMembers (level : Nat) : List (String × JsonDocument) → List String
  | [] => []
  | (name, d) :: rest => (quoted name ++ ": " ++ lines level d) :: linesMembers level rest
termination_by structural members => members

end

end JsonDocument

end Stencil
