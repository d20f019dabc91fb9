import Stencil.Text.Utf8
import Stencil.Yaml.Cursor

/-!
# Tokens of YAML

A document is cut into tokens. Indentation is made explicit: a block starts with a token of its own
and ends with another one, so that what follows needs no places. Tags and directives are tokens with
parts, which are read here.
-/

namespace Stencil.Yaml

/-- A tag as it is written: a handle and what follows it, or what stands for itself. -/
structure WrittenTag where
  handle : Option String
  suffix : String
  deriving DecidableEq, Repr

/-- A directive. -/
inductive Directive where
  | version (major : Nat)
  | handle (name : String) (tagStart : String)
  | other
  deriving DecidableEq, Repr

/-- A token. -/
inductive Token where
  | directive (d : Directive)
  | documentStart
  | documentEnd
  | streamEnd
  /-- A block of elements starts. -/
  | sequenceStart
  /-- A block of entries starts. -/
  | mappingStart
  | blockEnd
  | openBracket
  | closeBracket
  | openBrace
  | closeBrace
  | comma
  /-- The dash before an element. -/
  | dash
  | key
  | value
  | alias (name : String)
  | anchor (name : String)
  | tag (t : WrittenTag)
  | scalar (plain : Bool) (text : String)
  deriving DecidableEq, Repr

/-! ### Names -/

/-- The name at a place, and the place behind it. -/
def readName? (c : Cursor) : Option (String × Cursor) :=
  match c.run isNameChar with
  | ([], _) => none
  | (name, c) => some (String.ofList name, c)

/-- The name of an anchor or an alias, behind its sign. -/
def readAnchor (c : Cursor) : Except Fault (String × Cursor) :=
  match readName? c with
  | none => .error (.token .anchor)
  | some (name, c) =>
    let follows :=
      match c.rest with
      | [] => true
      | a :: _ => endsWord c.rest || a ∈ ['?', ':', ',', ']', '}', '%', '@', '`']
    if follows then .ok (name, c) else .error (.token .anchor)

/-! ### Tags -/

/-- Whether a character can stand in a tag. -/
def isTagChar (c : Char) : Bool :=
  c.isAlphanum || c ∈ ['-', ';', '/', '?', ':', '@', '&', '=', '+', '$', ',', '_', '.', '!', '~',
    '*', '\x27', '(', ')', '[', ']', '%']

/-- The bytes that stand behind percent signs, each in two hexadecimal digits. -/
def escapedBytes? : List Char → Option (List UInt8 × List Char)
  | '%' :: a :: b :: s => do
    let n := Text.ofDigits 16 [← Text.hexDigit? a, ← Text.hexDigit? b]
    let (bytes, rest) ← escapedBytes? s
    return (UInt8.ofNat n :: bytes, rest)
  | '%' :: _ => none
  | s => some ([], s)

/-- The text in which the runs of escaped bytes are decoded. -/
def expandEscapes? : (fuel : Nat) → List Char → Option (List Char)
  | 0, s => some s
  | _ + 1, [] => some []
  | fuel + 1, c :: s =>
    if c = '%' then do
      let (bytes, rest) ← escapedBytes? (c :: s)
      let text ← (Text.decode bytes).toOption
      return text ++ (← expandEscapes? fuel rest)
    else (expandEscapes? fuel s).map (c :: ·)

/-- The text of a tag at a place, and the place behind it. -/
def readTagText (fault : Fault) (c : Cursor) : Except Fault (String × Cursor) :=
  match c.run isTagChar with
  | ([], _) => .error fault
  | (text, c) =>
    match expandEscapes? text.length text with
    | some text => .ok (String.ofList text, c)
    | none => .error fault

/-- The handle at a place: names between two exclamation marks, or one mark before a blank. -/
def readHandle (fault : Fault) (c : Cursor) : Except Fault (String × Cursor) :=
  match c.rest with
  | '!' :: ' ' :: _ => .ok ("!", c.next)
  | '!' :: _ =>
    let (name, c) := c.next.run isNameChar
    match c.rest with
    | '!' :: _ => .ok ("!" ++ String.ofList name ++ "!", c.next)
    | _ => .error fault
  | _ => .error fault

/-- The tag at a place. -/
def readTag (c : Cursor) : Except Fault (WrittenTag × Cursor) := do
  let fault := Fault.token .tag
  let (t, c) ←
    match c.rest.drop 1 with
    | '<' :: _ => do
      let (text, c) ← readTagText fault (c.skip 2)
      match c.rest with
      | '>' :: _ => pure (⟨none, text⟩, c.next)
      | _ => throw fault
    | rest =>
      if endsWord rest then pure (⟨none, "!"⟩, c.next)
      else if (rest.takeWhile fun a => !endsField [a]).contains '!' then do
        let (handle, c) ← readHandle fault c
        let (text, c) ← readTagText fault c
        pure (⟨some handle, text⟩, c)
      else do
        let (text, c) ← readTagText fault c.next
        pure (⟨some "!", text⟩, c)
  if endsField c.rest then return (t, c) else throw fault

/-! ### Directives -/

/-- A number at a place. -/
def readCount (fault : Fault) (c : Cursor) : Except Fault (Nat × Cursor) :=
  match c.run Text.isAsciiDigit with
  | ([], _) => .error fault
  | (digits, c) =>
    match Numeral.toInt false (digits.filterMap Text.asciiDigit?) with
    | .ok n => .ok (n.toNat, c)
    | .error fault => .error (.number fault)

/-- What follows the name of a directive, and the place behind it. -/
def readDirectiveParts (name : String) (c : Cursor) : Except Fault (Directive × Cursor) := do
  let fault := Fault.token .directive
  if name = "YAML" then
    let (major, c) ← readCount fault c.skipBlanks
    match c.rest with
    | '.' :: _ =>
      let (_, c) ← readCount fault c.next
      if endsField c.rest then return (.version major, c) else throw fault
    | _ => throw fault
  else if name = "TAG" then
    let (handle, c) ← readHandle fault c.skipBlanks
    if c.rest.head? ≠ some ' ' then throw fault
    let (text, c) ← readTagText fault c.skipBlanks
    if endsField c.rest then return (.handle handle text, c) else throw fault
  else return (.other, c.restOfLine.2)

/-- The directive behind its sign, and the place where the next line starts. -/
def readDirective (c : Cursor) : Except Fault (Directive × Cursor) := do
  let fault := Fault.token .directive
  match readName? c with
  | none => throw fault
  | some (name, c) =>
    if !endsField c.rest then throw fault
    let (d, c) ← readDirectiveParts name c
    match c.skipEmptyLine? with
    | some c => return (d, c)
    | none => throw fault

end Stencil.Yaml
