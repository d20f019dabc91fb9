import Stencil.Markup.Event.Basic
import Stencil.Markup.Reference.Expand
import Stencil.Text.LowerCase
import Stencil.Text.Space

/-!
# Reading tags

An opening tag is a name, attributes and an end. It is read with tolerance: an attribute may
follow a blank, a slash or the quote of a value before it; a value may stand in quotes, which then
hold any characters, or be a run up to the next blank or the end; a value whose quote is never
closed is none.

A tag is *incomplete* if the text ends in it, and then it is no tag.
-/

namespace Stencil.Markup

/-- Whether a tag can start with a character: an ASCII letter. -/
def isLetter (c : Char) : Bool :=
  ('a' ≤ c && c ≤ 'z') || ('A' ≤ c && c ≤ 'Z')

/-- Whether a character goes on the name of a tag. -/
def isTagChar (c : Char) : Bool :=
  c ≠ '\t' && c ≠ '\n' && c ≠ '\r' && c ≠ '\x0C' && c ≠ ' ' && c ≠ '/' && c ≠ '>' && c ≠ '\x00'

/-- Whether a character can start an attribute, given the one before it. -/
def startsAttribute (before c : Char) : Bool :=
  (before == '\x27' || before == '"' || before == '/' || Text.isSpace before) &&
    !(Text.isSpace c || c == '/' || c == '>')

/-- Whether a character goes on the name of an attribute. -/
def isAttributeChar (c : Char) : Bool :=
  !(Text.isSpace c || c == '/' || c == '=' || c == '>')

/-- Whether a character goes on a value without quotes. -/
def isBareChar (c : Char) : Bool :=
  !(Text.isSpace c || c == '>')

/-- The last of the characters of a text that follows `before`. -/
def lastChar (before : Char) (s : List Char) : Char :=
  s.getLast?.getD before

/-- Passes over blanks and slashes, but not over the slash of `/>`; the first result is the
    character before the rest. -/
def skipBlanks (before : Char) : List Char → Char × List Char
  | [] => (before, [])
  | c :: s =>
    if Text.isSpace c then skipBlanks c s
    else if c = '/' ∧ s.head? ≠ some '>' then skipBlanks c s
    else (before, c :: s)

/-- The value of an attribute after its name, the last character read, and the rest. -/
def readValue (before : Char) (s : List Char) : List Char × Char × List Char :=
  let s₁ := s.dropWhile Text.isSpace
  let equals := s₁.takeWhile (· == '=')
  let s₂ := s₁.drop equals.length
  let blanks := s₂.takeWhile Text.isSpace
  let s₃ := s₂.drop blanks.length
  match equals, s₃ with
  -- no equals sign: the name stands alone
  | [], _ => ([], before, s)
  | _ :: more, q :: s₄ =>
    if q = '\x27' ∨ q = '"' then
      match Text.cutAt q s₄ with
      | some (value, rest) => (value, q, rest)
      -- the quote is never closed: what is taken then depends on what stands before it
      | none =>
        if blanks ≠ [] then ([], lastChar before blanks, s₃)
        else if more ≠ [] then
          let value := s₃.takeWhile isBareChar
          ('=' :: value, lastChar '=' value, s₃.drop value.length)
        else ([], before, s)
    else
      -- a run without quotes
      let value := s₃.takeWhile isBareChar
      (value, lastChar (lastChar '=' blanks) value, s₃.drop value.length)
  | _ :: _, [] => ([], lastChar '=' blanks, [])

/-- An attribute, with its value as it stands in the tag, the last character read, and the rest. -/
def readAttribute? (before : Char) : List Char → Option ((List Char × List Char) × Char × List Char)
  | [] => none
  | c :: s =>
    if startsAttribute before c then
      let more := s.takeWhile isAttributeChar
      let (value, last, rest) := readValue (lastChar c more) (s.drop more.length)
      some ((c :: more, value), skipBlanks last rest)
    else none

/-- The attributes at the start of a text, and the rest. At most `fuel` are read. -/
def readAttributes : (fuel : Nat) → (before : Char) → List Char →
    List (List Char × List Char) × List Char
  | 0, _, s => ([], s)
  | fuel + 1, before, s =>
    match readAttribute? before s with
    | none => ([], s)
    | some (attr, last, rest) =>
      let (attrs, rest) := readAttributes fuel last rest
      (attr :: attrs, rest)

/-- An attribute with its name in lower case and the references in its value expanded. -/
def finishAttribute (attr : List Char × List Char) : Except NumberFault (String × String) := do
  return (String.ofList (Text.lowerCase attr.1), String.ofList (← expandReferences attr.2))

/-- What a tag may turn out to be. -/
inductive TagEnd where
  /-- An opening tag, and the rest. -/
  | opening (rest : List Char)
  /-- A tag that ends with a slash, and the rest. -/
  | closed (rest : List Char)
  /-- The text ends in the tag, or goes on as no tag does. -/
  | incomplete
  /-- No tag but a text, up to the rest. -/
  | text (rest : List Char)

/-- The end of an opening tag. -/
def TagEnd.of : List Char → TagEnd
  | [] => incomplete
  | '>' :: rest => opening rest
  | '/' :: '>' :: rest => closed rest
  | c :: rest => if isLetter c ∨ c = '=' ∨ c = '/' then incomplete else text (c :: rest)

/-- An opening tag, given the text after its `<`: its name, its attributes and its end. -/
def readTag (s : List Char) : List Char × List (List Char × List Char) × TagEnd :=
  let name := s.takeWhile isTagChar
  let (last, rest) := skipBlanks (lastChar '<' name) (s.drop name.length)
  let (attrs, rest) := readAttributes s.length last rest
  (name, attrs, TagEnd.of rest)

/-- Whether a character goes on the name of a closing tag. -/
def isEndTagChar (c : Char) : Bool :=
  isLetter c || ('0' ≤ c && c ≤ '9') || c == '-' || c == '.' || c == ':' || c == '_'

/-- The name of a closing tag that holds nothing else, given the text after its `</`, and the
    rest. -/
def exactEndTag? (s : List Char) : Option (List Char × List Char) :=
  match s.dropWhile Text.isSpace with
  | [] => none
  | c :: s =>
    if isLetter c then
      let more := s.takeWhile isEndTagChar
      match (s.drop more.length).dropWhile Text.isSpace with
      | '>' :: rest => some (c :: more, rest)
      | _ => none
    else none

/-- A closing tag, given the text after its `</`: its event if it has one, and the rest. Absent if
    the tag is never closed. -/
def readEndTag? (s : List Char) : Option (Option Event × List Char) :=
  match Text.cutAt '>' s with
  | none => none
  | some (inside, rest) =>
    match exactEndTag? s with
    | some (name, rest) => some (some (.endTag (String.ofList (Text.lowerCase name))), rest)
    | none =>
      match s with
      | c :: _ =>
        -- what follows the name in the tag is dropped
        if isLetter c then
          some (some (.endTag (String.ofList (Text.lowerCase (s.takeWhile isTagChar)))), rest)
        else if c = '>' then some (none, rest)
        else some (some (.comment (String.ofList inside)), rest)
      | [] => none

end Stencil.Markup
