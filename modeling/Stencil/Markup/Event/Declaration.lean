import Stencil.Markup.Event.Tag
import Stencil.Text.Quoted

/-!
# Reading comments and declarations

What starts with `<!` or `<?`: comments, document types, marked sections and instructions. Each is
read from the text after its opening, and is absent if it is never closed.
-/

namespace Stencil.Markup

/-- The rest after a mark of two dashes, blanks and an angle bracket. -/
def afterDashes? : List Char → Option (List Char)
  | '-' :: '-' :: s =>
    match s.dropWhile Text.isSpace with
    | '>' :: rest => some rest
    | _ => none
  | _ => none

/-- The rest after a mark of a square bracket, blanks and an angle bracket. -/
def afterBracket? : List Char → Option (List Char)
  | ']' :: s =>
    match s.dropWhile Text.isSpace with
    | '>' :: rest => some rest
    | _ => none
  | _ => none

/-- The rest after a mark of two square brackets and an angle bracket, with blanks between. -/
def afterBrackets? : List Char → Option (List Char)
  | ']' :: s => afterBracket? (s.dropWhile Text.isSpace)
  | _ => none

/-- A comment, given the text after its `<!--`. -/
def readComment? (s : List Char) : Option (Event × List Char) :=
  (Text.cutWhere afterDashes? s).map fun (data, rest) => (.comment (String.ofList data), rest)

/-- An instruction, given the text after its `<?`. -/
def readInstruction? (s : List Char) : Option (Event × List Char) :=
  (Text.cutAt '>' s).map fun (data, rest) => (.instruction (String.ofList data), rest)

/-- Whether a character goes on the name of a marked section. -/
def isSectionChar (c : Char) : Bool :=
  isLetter c || ('0' ≤ c && c ≤ '9') || c == '-' || c == '_' || c == '.'

/-- The sections that end with two brackets. -/
def sectionNames : List String := ["temp", "cdata", "ignore", "include", "rcdata"]

/-- The sections that end with one bracket. -/
def conditionalNames : List String := ["if", "else", "endif"]

/-- How many characters a message shows of a section without a name. -/
def excerptLength : Nat := 20

/-- A marked section, given the text after its `<![`. -/
def readMarked? (s : List Char) : Except Fault (Option (Event × List Char)) :=
  let name := s.takeWhile isSectionChar
  let blanks := (s.drop name.length).takeWhile Text.isSpace
  let shown := fun (t : List Char) => String.ofList (Text.quote t)
  let close := fun (mark? : List Char → Option (List Char)) =>
    (Text.cutWhere mark? s).map fun (data, rest) => (Event.marked (String.ofList data), rest)
  match s with
  | [] => .ok none
  | c :: _ =>
    if !isLetter c then
      .error (.expectedName (shown ((['<', '!', '['] ++ s).take excerptLength)))
    -- the text ends in the name, which may go on
    else if s.length = name.length + blanks.length then .ok none
    else
      let lower := String.ofList (name.map Char.toLower)
      if lower ∈ sectionNames then .ok (close afterBrackets?)
      else if lower ∈ conditionalNames then .ok (close afterBracket?)
      else .error (.unknownSection (shown (name ++ blanks)))

/-- Whether a text starts with the name of document types. -/
def startsDoctype (s : List Char) : Bool :=
  (s.take 7).map Char.toLower == ['d', 'o', 'c', 't', 'y', 'p', 'e']

/-- What starts with `<!`, given the text after it: a comment, a marked section, a document type,
    or else a comment of all that stands in the angle brackets. -/
def readDeclaration? (s : List Char) : Except Fault (Option (Event × List Char)) :=
  match s with
  | '-' :: '-' :: rest => .ok (readComment? rest)
  | '[' :: rest => readMarked? rest
  | _ =>
    .ok ((Text.cutAt '>' s).map fun (data, rest) =>
      (if startsDoctype s then .declaration (String.ofList data)
        else .comment (String.ofList data), rest))

end Stencil.Markup
