import Stencil.Number.Reading
import Stencil.Text.Base64
import Stencil.Text.LowerCase
import Stencil.Yaml.Basic
import Stencil.Yaml.Scalar.Form

/-!
# Meanings of scalars

The tag of a scalar says how its text is to be read. A text that was recognised by its form is read
without a fault, but for numbers and times that do not exist; a text that stands behind a tag need
not be what the tag says.

Numbers are read with tolerance, their underscores left out. The parts of a number with colons count
sixty times the next one, and are not limited here.
-/

namespace Stencil.Yaml

/-- The text of a scalar, and how many tokens come before it. Two numbers that are none are the same
    if they stand in the same place. -/
structure Content where
  place : Nat
  text : String

namespace Meaning

/-- A number read with its sign taken off first, which needs a character to look at. -/
def readSigned {α : Type} (negate : α → α) (read : List Char → Except Fault α) (s : List Char) :
    Except Fault α :=
  match s with
  | [] => .error (.scalar .emptyNumber)
  | '-' :: s => (read s).map negate
  | '+' :: s => read s
  | s => read s

/-! ### Integers -/

/-- The integer that a text is in a base. -/
def readIn (base : Nat) (s : List Char) : Except Fault Int :=
  (Numeral.readInteger base s).mapError Fault.number

/-- The integer that a text without its sign is. -/
def readMagnitude (s : List Char) : Except Fault Int :=
  match s with
  | [] => .error (.scalar .emptyNumber)
  | '0' :: 'b' :: digits => readIn 2 digits
  | '0' :: 'x' :: digits => readIn 16 digits
  | '0' :: digits => readIn 8 ('0' :: digits)
  | s => do
    let parts ← (Text.fields ':' s).mapM (readIn 10)
    return parts.foldl (fun n part => 60 * n + part) 0

/-- The integer that a text is. -/
def readInt (s : List Char) : Except Fault Int :=
  readSigned (fun n => -n) readMagnitude (s.filter (· ≠ '_'))

/-! ### Floating-point numbers -/

/-- The sum of numbers, the last one counting once and each other sixty times the next one. -/
def sumSixties (parts : List Binary64) : Except Fault Binary64 := do
  let step (sum : Binary64 × Nat) (part : Binary64) : Except Fault (Binary64 × Nat) :=
    match Binary64.ofInt? sum.2 with
    | none => .error (.number .tooLarge)
    | some weight => .ok (sum.1.add (part.mul weight), 60 * sum.2)
  let (sum, _) ← parts.reverse.foldlM step (.finite false 0 0, 1)
  return sum

/-- The floating-point number that a text is, in the form of this format or in another. -/
def readPart (place : Nat) (s : List Char) : Except Fault Binary64 :=
  (Numeral.readBinary64 (place + 1) s).mapError Fault.number

/-- The floating-point number that a text without its sign and in lower case is. The word of this
    format for what is no number stands for the same one everywhere. -/
def readAbsolute (place : Nat) (s : List Char) : Except Fault Binary64 :=
  if s = ['.', 'i', 'n', 'f'] then .ok (.inf false)
  else if s = ['.', 'n', 'a', 'n'] then .ok (.nan 0)
  else
    match Text.fields ':' s with
    | [s] => readPart place s
    | parts => do
      match ← sumSixties (← parts.mapM (readPart place)) with
      | .nan _ => return .nan (place + 1)
      | x => return x

/-- The floating-point number that a text is. -/
def readFloat (content : Content) : Except Fault Binary64 :=
  readSigned Binary64.neg (readAbsolute content.place)
    (Text.lowerCase (content.text.toList.filter (· ≠ '_')))

/-! ### Other scalars -/

/-- The words for the truth values, in lower case. -/
def truthWords : List (String × Bool) :=
  [("yes", true), ("no", false), ("true", true), ("false", false), ("on", true), ("off", false)]

/-- The truth value that a text is. -/
def readBool (s : List Char) : Except Fault Bool :=
  match truthWords.lookup (String.ofList (Text.lowerCase s)) with
  | some b => .ok b
  | none => .error (.scalar .notTruthValue)

/-- The day or the moment that a text is. -/
def readTime (s : List Char) : Except Fault Value :=
  match Stamp.read? (Form.dropLineFeed s) with
  | some stamp => stamp.toValue.mapError Fault.calendar
  | none => .error (.scalar .notTime)

/-- The bytes that a text stands for. -/
def readBytes (s : List Char) : Except Fault (List UInt8) :=
  if s.all fun c => c.toNat < 0x80 then
    match Base64.decode? s with
    | some bytes => .ok bytes
    | none => .error (.node .notBytes)
  else .error (.node .notBytes)

/-- The value of a text under a tag. -/
def read (tag : Tag) (content : Content) : Except Fault Value :=
  let s := content.text.toList
  match tag with
  | .null => .ok .null
  | .bool => (readBool s).map Value.bool
  | .int => (readInt s).map Value.int
  | .float => (readFloat content).map Value.float
  | .timestamp => readTime s
  | .binary => (readBytes s).map Value.bytes
  | .str => .ok (.str content.text)
  | _ => .error (.node .unknownTag)

end Meaning

end Stencil.Yaml
