import Stencil.Number.Numeral
import Stencil.Text.Quoted
import Stencil.Text.Space

/-!
# Numbers in texts of any form

Where a text is said to be a number it is read with tolerance: blanks may stand around it, an
integer in base 2, 8 or 16 may start with the mark of its base, and a floating-point number may be
written as a word. Digits of any script count. A text that is no number is a fault that shows the
text.
-/

namespace Stencil.Numeral

/-- Whether a character may stand around a number: a blank that is no information separator. -/
def isPadding (c : Char) : Bool :=
  Text.isSpace c && !(0x1C ≤ c.toNat && c.toNat ≤ 0x1F)

/-- The number that a digit of a base stands for. -/
def digitIn? (base : Nat) (c : Char) : Option Nat :=
  (Text.digitValue? c <|> Text.hexDigit? c).filter (· < base)

/-- Whether a letter after a zero marks a base. -/
def marksBase (base : Nat) (c : Char) : Bool :=
  match base with
  | 2 => c = 'b' || c = 'B'
  | 8 => c = 'o' || c = 'O'
  | 16 => c = 'x' || c = 'X'
  | _ => false

/-- The text without the mark of a base at its start. -/
def dropMark (base : Nat) : List Char → List Char
  | z :: c :: s => if Text.digitValue? z = some 0 ∧ marksBase base c then s else z :: c :: s
  | s => s

/-- How many characters of a text are shown where it is no integer. -/
def shownLength : Nat := 200

/-- The fault of a text that is no integer. -/
def notInteger (base : Nat) (s : List Char) : NumberFault :=
  .notInteger base (String.ofList ((Text.quote s).take shownLength))

/-- The integer that a text is in a base. Only in base ten is the number of digits limited, and it
    counts before what follows the digits. -/
def readInteger (base : Nat) (s : List Char) : Except NumberFault Int :=
  let (negative, t) := readSign (s.dropWhile isPadding)
  let t := dropMark base t
  let digits := (t.takeWhile fun c => (digitIn? base c).isSome).filterMap (digitIn? base)
  if base = 10 ∧ NumberFault.maxDigits < digits.length then .error (.unreadable digits.length)
  else if digits = [] ∨ ¬(t.drop digits.length).all isPadding then .error (notInteger base s)
  else
    let n : Int := Text.ofDigits base digits
    .ok (if negative then -n else n)

/-- A text without the padding at its ends. -/
def dropPadding (s : List Char) : List Char :=
  (((s.dropWhile isPadding).reverse).dropWhile isPadding).reverse

/-- The words for an infinity. -/
def infinityWords : List String := ["inf", "infinity"]

/-- The word for what is no number. -/
def nanWord : String := "nan"

/-- The floating-point number that a text is; `payload` is that of what is no number. -/
def readBinary64 (payload : Nat) (s : List Char) : Except NumberFault Binary64 :=
  let t := dropPadding s
  let (negative, rest) := readSign t
  let word := String.ofList (rest.map Char.toLower)
  if word ∈ infinityWords then .ok (.inf negative)
  else if word = nanWord then .ok (.nan payload)
  else
    match read? t with
    | some n => .ok n.toBinary64
    | none => .error (.notFloat (String.ofList (Text.quote s)))

end Stencil.Numeral
