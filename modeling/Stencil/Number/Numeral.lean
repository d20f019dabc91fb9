import Stencil.Number.Binary64
import Stencil.Text.Digit

/-!
# Numerals

How numbers are written in templates: an optional sign, digits of any script, at most one point
and an exponent of ten. A numeral without point and exponent stands for an integer.

Integers are converted from and to text up to 4300 digits only; past that the conversion fails.
-/

namespace Stencil

/-- Why a number could not be converted. -/
inductive NumberFault where
  /-- A text of too many digits is no integer. -/
  | unreadable (digits : Nat)
  /-- An integer of too many digits has no text. -/
  | unwritable
  /-- An integer is beyond the floating-point numbers. -/
  | tooLarge
  /-- A text is no integer in this base; it is given in its quoted form, or the start of it. -/
  | notInteger (base : Nat) (quoted : String)
  /-- A text is no floating-point number; it is given in its quoted form. -/
  | notFloat (quoted : String)
  deriving DecidableEq, Repr

namespace NumberFault

/-- The most digits that an integer may have where it is read or written. -/
def maxDigits : Nat := 4300

/-- What is reported. -/
def message : NumberFault → String
  | unreadable digits =>
    "Exceeds the limit (4300 digits) for integer string conversion: value has " ++
      toString digits ++ " digits; use sys.set_int_max_str_digits() to increase the limit"
  | unwritable =>
    "Exceeds the limit (4300 digits) for integer string conversion; use " ++
      "sys.set_int_max_str_digits() to increase the limit"
  | tooLarge => "int too large to convert to float"
  | notInteger base quoted => s!"invalid literal for int() with base {base}: {quoted}"
  | notFloat quoted => s!"could not convert string to float: {quoted}"

end NumberFault

namespace Numeral

/-- The number that digits stand for, the first one counting most. -/
def ofDigits (ds : List Nat) : Nat :=
  Text.ofDigits 10 ds

/-- The digits at the start of a text, and the rest. -/
def readDigits : List Char → List Nat × List Char
  | [] => ([], [])
  | c :: s =>
    match Text.digitValue? c with
    | none => ([], c :: s)
    | some d => let (ds, rest) := readDigits s; (d :: ds, rest)

/-- A sign at the start of a text, true for minus, and the rest. -/
def readSign : List Char → Bool × List Char
  | '-' :: s => (true, s)
  | '+' :: s => (false, s)
  | s => (false, s)

/-- The text of an integer. -/
def write (n : Int) : Except NumberFault (List Char) :=
  let digits := Nat.toDigits 10 n.natAbs
  if NumberFault.maxDigits < digits.length then .error .unwritable
  else .ok (if n < 0 then '-' :: digits else digits)

/-- The integer with a sign and digits. -/
def toInt (negative : Bool) (digits : List Nat) : Except NumberFault Int :=
  if NumberFault.maxDigits < digits.length then .error (.unreadable digits.length)
  else .ok (if negative then -(ofDigits digits : Int) else ofDigits digits)

end Numeral

/-- A numeral. -/
inductive Numeral where
  /-- Digits alone. -/
  | integer (negative : Bool) (digits : List Nat)
  /-- The number ± `coefficient` · 10 ^ `exponent`. -/
  | decimal (negative : Bool) (coefficient : Nat) (exponent : Int)
  deriving DecidableEq, Repr

namespace Numeral

/-- The exponent part that makes up the rest of a text; no text is an exponent of nothing. -/
def readExponent? : List Char → Option (Option Int)
  | [] => some none
  | c :: s =>
    if c = 'e' ∨ c = 'E' then
      let (negative, s) := readSign s
      match readDigits s with
      | (d :: ds, []) => some (some (if negative then -(ofDigits (d :: ds) : Int) else ofDigits (d :: ds)))
      | _ => none
    else none

/-- The numeral that a text is. -/
def read? (s : List Char) : Option Numeral :=
  let (negative, s) := readSign s
  let (whole, s) := readDigits s
  let (pointed, fraction, s) :=
    match s with
    | '.' :: s => (true, readDigits s)
    | s => (false, ([], s))
  if whole = [] ∧ fraction = [] then none
  else
    match readExponent? s with
    | none => none
    | some none =>
      if pointed then some (.decimal negative (ofDigits (whole ++ fraction)) (-fraction.length))
      else some (.integer negative whole)
    | some (some exponent) =>
      some (.decimal negative (ofDigits (whole ++ fraction)) (exponent - fraction.length))

/-- The floating-point number nearest to a numeral. -/
def toBinary64 : Numeral → Binary64
  | integer negative digits => Binary64.ofDecimal negative (ofDigits digits) 0
  | decimal negative coefficient exponent => Binary64.ofDecimal negative coefficient exponent

/-- Digits in groups, an underscore between each two groups, up to the end of the text. -/
def readGroups? : List Char → Option (List Nat)
  | [] => none
  | [c] => (Text.digitValue? c).map ([·])
  | c :: '_' :: s =>
    match Text.digitValue? c, readGroups? s with
    | some d, some ds => some (d :: ds)
    | _, _ => none
  | c :: s =>
    match Text.digitValue? c, readGroups? s with
    | some d, some ds => some (d :: ds)
    | _, _ => none

/-- The integer that a text is: a sign and digits in groups, few enough to be read. -/
def readInt? (s : List Char) : Option Int :=
  let (negative, s) := readSign s
  (readGroups? s).bind fun digits => (toInt negative digits).toOption

end Numeral

end Stencil
