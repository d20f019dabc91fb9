import Stencil.Text.Search
import Stencil.Yaml.Scalar.Time
import Stencil.Yaml.Tag

/-!
# What plain scalars are written like

A plain scalar without a tag has the tag of what its text is written like: a truth value, null, a
number, a time, one of the two words for keys, or else a text. Integers can be written in four
bases, with underscores among their digits, and in groups of sixties with colons between. Floating-
point numbers have a point, and the exponent of one has a sign.

One line feed at the end of a text does not count.
-/

namespace Stencil.Yaml

namespace Form

/-- Whether a character is a digit below a base, or an underscore among digits. -/
def isDigitOrLine (base : Nat) (c : Char) : Bool :=
  c = '_' || ((Text.hexDigit? c).map fun d => decide (d < base)).getD false

/-- Whether a text is a decimal digit with digits and underscores behind it. -/
def isDigits : List Char → Bool
  | [] => false
  | c :: s => Text.isAsciiDigit c && s.all (isDigitOrLine 10)

/-- Whether a text is one or two digits of a number below sixty. -/
def isSixty (s : List Char) : Bool :=
  match s.mapM Text.asciiDigit? with
  | some [_] => true
  | some [t, _] => t < 6
  | _ => false

/-- The text without a sign at its start. -/
def dropSign (s : List Char) : List Char :=
  (Numeral.readSign s).2

/-- Whether a text is written like an integer. -/
def isInt (s : List Char) : Bool :=
  match dropSign s with
  | '0' :: 'b' :: d :: digits => (d :: digits).all (isDigitOrLine 2)
  | '0' :: 'x' :: d :: digits => (d :: digits).all (isDigitOrLine 16)
  | '0' :: digits => digits.all (isDigitOrLine 8)
  | s =>
    match Text.fields ':' s with
    | first :: groups => isDigits first && groups.all isSixty
    | [] => false

/-- Whether a text is an exponent with a sign, or empty. -/
def isExponent : List Char → Bool
  | [] => true
  | e :: sign :: d :: digits =>
    (e = 'e' || e = 'E') && (sign = '+' || sign = '-') && (d :: digits).all Text.isAsciiDigit
  | _ => false

/-- Whether a text is written like a floating-point number with a point between or before digits. -/
def isPointed (s : List Char) : Bool :=
  match Text.cutAt '.' (dropSign s) with
  | none => false
  | some (before, after) =>
    let exponent := after.dropWhile (isDigitOrLine 10)
    match before, Text.fields ':' before with
    -- a point at the start stands before a digit and behind no sign
    | [], _ => dropSign s == s && (after.head?.map Text.isAsciiDigit).getD false && isExponent exponent
    | _, [whole] => isDigits whole && isExponent exponent
    | _, first :: groups => isDigits first && groups.all isSixty && exponent.isEmpty
    | _, [] => false

/-- The words for what is no number. -/
def nanWords : List String := [".nan", ".NaN", ".NAN"]

/-- The words for the infinities. -/
def infinityWords : List String := [".inf", ".Inf", ".INF"]

/-- Whether a text is written like a floating-point number. -/
def isFloat (s : List Char) : Bool :=
  isPointed s || String.ofList s ∈ nanWords || String.ofList (dropSign s) ∈ infinityWords

/-- Whether a text is written like a time. A day alone has ten characters. -/
def isTime (s : List Char) : Bool :=
  match Stamp.read? s with
  | some stamp => stamp.time.isSome || s.length == 10
  | none => false

/-- The words for null. -/
def nullWords : List String := ["~", "null", "Null", "NULL"]

/-- The words for the truth values. -/
def boolWords : List String :=
  ["yes", "Yes", "YES", "no", "No", "NO", "true", "True", "TRUE", "false", "False", "FALSE", "on",
    "On", "ON", "off", "Off", "OFF"]

/-- The word for the key of what is merged. -/
def mergeWord : String := "<<"

/-- The word for the key of the main value. -/
def valueWord : String := "="

/-- The text without a line feed at its end. -/
def dropLineFeed (s : List Char) : List Char :=
  if s.getLast? = some '\n' then s.dropLast else s

end Form

open Form in
/-- The tag of what a text is written like. -/
def Tag.ofPlain (text : List Char) : Tag :=
  let s := dropLineFeed text
  let word := String.ofList s
  if text = [] then null
  else if word ∈ boolWords then bool
  else if isFloat s then float
  else if isInt s then int
  else if word = mergeWord then merge
  else if word ∈ nullWords then null
  else if isTime s then timestamp
  else if word = valueWord then value
  else str

end Stencil.Yaml
