import Stencil.Number.Numeral
import Stencil.Text.Digit
import Stencil.Value.Basic

/-!
# Times in YAML

A day is written as year, month and day with dashes between, and a moment as a day and a time of day
behind it, with blanks or a letter between the two, and perhaps with its distance from universal
time at the end. Parts may lack the zeros in front of them.
-/

namespace Stencil.Yaml

/-- A time of day. -/
structure TimeOfDay where
  hour : Nat
  minute : Nat
  second : Nat
  microsecond : Nat
  /-- The distance from universal time in seconds. -/
  offset : Option Int

/-- A day, and perhaps a time of day, as they are written. -/
structure Stamp where
  year : Nat
  month : Nat
  day : Nat
  time : Option TimeOfDay

namespace Stamp

/-- Whether a character is a blank or a tab. -/
def isGap (c : Char) : Bool :=
  c = ' ' || c = '\t'

/-- The number in at least `least` and at most `most` digits at the start of a text. -/
def readPart? (least most : Nat) (s : List Char) : Option (Nat × List Char) :=
  let digits := ((s.take most).takeWhile Text.isAsciiDigit).filterMap Text.asciiDigit?
  if digits.length < least then none else some (Numeral.ofDigits digits, s.drop digits.length)

/-- The number in some digits behind a mark. -/
def readAfter? (mark : Char) (least : Nat) : List Char → Option (Nat × List Char)
  | c :: s => if c = mark then readPart? least 2 s else none
  | [] => none

/-- The microseconds after a point, of which no more than six digits count, and the rest. -/
def readFraction (s : List Char) : Nat × List Char :=
  match s with
  | '.' :: s =>
    let digits := (s.takeWhile Text.isAsciiDigit).filterMap Text.asciiDigit?
    let six := (digits ++ List.replicate 6 0).take 6
    (Numeral.ofDigits six, s.drop digits.length)
  | _ => (0, s)

/-- The seconds in hours and perhaps minutes that make up a text. -/
def readDistance? (s : List Char) : Option Int :=
  match readPart? 1 2 s with
  | none => none
  | some (hours, []) => some (hours * 3600)
  | some (hours, s) =>
    match readAfter? ':' 2 s with
    | some (minutes, []) => some (hours * 3600 + minutes * 60)
    | _ => none

/-- The distance from universal time that makes up a text, in seconds; nothing if the text is
    empty. -/
def readOffset? (s : List Char) : Option (Option Int) :=
  if s = [] then some none
  else
    match s.dropWhile isGap with
    | ['Z'] => some (some 0)
    | '+' :: s => (readDistance? s).map some
    | '-' :: s => (readDistance? s).map fun n => some (-n)
    | _ => none

/-- A time of day with what separates it from the day before it. -/
def readTimeOfDay? (s : List Char) : Option TimeOfDay := do
  let s ←
    match s with
    | [] => none
    | c :: rest =>
      if c = 'T' ∨ c = 't' then some rest
      else if isGap c then some (rest.dropWhile isGap)
      else none
  let (hour, s) ← readPart? 1 2 s
  let (minute, s) ← readAfter? ':' 2 s
  let (second, s) ← readAfter? ':' 2 s
  let (microsecond, s) := readFraction s
  return ⟨hour, minute, second, microsecond, ← readOffset? s⟩

/-- The time that a text writes. -/
def read? (s : List Char) : Option Stamp := do
  let (year, rest) ← readPart? 4 4 s
  let (month, rest) ← readAfter? '-' 1 rest
  let (day, rest) ← readAfter? '-' 1 rest
  if rest = [] then return ⟨year, month, day, none⟩
  else return ⟨year, month, day, some (← readTimeOfDay? rest)⟩

/-- The day or the moment that was written, if the calendar has it. -/
def toValue (s : Stamp) : Except CalendarFault Value :=
  match s.time with
  | none => (Day.ofParts s.year s.month s.day).map Value.day
  | some t =>
    (Moment.ofParts s.year s.month s.day t.hour t.minute t.second t.microsecond t.offset).map
      Value.moment

end Stamp

end Stencil.Yaml
