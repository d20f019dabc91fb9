/-!
# Days and moments

Data files may hold days and moments of the Gregorian calendar. A moment may carry its distance
from universal time; two moments that do are the same if they coincide in universal time, and a
moment that does is never the same as one that does not.

* `Day.ofParts`, `Moment.ofParts`: a day or a moment, or the first part that is out of range;
* `Moment.same_comm`: it does not matter which of two moments comes first.
-/

namespace Stencil

/-- Why parts make no day and no moment. -/
inductive CalendarFault where
  | year (n : Nat)
  | month
  | day
  | hour
  | minute
  | second
  /-- The distance from universal time, in seconds, is a day or more. -/
  | offset (seconds : Int)
  deriving DecidableEq, Repr

/-- A day. -/
structure Day where
  year : Nat
  month : Nat
  day : Nat
  deriving DecidableEq, Repr

/-- A moment. -/
structure Moment where
  day : Day
  hour : Nat
  minute : Nat
  second : Nat
  microsecond : Nat
  /-- The distance from universal time in seconds. -/
  offset : Option Int
  deriving DecidableEq, Repr

/-- A number with zeros in front up to a width. -/
def padded (width n : Nat) : String :=
  let digits := toString n
  "".pushn '0' (width - digits.length) ++ digits

/-- A duration in days and seconds, as it stands inside a container. -/
def durationWritten (seconds : Int) : String :=
  let days := seconds.fdiv 86400
  let rest := seconds.fmod 86400
  let parts :=
    (if days = 0 then [] else [s!"days={days}"]) ++ (if rest = 0 then [] else [s!"seconds={rest}"])
  "datetime.timedelta(" ++ ", ".intercalate parts ++ ")"

namespace Day

/-- Whether a year has a 29th of February. -/
def isLeap (year : Nat) : Bool :=
  year % 4 == 0 && (year % 100 != 0 || year % 400 == 0)

/-- The number of days of a month. -/
def monthLength (year month : Nat) : Nat :=
  if month = 2 then if isLeap year then 29 else 28
  else if month = 4 ∨ month = 6 ∨ month = 9 ∨ month = 11 then 30 else 31

/-- The day with these parts. -/
def ofParts (year month day : Nat) : Except CalendarFault Day :=
  if year = 0 then .error (.year year)
  else if month = 0 ∨ 12 < month then .error .month
  else if day = 0 ∨ monthLength year month < day then .error .day
  else .ok ⟨year, month, day⟩

/-- The number of days before this one, from the first of January of year 1 on. -/
def ordinal (d : Day) : Nat :=
  let years := d.year - 1
  let months := (List.range (d.month - 1)).map fun m => monthLength d.year (m + 1)
  years * 365 + years / 4 - years / 100 + years / 400 + months.foldl (· + ·) 0 + (d.day - 1)

/-- A day as year, month and day. -/
def text (d : Day) : String :=
  padded 4 d.year ++ "-" ++ padded 2 d.month ++ "-" ++ padded 2 d.day

/-- A day as it stands inside a container. -/
def written (d : Day) : String :=
  s!"datetime.date({d.year}, {d.month}, {d.day})"

end Day

namespace Moment

/-- The moment of a day with these parts. -/
def ofTime (day : Day) (hour minute second microsecond : Nat) (offset : Option Int) :
    Except CalendarFault Moment :=
  if 23 < hour then .error .hour
  else if 59 < minute then .error .minute
  else if 59 < second then .error .second
  else .ok ⟨day, hour, minute, second, microsecond, offset⟩

/-- The moment with these parts. The distance from universal time is looked at first. -/
def ofParts (year month day hour minute second microsecond : Nat) (offset : Option Int) :
    Except CalendarFault Moment :=
  let seconds := offset.getD 0
  if 86400 ≤ seconds.natAbs then .error (.offset seconds)
  else do
    ofTime (← Day.ofParts year month day) hour minute second microsecond offset

/-- The microseconds from the start of the calendar on, by the clock of the moment. -/
def clock (m : Moment) : Int :=
  (((m.day.ordinal * 24 + m.hour) * 60 + m.minute) * 60 + m.second : Nat) * 1000000 + m.microsecond

/-- Whether two moments are the same. -/
def same (a b : Moment) : Bool :=
  match a.offset, b.offset with
  | none, none => a.clock == b.clock
  | some p, some q => a.clock - p * 1000000 == b.clock - q * 1000000
  | _, _ => false

theorem same_comm (a b : Moment) : a.same b = b.same a := by
  unfold same
  cases a.offset <;> cases b.offset <;> simp [Bool.beq_comm]

/-- A distance from universal time, after a moment. -/
def offsetText (seconds : Int) : String :=
  let n := seconds.natAbs
  let rest := if n % 60 = 0 then "" else ":" ++ padded 2 (n % 60)
  (if seconds < 0 then "-" else "+") ++ padded 2 (n / 3600) ++ ":" ++ padded 2 (n / 60 % 60) ++ rest

/-- A moment as day, time of day and distance from universal time. -/
def text (m : Moment) : String :=
  let fraction := if m.microsecond = 0 then "" else "." ++ padded 6 m.microsecond
  let offset := (m.offset.map offsetText).getD ""
  m.day.text ++ " " ++ padded 2 m.hour ++ ":" ++ padded 2 m.minute ++ ":" ++ padded 2 m.second ++
    fraction ++ offset

/-- A distance from universal time inside the written form of a moment. -/
def offsetWritten (seconds : Int) : String :=
  if seconds = 0 then "datetime.timezone.utc"
  else "datetime.timezone(" ++ durationWritten seconds ++ ")"

/-- A moment as it stands inside a container. -/
def written (m : Moment) : String :=
  let time := [m.day.year, m.day.month, m.day.day, m.hour, m.minute] ++
    (if m.second = 0 ∧ m.microsecond = 0 then [] else [m.second]) ++
    (if m.microsecond = 0 then [] else [m.microsecond])
  let offset := (m.offset.map fun o => ["tzinfo=" ++ offsetWritten o]).getD []
  "datetime.datetime(" ++ ", ".intercalate (time.map toString ++ offset) ++ ")"

end Moment

namespace CalendarFault

/-- What is reported. -/
def message : CalendarFault → String
  | year n => s!"year {n} is out of range"
  | month => "month must be in 1..12"
  | day => "day is out of range for month"
  | hour => "hour must be in 0..23"
  | minute => "minute must be in 0..59"
  | second => "second must be in 0..59"
  | offset seconds =>
    "offset must be a timedelta strictly between -timedelta(hours=24) and timedelta(hours=24), " ++
      "not " ++ durationWritten seconds ++ "."

end CalendarFault

end Stencil
