import Stencil.Number.Numeral
import Stencil.Text.Space
import Stencil.Value.Equality

/-!
# Comparisons of values

Conditions compare values in three ways. *Strict* equality asks for the same kind of value.
*Loose* equality reads a text or a truth value as a number where the other side is one, and null
equals only itself. An *order* comparison is by characters between two texts and by numbers
otherwise; where a side has no number it is false.

Reading an integer as a floating-point number fails if it is too large.
-/

namespace Stencil

/-- The kinds of values that comparisons tell apart. -/
inductive Kind where
  | null
  | bool
  | number
  | text
  | mapping
  | other (typeName : String)
  deriving DecidableEq, Repr

/-- The order comparisons. -/
inductive Order where
  | above
  | below
  | atLeast
  | atMost
  deriving DecidableEq, Repr

namespace Order

/-- The sign of an order comparison. -/
def sign : Order → String
  | above => ">"
  | below => "<"
  | atLeast => ">="
  | atMost => "<="

/-- The order comparison with a sign. -/
def ofSign? (s : String) : Option Order :=
  [above, below, atLeast, atMost].find? (·.sign == s)

/-- Whether a comparison holds between two values in the given order. -/
def holds : Order → Ordering → Bool
  | above, o => o == .gt
  | below, o => o == .lt
  | atLeast, o => o != .lt
  | atMost, o => o != .gt

end Order

/-- Why values cannot be compared. -/
inductive ComparisonFault where
  | number (fault : NumberFault)
  | unknownSign (sign : String)
  deriving DecidableEq, Repr

/-- What is reported. -/
def ComparisonFault.message : ComparisonFault → String
  | number fault => fault.message
  | unknownSign sign => s!"Unknown ordering operator: {sign}"

namespace Value

/-- The kind of a value. -/
def kind : Value → Kind
  | null => .null
  | bool _ => .bool
  | int _ => .number
  | float _ => .number
  | str _ => .text
  | map _ => .mapping
  | v => .other v.typeName

/-- The number that a text is read as. -/
def numberOfText (s : List Char) : Binary64 :=
  match Text.trim s with
  | [] => .finite false 0 0
  | c :: rest =>
    match Numeral.read? (c :: rest) with
    | some n => n.toBinary64
    | none => .nan 0

/-- The number that a value is read as; no number where there is none. -/
def toNumber : Value → Except NumberFault Binary64
  | null => .ok (.finite false 0 0)
  | bool b => .ok (Binary64.ofRatio false (if b then 1 else 0) 1)
  | int n =>
    match Binary64.ofInt? n with
    | some x => .ok x
    | none => .error .tooLarge
  | float x => .ok x
  | str s => .ok (numberOfText s.toList)
  | _ => .ok (.nan 0)

/-- Strict equality. -/
def strictEquals (a b : Value) : Bool :=
  if a.kind = b.kind then equal a b else false

/-- Loose equality of two values that are neither null nor truth values. -/
def looseEqualsPlain (a b : Value) : Except NumberFault Bool :=
  match a.kind, b.kind with
  | .number, .text => do return equal (.float (← a.toNumber)) (.float (← b.toNumber))
  | .text, .number => do return equal (.float (← a.toNumber)) (.float (← b.toNumber))
  | k, l => .ok (if k = l then equal a b else false)

/-- Loose equality. -/
def looseEquals (a b : Value) : Except NumberFault Bool :=
  if a.kind = b.kind then .ok (equal a b)
  else
    match a.kind, b.kind with
    | .null, _ => .ok false
    | _, .null => .ok false
    | .bool, _ => do looseEqualsPlain (.float (← a.toNumber)) b
    | _, .bool => do looseEqualsPlain a (.float (← b.toNumber))
    | _, _ => looseEqualsPlain a b

/-- The order of two texts, by the numbers of their characters. -/
def orderTexts : List Char → List Char → Ordering
  | a :: as, b :: bs =>
    if a.toNat < b.toNat then .lt else if b.toNat < a.toNat then .gt else orderTexts as bs
  | _ :: _, [] => .gt
  | [], _ :: _ => .lt
  | [], [] => .eq

/-- The order of two values; absent if one of them has no number. -/
def order? (a b : Value) : Except NumberFault (Option Ordering) :=
  match a, b with
  | str s, str t => .ok (some (orderTexts s.toList t.toList))
  | _, _ => do return (← a.toNumber).compare? (← b.toNumber)

/-- Whether an order comparison holds between two values. -/
def compare (o : Order) (a b : Value) : Except NumberFault Bool := do
  match ← order? a b with
  | some ordering => return o.holds ordering
  | none => return false

/-- Whether the order comparison with a sign holds between two values. The sign counts only after
    the values have been put in order. -/
def compareBySign (sign : String) (a b : Value) : Except ComparisonFault Bool :=
  match order? a b with
  | .error fault => .error (.number fault)
  | .ok none => .ok false
  | .ok (some ordering) =>
    match Order.ofSign? sign with
    | some o => .ok (o.holds ordering)
    | none => .error (.unknownSign sign)

end Value

end Stencil
