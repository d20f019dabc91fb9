import Stencil.Number.Binary64

/-!
# Shortest decimal text of a number

A finite number is written with the fewest digits that read back to it, and among the texts of
that length with the one nearest to it, a tie going to the even last digit. Numbers from 10⁻⁴ up
to below 10¹⁶ are written positionally, with at least one digit after the point; all others with
one digit before the point and an exponent of at least two digits.

* `Decimal.readsBack`: the condition that a candidate must meet.
-/

namespace Stencil

/-- The number `coefficient` · 10 ^ `exponent`. -/
structure Decimal where
  coefficient : Nat
  exponent : Int
  deriving DecidableEq, Repr

namespace Decimal

/-- Whether the binary number nearest to a decimal one is `significand` · 2 ^ `exponent` units. -/
def readsBack (d : Decimal) (significand exponent : Nat) : Bool :=
  Binary64.ofDecimal false d.coefficient d.exponent == .finite false significand exponent

/-- The decimal number without the zeros at its end. At most `fuel` zeros are removed. -/
def stripZeros : (fuel : Nat) → Decimal → Decimal
  | 0, d => d
  | fuel + 1, d =>
    if d.coefficient ≠ 0 ∧ d.coefficient % 10 = 0 then
      stripZeros fuel ⟨d.coefficient / 10, d.exponent + 1⟩
    else d

end Decimal

namespace Binary64

/-- The exponent of ten just above a quotient: the least `k` with `num` / `den` < 10 ^ `k`. -/
def magnitude (num den : Nat) : Int :=
  if den ≤ num then (Nat.toDigits 10 (num / den)).length
  else 1 - ((Nat.toDigits 10 ((den + num - 1) / num - 1)).length : Int)

/-- The two decimal numbers of `size` digits around a positive number, the nearer one first. -/
def neighbours (significand exponent size : Nat) : List Decimal :=
  let num := significand <<< exponent
  let den := 1 <<< unitBits
  -- the quotient has `size` digits before the place
  let place := magnitude num den - size
  let (num, den) :=
    if 0 ≤ place then (num, den * Nat.pow 10 place.toNat)
    else (num * Nat.pow 10 (-place).toNat, den)
  let below : Decimal := ⟨num / den, place⟩
  let above : Decimal := ⟨num / den + 1, place⟩
  if roundHalfEven num den = below.coefficient then [below, above] else [above, below]

/-- The shortest decimal number that reads back. Seventeen digits are always enough. -/
def shortest? (significand exponent : Nat) : Option Decimal :=
  (List.range 17).findSome? fun i =>
    (neighbours significand exponent (i + 1)).find? fun d => d.readsBack significand exponent

/-- The digits of a positive number and the place of the point before which they stand. -/
def digits (significand exponent : Nat) : List Char × Int :=
  match shortest? significand exponent with
  | none => ([], 0)
  | some d =>
    let digits := Nat.toDigits 10 (d.stripZeros 20).coefficient
    (digits, digits.length + (d.stripZeros 20).exponent)

/-- The first and the last exponent of ten that is written positionally. -/
def positional : Int × Int := (-4, 15)

/-- The text of digits with the point in front of which they stand. -/
def layout (digits : List Char) (point : Int) : List Char :=
  let exponent := point - 1
  if exponent < positional.1 ∨ positional.2 < exponent then
    let size := Nat.toDigits 10 exponent.natAbs
    let tail := (if exponent < 0 then '-' else '+') :: (if size.length < 2 then '0' :: size else size)
    match digits with
    | [] => []
    | [d] => d :: 'e' :: tail
    | d :: rest => d :: '.' :: rest ++ 'e' :: tail
  else if point ≤ 0 then '0' :: '.' :: List.replicate (-point).toNat '0' ++ digits
  else
    let whole := digits.take point.toNat
    let fraction := digits.drop point.toNat
    whole ++ List.replicate (point.toNat - whole.length) '0' ++ '.' ::
      (if fraction = [] then ['0'] else fraction)

/-- The text of a number. -/
def text : Binary64 → List Char
  | nan _ => ['n', 'a', 'n']
  | inf true => ['-', 'i', 'n', 'f']
  | inf false => ['i', 'n', 'f']
  | finite negative significand exponent =>
    let (ds, point) := if significand = 0 then (['0'], 1) else digits significand exponent
    if negative then '-' :: layout ds point else layout ds point

end Binary64

end Stencil
