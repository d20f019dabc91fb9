import Stencil.Path
import Stencil.Value.Comparison

/-!
# Conditions

A condition is a row of comparisons with `&&` and `||` between them. The two have no precedence:
results are combined from left to right. Every comparison is evaluated, also where the result is
known before.

A comparison is one operand, which counts by its truth, or two operands with a sign between them.
The first of the signs `===`, `!==`, `==`, `!=`, `>=`, `<=`, `>` and `<` that occurs in the text
divides it. Conditions may not hold the characters of calls, members, subscripts, negation and
arithmetic.

* `evaluate_of_forbidden`: a condition with a forbidden character fails.
-/

namespace Stencil

/-- What stands between two comparisons. -/
inductive Combinator where
  | and
  | or
  deriving DecidableEq, Repr

/-- What a comparison asks of two values. -/
inductive Comparison where
  | strict
  | notStrict
  | loose
  | notLoose
  | order (o : Order)
  deriving DecidableEq, Repr

namespace Combinator

/-- The name of a combinator. -/
def name : Combinator → String
  | and => "AND"
  | or => "OR"

/-- The combinator that a name stands for: `or`, unless it is that of `and`. -/
def ofName (s : String) : Combinator :=
  if s = and.name then and else or

/-- The result of two results. -/
def apply : Combinator → Bool → Bool → Bool
  | and, a, b => a && b
  | or, a, b => a || b

end Combinator

namespace Comparison

/-- Whether a comparison holds between two values. -/
def holds : Comparison → Value → Value → Except NumberFault Bool
  | strict, a, b => .ok (a.strictEquals b)
  | notStrict, a, b => .ok !(a.strictEquals b)
  | loose, a, b => a.looseEquals b
  | notLoose, a, b => (a.looseEquals b).map (!·)
  | order o, a, b => Value.compare o a b

/-- The signs, in the order in which they are looked for: a sign comes before those in it. -/
def signs : List (List Char × Comparison) :=
  [(['=', '=', '='], strict), (['!', '=', '='], notStrict), (['=', '='], loose),
    (['!', '='], notLoose), (['>', '='], order .atLeast), (['<', '='], order .atMost),
    (['>'], order .above), (['<'], order .below)]

end Comparison

/-- Why results cannot be combined. -/
inductive CombinationFault where
  | noValues
  | tooManyValues
  | tooFewValues
  deriving DecidableEq, Repr

/-- What is reported. -/
def CombinationFault.message : CombinationFault → String
  | noValues => "list index out of range"
  | tooManyValues => "zip() argument 2 is longer than argument 1"
  | tooFewValues => "zip() argument 2 is shorter than argument 1"

namespace Condition

/-- The characters that a condition may not hold, in the order in which they are looked for. -/
def forbidden : List Char :=
  ['!', '(', ')', '[', ']', '.', ',', '+', '-', '*', '/']

/-- The forbidden characters of a condition. -/
def forbiddenIn (s : List Char) : List Char :=
  forbidden.filter (· ∈ s)

/-- The pieces of a condition: the first one, and the others with the combinators before them. -/
def pieces : List Char → List Char × List (Combinator × List Char)
  | [] => ([], [])
  | [c] => ([c], [])
  | c :: d :: s =>
    if c = '&' ∧ d = '&' then
      let (piece, rest) := pieces s
      ([], (.and, piece) :: rest)
    else if c = '|' ∧ d = '|' then
      let (piece, rest) := pieces s
      ([], (.or, piece) :: rest)
    else
      -- the second character may start a combinator
      let (piece, rest) := pieces (d :: s)
      (c :: piece, rest)

/-- The comparisons of a condition: the first one, and the others with the combinators before
    them. -/
def split (s : List Char) : List Char × List (Combinator × List Char) :=
  let (piece, rest) := pieces s
  (Text.trim piece, rest.map fun (combinator, piece) => (combinator, Text.trim piece))

/-- The combination of results from left to right. -/
def reduce (first : Bool) (rest : List (Combinator × Bool)) : Bool :=
  rest.foldl (fun result (combinator, value) => combinator.apply result value) first

/-- The combination of results with as many combinators as stand between them. -/
def reduceLists : List Bool → List Combinator → Except CombinationFault Bool
  | [], _ => .error .noValues
  | first :: rest, combinators =>
    if combinators.length < rest.length then .error .tooManyValues
    else if rest.length < combinators.length then .error .tooFewValues
    else .ok (reduce first (combinators.zip rest))

/-- The sign of a comparison, and the operands before and after it. -/
def divide? (s : List Char) : Option (Comparison × List Char × List Char) :=
  Comparison.signs.findSome? fun (sign, comparison) =>
    (Text.cut sign s).map fun (left, right) => (comparison, left, right)

/-- The result of one comparison. -/
def evaluateComparison (host : Host) (s : List Char) (data : Value) : Evaluation Bool :=
  match divide? s with
  | some (comparison, left, right) => do
    let a ← Path.resolveOperand host left data
    let b ← Path.resolveOperand host right data
    Evaluation.ofNumber (comparison.holds a b)
  | none => do return (← Path.resolveOperand host s data).truthy

/-- The results of comparisons, evaluated from left to right. -/
def evaluateRest (host : Host) (data : Value) :
    List (Combinator × List Char) → Evaluation (List (Combinator × Bool))
  | [] => pure []
  | (combinator, s) :: rest => do
    let result ← evaluateComparison host s data
    let results ← evaluateRest host data rest
    return (combinator, result) :: results

/-- The result of a condition. -/
def evaluate (host : Host) (condition : List Char) (data : Value) : Evaluation Bool :=
  match forbiddenIn condition with
  | c :: _ => Evaluation.throw (.forbiddenCharacter (String.ofList condition) c)
  | [] => do
    let (first, rest) := split condition
    let result ← evaluateComparison host first data
    let results ← evaluateRest host data rest
    return reduce result results

/-- The result of a condition that must be a text first. -/
def evaluateValue (host : Host) (condition data : Value) : Evaluation Bool :=
  match condition with
  | .str s => evaluate host s.toList data
  | v => Evaluation.throw (.conditionNotText v.typeName)

theorem evaluate_of_forbidden (host : Host) {condition : List Char} {c : Char} {cs : List Char}
    (data : Value) (h : forbiddenIn condition = c :: cs) :
    evaluate host condition data =
      Evaluation.throw (.forbiddenCharacter (String.ofList condition) c) := by
  rw [evaluate, h]

end Condition

end Stencil
