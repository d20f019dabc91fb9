import Stencil.Condition
import Stencil.Traced
import Stencil.Value.Text

/-!
# Why evaluations end early

A result or a failure *fails in* a class of failures if it is a result or a failure of this class; a
computation in two parts does if both of them do.

Of all failures a path can only end in an error of the template, in a literal of too many digits and in
a function that fails (`Path.failsIn_resolve`), and a condition besides in an integer that is too large
to be compared (`Condition.failsIn_evaluate`). Texts of values can only fail for integers of too many
digits (`Value.failsIn_render`).

* `FailsIn.bind`, `FailsIn.outcome_bind`: two parts in a row;
* `Value.failsIn_toNumber`, `Comparison.failsIn_holds`: the comparisons of values.
-/

namespace Stencil

section

variable {ε ε' τ α β : Type} {allowed allowed' : ε → Prop}

/-- A result or a failure is a result or a failure of a class. -/
def FailsIn (allowed : ε → Prop) (x : Except ε α) : Prop := ∀ e, x = .error e → allowed e

theorem failsIn_ok (a : α) : FailsIn allowed (.ok a) := nofun

theorem failsIn_error {e : ε} (h : allowed e) : FailsIn allowed (.error e : Except ε α) := by
  intro _ he
  cases he
  exact h

theorem FailsIn.imp {x : Except ε α} (h : FailsIn allowed x) (himp : ∀ e, allowed e → allowed' e) :
    FailsIn allowed' x :=
  fun e he => himp e (h e he)

theorem FailsIn.bind {x : Except ε α} {f : α → Except ε β} (hx : FailsIn allowed x)
    (hf : ∀ a, x = .ok a → FailsIn allowed (f a)) : FailsIn allowed (x >>= f) := by
  cases x with
  | ok a => exact hf a rfl
  | error e => exact failsIn_error (hx e rfl)

theorem FailsIn.map {x : Except ε α} (hx : FailsIn allowed x) (f : α → β) :
    FailsIn allowed (x.map f) := by
  cases x with
  | ok a => exact failsIn_ok (f a)
  | error e => exact failsIn_error (hx e rfl)

theorem failsIn_mapError {allowed : ε' → Prop} {x : Except ε α} {f : ε → ε'}
    (hx : FailsIn (fun e => allowed (f e)) x) : FailsIn allowed (x.mapError f) := by
  cases x with
  | ok a => exact failsIn_ok a
  | error e => exact failsIn_error (hx e rfl)

theorem failsIn_pure (a : α) : FailsIn allowed (pure a : Traced ε τ α).outcome := failsIn_ok a

theorem FailsIn.outcome_bind {x : Traced ε τ α} {f : α → Traced ε τ β}
    (hx : FailsIn allowed x.outcome) (hf : ∀ a, x.outcome = .ok a → FailsIn allowed (f a).outcome) :
    FailsIn allowed (x >>= f).outcome := by
  cases houtcome : x.outcome with
  | ok a =>
    rw [Traced.bind_of_ok houtcome]
    exact hf a houtcome
  | error e =>
    rw [Traced.bind_of_error houtcome]
    exact failsIn_error (hx e houtcome)

end

/-! ### Numbers and texts of values -/

namespace Numeral

theorem failsIn_toInt (negative : Bool) (digits : List Nat) :
    FailsIn (· = .unreadable digits.length) (toInt negative digits) := by
  rw [toInt]
  split
  · exact failsIn_error rfl
  · exact failsIn_ok _

theorem failsIn_write (n : Int) : FailsIn (· = .unwritable) (write n) := by
  rw [write]
  split
  · exact failsIn_error rfl
  · exact failsIn_ok _

end Numeral

namespace Value

theorem failsIn_writtenScalar (v : Value) : FailsIn (· = .unwritable) v.writtenScalar := by
  cases v with
  | int n => exact (Numeral.failsIn_write n).map String.ofList
  | _ => exact failsIn_ok _

mutual

/-- A value has no written form only if there is an integer of too many digits in it. -/
theorem failsIn_written (v : Value) : FailsIn (· = .unwritable) v.written := by
  cases v with
  | list items => exact (failsIn_writtenItems items).bind fun _ _ => failsIn_ok _
  | tuple items =>
    refine (failsIn_writtenItems items).bind fun texts _ => ?_
    split <;> exact failsIn_ok _
  | set items =>
    refine (failsIn_writtenItems items).bind fun texts _ => ?_
    split <;> exact failsIn_ok _
  | frozenset items =>
    refine (failsIn_writtenItems items).bind fun texts _ => ?_
    split <;> exact failsIn_ok _
  | map entries => exact (failsIn_writtenEntries entries).bind fun _ _ => failsIn_ok _
  | _ =>
    rw [written]
    exact failsIn_writtenScalar _

theorem failsIn_writtenItems (items : List Value) :
    FailsIn (· = .unwritable) (writtenItems items) := by
  cases items with
  | nil => exact failsIn_ok _
  | cons v vs =>
    exact (failsIn_written v).bind fun _ _ => (failsIn_writtenItems vs).bind fun _ _ => failsIn_ok _

theorem failsIn_writtenEntries (entries : List (Value × Value)) :
    FailsIn (· = .unwritable) (writtenEntries entries) := by
  cases entries with
  | nil => exact failsIn_ok _
  | cons entry rest =>
    obtain ⟨k, v⟩ := entry
    exact (failsIn_written k).bind fun _ _ => (failsIn_written v).bind fun _ _ =>
      (failsIn_writtenEntries rest).bind fun _ _ => failsIn_ok _

end

theorem failsIn_plain (v : Value) : FailsIn (· = .unwritable) v.plain := by
  cases v with
  | str | day | moment => exact failsIn_ok _
  | _ => exact failsIn_written _

mutual

/-- A value cannot be rendered only if there is an integer of too many digits in it. -/
theorem failsIn_render (v : Value) : FailsIn (· = .unwritable) v.render := by
  cases v with
  | null | bool => exact failsIn_ok _
  | float x =>
    rw [render]
    split
    · exact (Numeral.failsIn_write _).map String.ofList
    · exact failsIn_ok _
  | list items => exact (failsIn_renderItems items).bind fun _ _ => failsIn_ok _
  | tuple items => exact (failsIn_renderItems items).bind fun _ _ => failsIn_ok _
  | _ =>
    rw [render]
    exact failsIn_plain _

theorem failsIn_renderItems (items : List Value) : FailsIn (· = .unwritable) (renderItems items) := by
  cases items with
  | nil => exact failsIn_ok _
  | cons v vs =>
    cases v with
    | null => exact (failsIn_renderItems vs).bind fun _ _ => failsIn_ok _
    | _ =>
      exact (failsIn_render _).bind fun _ _ => (failsIn_renderItems vs).bind fun _ _ => failsIn_ok _

end

theorem failsIn_toNumber (v : Value) : FailsIn (· = .tooLarge) v.toNumber := by
  cases v with
  | int n =>
    rw [toNumber]
    split
    · exact failsIn_ok _
    · exact failsIn_error rfl
  | _ => exact failsIn_ok _

theorem failsIn_looseEqualsPlain (a b : Value) : FailsIn (· = .tooLarge) (looseEqualsPlain a b) := by
  rw [looseEqualsPlain]
  split
  · exact (failsIn_toNumber a).bind fun _ _ => (failsIn_toNumber b).bind fun _ _ => failsIn_ok _
  · exact (failsIn_toNumber a).bind fun _ _ => (failsIn_toNumber b).bind fun _ _ => failsIn_ok _
  · exact failsIn_ok _

theorem failsIn_looseEquals (a b : Value) : FailsIn (· = .tooLarge) (looseEquals a b) := by
  rw [looseEquals]
  split
  · exact failsIn_ok _
  split
  · exact failsIn_ok _
  · exact failsIn_ok _
  · exact (failsIn_toNumber a).bind fun _ _ => failsIn_looseEqualsPlain _ b
  · exact (failsIn_toNumber b).bind fun _ _ => failsIn_looseEqualsPlain a _
  · exact failsIn_looseEqualsPlain a b

theorem failsIn_compare (o : Order) (a b : Value) : FailsIn (· = .tooLarge) (compare o a b) := by
  have horder : FailsIn (· = .tooLarge) (order? a b) := by
    rw [order?.eq_def]
    split
    · exact failsIn_ok _
    · exact (failsIn_toNumber a).bind fun _ _ => (failsIn_toNumber b).bind fun _ _ => failsIn_ok _
  refine horder.bind fun ordering _ => ?_
  split <;> exact failsIn_ok _

end Value

/-- Two values cannot be compared only if there is an integer that is too large. -/
theorem Comparison.failsIn_holds (comparison : Comparison) (a b : Value) :
    FailsIn (· = .tooLarge) (comparison.holds a b) := by
  cases comparison with
  | strict | notStrict => exact failsIn_ok _
  | loose => exact Value.failsIn_looseEquals a b
  | notLoose => exact (Value.failsIn_looseEquals a b).map (!·)
  | order o => exact Value.failsIn_compare o a b

/-! ### Paths -/

namespace Path

open Evaluation

/-- How a path can end early. -/
inductive Failing : Failure → Prop where
  | template (error : TemplateError) : Failing (.template error)
  /-- A literal has too many digits. -/
  | literal (digits : Nat) : Failing (.number (.unreadable digits))
  | callee (message : String) : Failing (.callee message)

variable {host : Host} {α : Type}

theorem failsIn_throw (e : TemplateError) : FailsIn Failing (throw e : Evaluation α).outcome :=
  failsIn_error (.template e)

theorem failsIn_call (name : String) (args : List Value) :
    FailsIn Failing (call host name args).outcome :=
  failsIn_mapError fun message _ => .callee message

theorem failsIn_lookup (name : List Char) (context : Context) :
    FailsIn Failing (lookup name context).outcome := by
  rw [lookup]
  split
  · exact failsIn_pure _
  · exact failsIn_throw _

theorem failsIn_read (literal : List Char) : FailsIn Failing (Literal.read literal).outcome := by
  rw [Literal.read]
  split
  · exact failsIn_pure _
  split
  · exact failsIn_pure _
  split
  · exact failsIn_pure _
  split
  · refine FailsIn.outcome_bind (failsIn_mapError ?_) fun _ _ => failsIn_pure _
    exact (Numeral.failsIn_toInt _ _).imp fun _ h => h ▸ .literal _
  · exact failsIn_pure _
  · exact failsIn_throw _

theorem failsIn_resolveSubscript (path before after : List Char) (context : Context) :
    FailsIn Failing (resolveSubscript path before after context).outcome := by
  rw [resolveSubscript]
  split
  · exact failsIn_throw _
  refine (failsIn_lookup _ context).outcome_bind fun base _ => ?_
  split
  · split
    · split
      · exact failsIn_pure _
      · exact failsIn_throw _
    · exact failsIn_throw _
  · split
    · exact failsIn_throw _
    · split
      · exact failsIn_throw _
      · exact failsIn_throw _
      · exact failsIn_pure _

theorem failsIn_resolveArgument (context : Context) (argument : List Char) :
    FailsIn Failing (resolveArgument context argument).outcome := by
  rw [resolveArgument]
  split
  · exact failsIn_read _
  dsimp only
  split
  · exact failsIn_throw _
  · exact failsIn_lookup _ context

theorem failsIn_resolveArguments (context : Context) (arguments : List (List Char)) :
    FailsIn Failing (resolveArguments context arguments).outcome := by
  induction arguments with
  | nil => exact failsIn_pure _
  | cons argument rest ih =>
    exact (failsIn_resolveArgument context argument).outcome_bind fun _ _ =>
      ih.outcome_bind fun _ _ => failsIn_pure _

theorem failsIn_resolveCall (path before after : List Char) (context : Context) :
    FailsIn Failing (resolveCall host path before after context).outcome := by
  rw [resolveCall]
  split
  · exact failsIn_throw _
  dsimp only
  split
  · exact failsIn_throw _
  · split
    · exact failsIn_call _ _
    · exact (failsIn_resolveArguments context _).outcome_bind fun _ _ => failsIn_call _ _
  · exact failsIn_throw _

theorem failsIn_resolveLast (path : List Char) (context : Context) :
    FailsIn Failing (resolveLast host path context).outcome := by
  rw [resolveLast]
  split
  · exact failsIn_resolveSubscript path _ _ context
  · split
    · exact failsIn_resolveCall path _ _ context
    · exact failsIn_lookup path context

theorem failsIn_resolveMembers (pieces : List (List Char)) (context : Context) :
    FailsIn Failing (resolveMembers host pieces context).outcome := by
  induction pieces generalizing context with
  | nil => exact failsIn_lookup [] context
  | cons piece rest ih =>
    cases rest with
    | nil => exact failsIn_resolveLast (Text.trim piece) context
    | cons next rest =>
      rw [resolveMembers_cons]
      refine (failsIn_lookup _ context).outcome_bind fun base _ => ?_
      split
      · exact ih _
      · exact failsIn_throw _

/-- The value of a path is found, or there is an error of the template, a literal has too many digits or
    a function fails. -/
theorem failsIn_resolve (path : List Char) (data : Value) :
    FailsIn Failing (resolve host path data).outcome := by
  cases data with
  | map context => exact failsIn_resolveMembers _ context
  | _ => exact failsIn_throw _

theorem failsIn_resolveOperand (operand : List Char) (data : Value) :
    FailsIn Failing (resolveOperand host operand data).outcome := by
  rw [resolveOperand]
  split
  · exact failsIn_resolve _ data
  · exact failsIn_read _

end Path

/-! ### Conditions -/

namespace Condition

/-- How a condition can end early. -/
inductive Failing : Failure → Prop where
  | operand {failure : Failure} : Path.Failing failure → Failing failure
  /-- An integer is too large to be compared. -/
  | tooLarge : Failing (.number .tooLarge)

variable {host : Host}

theorem failsIn_operand (operand : List Char) (data : Value) :
    FailsIn Failing (Path.resolveOperand host operand data).outcome :=
  (Path.failsIn_resolveOperand operand data).imp fun _ => .operand

theorem failsIn_evaluateComparison (s : List Char) (data : Value) :
    FailsIn Failing (evaluateComparison host s data).outcome := by
  rw [evaluateComparison]
  split
  · refine (failsIn_operand _ data).outcome_bind fun a _ =>
      (failsIn_operand _ data).outcome_bind fun b _ => failsIn_mapError ?_
    exact (Comparison.failsIn_holds _ a b).imp fun _ h => h ▸ .tooLarge
  · exact (failsIn_operand s data).outcome_bind fun _ _ => failsIn_pure _

theorem failsIn_evaluateRest (data : Value) (rest : List (Combinator × List Char)) :
    FailsIn Failing (evaluateRest host data rest).outcome := by
  induction rest with
  | nil => exact failsIn_pure _
  | cons piece rest ih =>
    rw [evaluateRest]
    exact (failsIn_evaluateComparison piece.2 data).outcome_bind fun _ _ =>
      ih.outcome_bind fun _ _ => failsIn_pure _

/-- A condition has a result, or one of its operands ends early, or an integer is too large to be
    compared. -/
theorem failsIn_evaluate (condition : List Char) (data : Value) :
    FailsIn Failing (evaluate host condition data).outcome := by
  rw [evaluate]
  split
  · exact failsIn_error (.operand (.template _))
  · exact (failsIn_evaluateComparison _ data).outcome_bind fun _ _ =>
      (failsIn_evaluateRest data _).outcome_bind fun _ _ => failsIn_pure _

end Condition

end Stencil
