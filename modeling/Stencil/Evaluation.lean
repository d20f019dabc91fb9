import Stencil.Failure
import Stencil.Traced
import Stencil.Value.Basic

/-!
# Evaluations

An evaluation has an outcome, a result or a failure, and a trace: the calls of functions that it
made, in order. The trace of an evaluation that fails ends with what was called before it failed.

* `calls_bind`: the calls of two evaluations in a row are those of the first and, if it has a
  result, those of the second.
-/

namespace Stencil

/-- A call of a function. -/
structure Call where
  name : String
  args : List Value

/-- What functions return, or the message that they fail with. -/
abbrev Host := (name : String) → (args : List Value) → Except String Value

/-- The host without functions. -/
def Host.none : Host := fun name _ => .error name

/-- An evaluation. -/
abbrev Evaluation := Traced Failure Call

namespace Evaluation

variable {α β : Type}

/-- The calls that an evaluation made, in order. -/
abbrev calls (x : Evaluation α) : List Call := x.trace

/-- The evaluation that fails. -/
def fail (failure : Failure) : Evaluation α :=
  Traced.fail failure

/-- The evaluation that ends in an error of the template. -/
def throw (error : TemplateError) : Evaluation α :=
  fail (.template error)

/-- A conversion of numbers as an evaluation. -/
def ofNumber (x : Except NumberFault α) : Evaluation α :=
  Traced.ofExcept (x.mapError Failure.number)

/-- A reading of markup as an evaluation. -/
def ofMarkup (x : Except Markup.Fault α) : Evaluation α :=
  Traced.ofExcept (x.mapError Failure.markup)

/-- A call of a function. -/
def call (host : Host) (name : String) (args : List Value) : Evaluation Value :=
  ⟨(host name args).mapError Failure.callee, [⟨name, args⟩]⟩

theorem calls_bind (x : Evaluation α) (f : α → Evaluation β) :
    (x >>= f).calls = x.calls ++ (match x.outcome with | .ok a => (f a).calls | .error _ => []) := by
  obtain ⟨outcome, calls⟩ := x
  cases outcome <;> simp [bind]

end Evaluation

end Stencil
