import Stencil.Condition
import Stencil.Interpolation
import Stencil.Proofs.Outcome

/-!
# Contexts that know more names

A context *extends* another one if it has every name of it, with the same value. Paths, conditions and
texts ask a context for the names that they hold and for nothing else, and none of them is content if
a name is missing. So what they come to in a context, they come to in every context that extends it.

* `extends_resolve`, `extends_evaluate`, `extends_interpolate`: paths, conditions and texts;
* `Context.Extends.bind`: a name that is bound on both sides.
-/

namespace Stencil

namespace Context

/-- A context has every name of another one, with the same value. -/
def Extends (c c' : Context) : Prop := ∀ name v, c.get? name = some v → c'.get? name = some v

theorem Extends.refl (c : Context) : c.Extends c := fun _ _ h => h

theorem get?_bind (c : Context) (name other : String) (v : Value) :
    get? (c.bind name v) other = if name = other then some v else get? c other := by
  induction c with
  | nil => rfl
  | cons entry rest ih =>
    obtain ⟨key, old⟩ := entry
    cases key with
    | str key =>
      rw [Context.bind]
      by_cases hkey : key = name
      · subst hkey
        simp only [if_true, get?_cons]
        split <;> rfl
      · simp only [if_neg hkey, get?_cons, ih]
        by_cases hother : key = other
        · rw [if_pos hother, if_pos hother, if_neg fun h => hkey (hother.trans h.symm)]
        · rw [if_neg hother, if_neg hother]
    | _ => exact ih

theorem Extends.bind {c c' : Context} (h : c.Extends c') (name : String) (v : Value) :
    Extends (c.bind name v) (c'.bind name v) := by
  intro other w hw
  rw [get?_bind] at hw ⊢
  split at hw
  next heq => rw [if_pos heq, hw]
  next hne => rw [if_neg hne, h other w hw]

end Context

namespace Path

open Evaluation

variable {host : Host} {c c' : Context}

theorem extends_lookup (h : c.Extends c') (name : List Char) :
    (lookup name c).Extends (lookup name c') := by
  intro v hv
  rw [lookup] at hv ⊢
  cases hget : c.get? (String.ofList name) with
  | none => simp [hget] at hv
  | some w => simpa [hget, h _ _ hget] using hv

theorem extends_resolveSubscript (h : c.Extends c') (path before after : List Char) :
    (resolveSubscript path before after c).Extends (resolveSubscript path before after c') := by
  rw [resolveSubscript, resolveSubscript]
  split
  · exact .refl _
  · exact (extends_lookup h _).bind fun base => .refl _

theorem extends_resolveArgument (h : c.Extends c') (argument : List Char) :
    (resolveArgument c argument).Extends (resolveArgument c' argument) := by
  rw [resolveArgument, resolveArgument]
  split
  · exact .refl _
  · dsimp only
    split
    · exact .refl _
    · exact extends_lookup h _

theorem extends_resolveArguments (h : c.Extends c') (arguments : List (List Char)) :
    (resolveArguments c arguments).Extends (resolveArguments c' arguments) := by
  induction arguments with
  | nil => exact .refl _
  | cons argument rest ih =>
    rw [resolveArguments, resolveArguments]
    exact (extends_resolveArgument h argument).bind fun v => ih.map (v :: ·)

theorem extends_resolveCall (h : c.Extends c') (path before after : List Char) :
    (resolveCall host path before after c).Extends (resolveCall host path before after c') := by
  rw [resolveCall, resolveCall]
  split
  · exact .refl _
  dsimp only
  cases hget : c.get? (String.ofList (Text.trim before)) with
  | none => exact Evaluation.not_gives_extends fun _ => Evaluation.not_gives_throw
  | some v =>
    rw [h _ _ hget]
    cases v with
    | fn function =>
      dsimp only
      split
      · exact .refl _
      · exact (extends_resolveArguments h _).bind fun args => .refl _
    | _ => exact .refl _

theorem extends_resolveLast (h : c.Extends c') (path : List Char) :
    (resolveLast host path c).Extends (resolveLast host path c') := by
  rw [resolveLast, resolveLast]
  split
  · exact extends_resolveSubscript h path _ _
  · split
    · exact extends_resolveCall h path _ _
    · exact extends_lookup h path

/-- A path leads where it led before: only its first name is looked up in the context. -/
theorem extends_resolve (h : c.Extends c') (path : List Char) :
    (resolve host path (.map c)).Extends (resolve host path (.map c')) := by
  rw [resolve, resolve]
  cases Text.fields '.' (Text.trim path) with
  | nil => exact extends_lookup h []
  | cons piece rest =>
    cases rest with
    | nil => exact extends_resolveLast h (Text.trim piece)
    | cons next rest =>
      rw [resolveMembers_cons, resolveMembers_cons]
      exact (extends_lookup h _).bind fun v => .refl _

theorem extends_resolveOperand (h : c.Extends c') (operand : List Char) :
    (resolveOperand host operand (.map c)).Extends (resolveOperand host operand (.map c')) := by
  rw [resolveOperand, resolveOperand]
  split
  · exact extends_resolve h _
  · exact .refl _

end Path

section

variable {host : Host} {c c' : Context}

namespace Condition

theorem extends_evaluateComparison (h : c.Extends c') (s : List Char) :
    (evaluateComparison host s (.map c)).Extends (evaluateComparison host s (.map c')) := by
  rw [evaluateComparison, evaluateComparison]
  split
  · exact (Path.extends_resolveOperand h _).bind fun a =>
      (Path.extends_resolveOperand h _).bind fun b => .refl _
  · exact (Path.extends_resolveOperand h _).map _

theorem extends_evaluateRest (h : c.Extends c') (rest : List (Combinator × List Char)) :
    (evaluateRest host (.map c) rest).Extends (evaluateRest host (.map c') rest) := by
  induction rest with
  | nil => exact .refl _
  | cons piece rest ih =>
    rw [evaluateRest, evaluateRest]
    exact (extends_evaluateComparison h piece.2).bind fun result => ih.map ((piece.1, result) :: ·)

/-- A condition has the result that it had before. -/
theorem extends_evaluate (h : c.Extends c') (condition : List Char) :
    (evaluate host condition (.map c)).Extends (evaluate host condition (.map c')) := by
  rw [evaluate, evaluate]
  split
  · exact .refl _
  · exact (extends_evaluateComparison h _).bind fun result =>
      (extends_evaluateRest h _).map (reduce result ·)

end Condition

/-- A text is filled in as it was before. -/
theorem extends_interpolate (h : c.Extends c') (fuel : Nat) (s : List Char) :
    (interpolate host (.map c) fuel s).Extends (interpolate host (.map c') fuel s) := by
  have hrender : ∀ inside, (renderPlaceholder host (.map c) inside).Extends
      (renderPlaceholder host (.map c') inside) :=
    fun inside => (Path.extends_resolve h _).bind fun v => .refl _
  induction fuel generalizing s with
  | zero =>
    rw [interpolate, interpolate]
    exact .refl _
  | succ fuel ih =>
    rw [interpolate, interpolate]
    split
    · exact .refl _
    · exact (hrender _).bind fun text => ih _

end

end Stencil
