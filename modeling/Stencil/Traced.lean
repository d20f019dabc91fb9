/-!
# Results with a trace

A computation that may fail can leave a trace of what it did on the way, in order. The trace of one
that fails ends with what it did before it failed.

* the instance of `LawfulMonad`: such computations can be strung together.
-/

namespace Stencil

/-- A result or a failure, with a trace. -/
structure Traced (ε τ α : Type) where
  /-- The result, or why there is none. -/
  outcome : Except ε α
  /-- What was done, in order. -/
  trace : List τ

namespace Traced

variable {ε τ α β : Type}

instance : Monad (Traced ε τ) where
  pure a := ⟨.ok a, []⟩
  bind x f :=
    match x.outcome with
    | .ok a =>
      let y := f a
      ⟨y.outcome, x.trace ++ y.trace⟩
    | .error e => ⟨.error e, x.trace⟩

theorem bind_of_ok {x : Traced ε τ α} {a : α} (h : x.outcome = .ok a) (f : α → Traced ε τ β) :
    x >>= f = ⟨(f a).outcome, x.trace ++ (f a).trace⟩ := by
  simp [bind, h]

theorem bind_of_error {x : Traced ε τ α} {e : ε} (h : x.outcome = .error e)
    (f : α → Traced ε τ β) : x >>= f = ⟨.error e, x.trace⟩ := by
  simp [bind, h]

theorem pure_def (a : α) : (pure a : Traced ε τ α) = ⟨.ok a, []⟩ := rfl

instance : LawfulMonad (Traced ε τ) := LawfulMonad.mk' (Traced ε τ)
  (fun x => by
    obtain ⟨outcome, trace⟩ := x
    cases outcome <;> simp [Functor.map])
  (fun a f => by simp [bind, pure])
  (fun x f g => by
    obtain ⟨outcome, trace⟩ := x
    cases outcome with
    | error => simp [bind]
    | ok a =>
      simp only [bind]
      cases (f a).outcome <;> simp)

/-- The computation that fails. -/
def fail (e : ε) : Traced ε τ α :=
  ⟨.error e, []⟩

/-- A result or a failure that leaves no trace. -/
def ofExcept (x : Except ε α) : Traced ε τ α :=
  ⟨x, []⟩

/-- The computation that leaves a trace and does nothing else. -/
def tell (t : τ) : Traced ε τ Unit :=
  ⟨.ok (), [t]⟩

end Traced

end Stencil
