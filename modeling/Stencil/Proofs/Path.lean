import Stencil.Path
import Stencil.Proofs.Text.Search
import Stencil.Proofs.Value.Clean

/-!
# What paths lead to and where they end

The errors of a path are about the values that it looks for, never about directives. It is malformed
only if it holds a bracket or a parenthesis that opens. In a clean context a path leads to a clean
value.

* `ensures_resolve`: a path;
* `ensures_read`: a literal, which may stand in its place.
-/

namespace Stencil

/-- The error is about values: about no directive, and not about the characters of a condition. -/
def TemplateError.IsOfValue : TemplateError → Prop
  | missingAttribute _ _ => False
  | badRepeat _ => False
  | circularInsert _ => False
  | templateNotFound _ => False
  | forbiddenCharacter _ _ => False
  | _ => True

/-- The error is that an accessor is malformed. -/
def TemplateError.IsAccessor : TemplateError → Prop
  | unclosedBracket _ => True
  | unclosedParenthesis _ => True
  | badSubscript _ => True
  | forbiddenCharacter _ _ => True
  | _ => False

theorem TemplateError.isAccessor_of_kind {e : TemplateError} (h : e.kind = "MalformedAccessor") :
    e.IsAccessor := by
  cases e <;> first | trivial | exact absurd h (by simp [kind])

namespace Path

/-- The errors that a path with these characters may end in. -/
structure MayRaise (s : List Char) (e : TemplateError) : Prop where
  ofValue : e.IsOfValue
  accessor : e.IsAccessor → '[' ∈ s ∨ '(' ∈ s

theorem MayRaise.mono {s t : List Char} (h : t ⊆ s) {e : TemplateError} (he : MayRaise t e) :
    MayRaise s e :=
  ⟨he.ofValue, fun hk => (he.accessor hk).imp (fun hm => h hm) fun hm => h hm⟩

variable {host : Host} {s : List Char}

/-- The value that a clean context is asked for is clean. -/
def LeadsTo (context : Context) (v : Value) : Prop := context.IsClean → v.IsClean

theorem ensures_lookup (name : List Char) (context : Context) :
    Evaluation.Ensures (MayRaise s) (LeadsTo context) (lookup name context) := by
  rw [lookup]
  split
  next v hv => exact Evaluation.ensures_pure fun h => h.get? hv
  next => exact Evaluation.ensures_throw ⟨trivial, False.elim⟩

theorem ensures_resolveSubscript (path before after : List Char) (context : Context)
    (h : '[' ∈ s) :
    Evaluation.Ensures (MayRaise s) (LeadsTo context)
      (resolveSubscript path before after context) := by
  rw [resolveSubscript]
  split
  · exact Evaluation.ensures_throw ⟨trivial, fun _ => .inl h⟩
  refine (ensures_lookup _ context).bind fun base _ hbase => ?_
  split
  · split
    · split
      next hv => exact Evaluation.ensures_pure fun h => (hbase h).2.get? hv
      · exact Evaluation.ensures_throw ⟨trivial, False.elim⟩
    · exact Evaluation.ensures_throw ⟨trivial, False.elim⟩
  · split
    · exact Evaluation.ensures_throw ⟨trivial, fun _ => .inl h⟩
    · split
      · exact Evaluation.ensures_throw ⟨trivial, False.elim⟩
      · exact Evaluation.ensures_throw ⟨trivial, False.elim⟩
      next hv => exact Evaluation.ensures_pure fun h => (hbase h).element hv

theorem ensures_read (literal : List Char) :
    Evaluation.Ensures (MayRaise s) (fun _ => True) (Literal.read literal) := by
  rw [Literal.read]
  split
  · exact Evaluation.ensures_pure trivial
  split
  · exact Evaluation.ensures_pure trivial
  split
  · exact Evaluation.ensures_pure trivial
  split
  · exact (Evaluation.ensures_ofNumber fun _ _ => trivial).bind fun _ _ _ =>
      Evaluation.ensures_pure trivial
  · exact Evaluation.ensures_pure trivial
  · exact Evaluation.ensures_throw ⟨trivial, False.elim⟩

theorem ensures_resolveArguments (context : Context) (arguments : List (List Char))
    (h : '(' ∈ s) :
    Evaluation.Ensures (MayRaise s) (fun _ => True) (resolveArguments context arguments) := by
  induction arguments with
  | nil => exact Evaluation.ensures_pure trivial
  | cons argument rest ih =>
    rw [resolveArguments]
    have hargument : Evaluation.Ensures (MayRaise s) (fun _ => True)
        (resolveArgument context argument) := by
      rw [resolveArgument]
      split
      · exact ensures_read _
      dsimp only
      split
      · exact Evaluation.ensures_throw ⟨trivial, fun _ => .inr h⟩
      · exact (ensures_lookup _ context).imp (fun _ h => h) fun _ _ _ => trivial
    exact hargument.bind fun _ _ _ => ih.bind fun _ _ _ => Evaluation.ensures_pure trivial

theorem ensures_resolveCall (path before after : List Char) (context : Context) (h : '(' ∈ s) :
    Evaluation.Ensures (MayRaise s) (LeadsTo context)
      (resolveCall host path before after context) := by
  rw [resolveCall]
  split
  · exact Evaluation.ensures_throw ⟨trivial, fun _ => .inr h⟩
  simp only
  split
  · exact Evaluation.ensures_throw ⟨trivial, False.elim⟩
  next function hfunction =>
    have hcall : ∀ args, Evaluation.Ensures (MayRaise s) (LeadsTo context)
        (Evaluation.call host function args) := by
      intro args
      -- A clean context has no functions, so nothing is said of what they return.
      refine ⟨fun v _ hclean => absurd rfl ((hclean.get? hfunction).self.1 function), fun e he => ?_⟩
      rw [Evaluation.Raises, Evaluation.call] at he
      cases hresult : host function args with
      | ok v => simp [hresult, Except.mapError] at he
      | error message => simp [hresult, Except.mapError] at he
    split
    · exact hcall []
    · exact (ensures_resolveArguments context _ h).bind fun args _ _ => hcall args
  · exact Evaluation.ensures_throw ⟨trivial, False.elim⟩

theorem ensures_resolveLast (path : List Char) (context : Context) :
    Evaluation.Ensures (MayRaise path) (LeadsTo context) (resolveLast host path context) := by
  rw [resolveLast]
  split
  next before after hcut =>
    exact ensures_resolveSubscript path before after context (Text.subset_of_cutAt hcut).1
  split
  next before after hcut =>
    exact ensures_resolveCall path before after context (Text.subset_of_cutAt hcut).1
  · exact ensures_lookup path context

theorem ensures_resolveMembers (pieces : List (List Char)) (hpieces : ∀ piece ∈ pieces, piece ⊆ s)
    (context : Context) :
    Evaluation.Ensures (MayRaise s) (LeadsTo context) (resolveMembers host pieces context) := by
  induction pieces generalizing context with
  | nil => exact ensures_lookup [] context
  | cons piece rest ih =>
    -- Only the last piece may have an accessor; the pieces before it are names.
    cases rest with
    | nil =>
      have hsubset := List.Subset.trans (Text.trim_subset piece) (hpieces piece List.mem_cons_self)
      exact (ensures_resolveLast (Text.trim piece) context).imp (fun _ he => he.mono hsubset)
        fun _ _ h => h
    | cons next rest =>
      rw [resolveMembers_cons]
      refine (ensures_lookup _ context).bind fun base _ hbase => ?_
      split
      next entries _ =>
        exact (ih (fun p hp => hpieces p (List.mem_cons_of_mem piece hp)) entries).imp
          (fun _ he => he) fun _ _ hv h => hv (hbase h).2
      next => exact Evaluation.ensures_throw ⟨trivial, False.elim⟩

/-- A path ends in errors about values only, and leads to a clean value in a clean context. -/
theorem ensures_resolve (path : List Char) (context : Context) :
    Evaluation.Ensures (MayRaise path) (LeadsTo context) (resolve host path (.map context)) := by
  refine ensures_resolveMembers _ (fun piece hpiece => ?_) context
  exact List.Subset.trans (Text.subset_of_mem_fields hpiece) (Text.trim_subset path)

end Path

end Stencil
