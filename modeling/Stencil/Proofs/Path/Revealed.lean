import Stencil.Proofs.Path.Written
import Stencil.Proofs.Value.Clean

/-!
# What a path reveals

A path goes from the context through mappings from key to key. What it *reaches* in this way is a value
of the context or of a mapping that is reached itself. At its end it may go one step further, to an
element of a sequence or a character of a text, and there is no other way to a value: nothing is computed,
nothing outside of the context is looked at, and a place in a sequence is only counted from its start.

A context without functions has nothing to call. So a path in it leads to a value that is *revealed* in
this sense, or it ends in one of five kinds of errors of the template, whatever its text is
(`resolve_revealed`).

* `Reaches.trans`: what is reached from a mapping that is reached;
* `concludes_resolveLast`: the last piece of a path, with its accessor;
* `concludes_resolveMembers`: the pieces before it, each in the mapping that the one before leads to.
-/

namespace Stencil

/-- A value is no function. -/
def Value.IsData (v : Value) : Prop := ∀ name, v ≠ fn name

/-- There is no function in a context, at any depth. -/
def Context.IsData (context : Context) : Prop := Value.AllIn Value.IsData context

namespace Path

open Evaluation

/-- A value is that of a key of the context, or of a key of a mapping that is reached from it. -/
inductive Reaches (context : Context) : Value → Prop where
  | key {name : String} {v : Value} : context.get? name = some v → Reaches context v
  | member {entries : Context} {name : String} {v : Value} :
      Reaches context (.map entries) → entries.get? name = some v → Reaches context v

/-- A value is reached from the context, or it is an element of a sequence or a character of a text that
    is, at a place counted from zero on. -/
inductive Reveals (context : Context) : Value → Prop where
  | value {v : Value} : Reaches context v → Reveals context v
  | element {base v : Value} {items : List Value} {i : Nat} :
      Reaches context base → elements? base = some items → items[i]? = some v → Reveals context v

/-- The kinds of errors that a path can end in where there are no functions. -/
def dataErrors : List String :=
  ["UndefinedVariable", "TypeMismatch", "IndexOutOfRange", "NotAFunction", "MalformedAccessor"]

/-- A path that reveals nothing ends in one of those errors. -/
def Refuses (failure : Failure) : Prop := ∃ e : TemplateError, failure = .template e ∧ e.kind ∈ dataErrors

variable {host : Host} {context : Context}

/-! ### Ways through mappings -/

theorem Reaches.trans {entries : Context} {v : Value} (h : Reaches context (.map entries))
    (hv : Reaches entries v) : Reaches context v := by
  induction hv with
  | key hname => exact .member h hname
  | member _ hname ih => exact .member ih hname

theorem Reveals.trans {entries : Context} {v : Value} (h : Reaches context (.map entries))
    (hv : Reveals entries v) : Reveals context v := by
  cases hv with
  | value hv => exact .value (h.trans hv)
  | element hbase hitems hv => exact .element (h.trans hbase) hitems hv

/-- What an index finds is an element. -/
theorem Reveals.of_element? {base v : Value} {index : Int} {n : Nat} (h : Reaches context base)
    (hv : element? index base = some (some v, n)) : Reveals context v := by
  rw [element?_eq] at hv
  obtain ⟨items, hitems, hfound⟩ := Option.map_eq_some_iff.1 hv
  have hget : element?.get? index items = some v := (Prod.mk.inj hfound).1
  rw [element?.get?] at hget
  split_ifs at hget
  exact .element h hitems hget

/-- What is reached from a context without functions holds none. -/
theorem Reaches.isData {v : Value} (hcontext : context.IsData) (h : Reaches context v) :
    Value.All Value.IsData v := by
  induction h with
  | key hname => exact hcontext.get? hname
  | member _ hname ih => exact ih.2.get? hname

/-! ### Paths -/

theorem refuses_template {e : TemplateError} (h : e.kind ∈ dataErrors) : Refuses (.template e) :=
  ⟨e, rfl, h⟩

theorem concludes_lookup (name : List Char) (context : Context) :
    (lookup name context).Concludes Refuses (Reaches context) := by
  rw [lookup]
  split
  next hv => exact concludes_pure (.key hv)
  next => exact concludes_throw (refuses_template (by decide : "UndefinedVariable" ∈ dataErrors))

theorem concludes_resolveSubscript (path before after : List Char) (context : Context) :
    (resolveSubscript path before after context).Concludes Refuses (Reveals context) := by
  have hmalformed : "MalformedAccessor" ∈ dataErrors := by decide
  have hmismatch : "TypeMismatch" ∈ dataErrors := by decide
  rw [resolveSubscript]
  split
  · exact concludes_throw (refuses_template hmalformed)
  refine (concludes_lookup _ context).bind fun base _ hbase => ?_
  split
  · -- A key in quotes goes one mapping further.
    split
    · split
      next hv => exact concludes_pure (.value (.member hbase hv))
      · exact concludes_throw (refuses_template (by decide : "UndefinedVariable" ∈ dataErrors))
    · exact concludes_throw (refuses_template hmismatch)
  · split
    · exact concludes_throw (refuses_template hmalformed)
    · split
      · exact concludes_throw (refuses_template hmismatch)
      · exact concludes_throw (refuses_template (by decide : "IndexOutOfRange" ∈ dataErrors))
      next hv => exact concludes_pure (.of_element? hbase hv)

/-- Where there are no functions a call is refused before its arguments are evaluated. -/
theorem concludes_resolveCall (path before after : List Char) (hcontext : context.IsData) :
    (resolveCall host path before after context).Concludes Refuses (Reveals context) := by
  rw [resolveCall]
  split
  · exact concludes_throw (refuses_template (by decide : "MalformedAccessor" ∈ dataErrors))
  dsimp only
  split
  · exact concludes_throw (refuses_template (by decide : "UndefinedVariable" ∈ dataErrors))
  next function hfunction => exact absurd rfl ((hcontext.get? hfunction).self function)
  · exact concludes_throw (refuses_template (by decide : "NotAFunction" ∈ dataErrors))

theorem concludes_resolveLast (path : List Char) (hcontext : context.IsData) :
    (resolveLast host path context).Concludes Refuses (Reveals context) := by
  rw [resolveLast]
  split
  · exact concludes_resolveSubscript path _ _ context
  · split
    · exact concludes_resolveCall path _ _ hcontext
    · exact (concludes_lookup path context).imp (fun _ h => h) fun _ => .value

/-- The pieces of a path lead from mapping to mapping, and the last one to a value. -/
theorem concludes_resolveMembers (pieces : List (List Char)) (hcontext : context.IsData) :
    (resolveMembers host pieces context).Concludes Refuses (Reveals context) := by
  induction pieces generalizing context with
  | nil => exact (concludes_lookup [] context).imp (fun _ h => h) fun _ => .value
  | cons piece rest ih =>
    cases rest with
    | nil => exact concludes_resolveLast (Text.trim piece) hcontext
    | cons next rest =>
      rw [resolveMembers_cons]
      refine (concludes_lookup _ context).bind fun base _ hbase => ?_
      split
      next entries _ =>
        have hentries : Context.IsData entries := (hbase.isData hcontext).2
        exact (ih hentries).imp (fun _ h => h) fun _ hv => hv.trans hbase
      · exact concludes_throw (refuses_template (by decide : "TypeMismatch" ∈ dataErrors))

/-- Where there are no functions, every path leads to a value that the context reveals, or ends in an
    error of one of five kinds and in no other way. It calls nothing. -/
theorem resolve_revealed (host : Host) (path : List Char) (context : Context)
    (hcontext : context.IsData) :
    ((∃ v, (resolve host path (.map context)).Gives v ∧ Reveals context v) ∨
        ∃ e, (resolve host path (.map context)).Raises e ∧ e.kind ∈ dataErrors) ∧
      (resolve host path (.map context)).calls = [] := by
  have h : (resolve host path (.map context)).Concludes Refuses (Reveals context) :=
    concludes_resolveMembers _ hcontext
  refine ⟨h.gives_or_fails.imp_right ?_, h.silent⟩
  rintro ⟨failure, hfailure, e, rfl, hkind⟩
  exact ⟨e, hfailure, hkind⟩

/-- A text in a list in a mapping. -/
def shelfContext : Context :=
  [(.str "a", .map [(.str "b", .list [.str "xy"]), (.str "", .int 7)])]

/-- A path with blanks in it and a bracket that closes nothing. -/
def shelfPath : List Char := " a. b[ 0 ]]".toList

theorem resolve_revealed_shelf :
    shelfContext.IsData ∧ (resolve Host.none shelfPath (.map shelfContext)).Gives (.str "xy") ∧
      ((∃ v, (resolve Host.none shelfPath (.map shelfContext)).Gives v ∧ Reveals shelfContext v) ∨
          ∃ e, (resolve Host.none shelfPath (.map shelfContext)).Raises e ∧ e.kind ∈ dataErrors) ∧
        (resolve Host.none shelfPath (.map shelfContext)).calls = [] := by
  have hdata : shelfContext.IsData :=
    ⟨⟨nofun, ⟨nofun, nofun, trivial⟩, nofun, trivial⟩, trivial⟩
  exact ⟨hdata, rfl, resolve_revealed Host.none shelfPath shelfContext hdata⟩

end Path

end Stencil
