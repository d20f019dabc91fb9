import Stencil.Proofs.Expansion.Placeholder

/-!
# Values that can be filled in anywhere

A value is *clean* if neither it nor a value in it is a function or is rendered with one of the
characters that markup and placeholders are told by. The keys of mappings are not rendered. Whatever
a path leads to in a clean context is clean, and so is a context in which a repetition has bound an
element.

* `AllIn.get?`, `IsClean.element`: what is found in values that are clean;
* `AllIn.bind`: a context with a value bound in it.
-/

namespace Stencil

namespace Value

mutual

/-- `P` holds of a value and of all values in it. -/
def All (P : Value → Prop) : Value → Prop
  | list items => P (list items) ∧ AllOf P items
  | tuple items => P (tuple items) ∧ AllOf P items
  | set items => P (set items) ∧ AllOf P items
  | frozenset items => P (frozenset items) ∧ AllOf P items
  | map entries => P (map entries) ∧ AllIn P entries
  | null => P null
  | bool b => P (bool b)
  | int n => P (int n)
  | float x => P (float x)
  | str s => P (str s)
  | bytes data => P (bytes data)
  | fn name => P (fn name)
  | day d => P (day d)
  | moment m => P (moment m)
termination_by structural v => v

/-- `P` holds of the elements of a container and of all values in them. -/
def AllOf (P : Value → Prop) : List Value → Prop
  | [] => True
  | v :: vs => All P v ∧ AllOf P vs
termination_by structural vs => vs

/-- `P` holds of the values of a mapping and of all values in them. -/
def AllIn (P : Value → Prop) : List (Value × Value) → Prop
  | [] => True
  | (_, v) :: entries => All P v ∧ AllIn P entries
termination_by structural entries => entries

end

variable {P : Value → Prop}

theorem All.self {v : Value} (h : All P v) : P v := by
  cases v with
  | list items => exact h.1
  | tuple items => exact h.1
  | set items => exact h.1
  | frozenset items => exact h.1
  | map entries => exact h.1
  | null => exact h
  | bool b => exact h
  | int n => exact h
  | float x => exact h
  | str s => exact h
  | bytes data => exact h
  | fn name => exact h
  | day d => exact h
  | moment m => exact h

theorem AllOf.of_mem {items : List Value} (h : AllOf P items) {item : Value} (hitem : item ∈ items) :
    All P item := by
  induction items with
  | nil => exact absurd hitem List.not_mem_nil
  | cons v items ih =>
    rcases List.mem_cons.1 hitem with rfl | hitem
    · exact h.1
    · exact ih h.2 hitem

/-- What a name is bound to. -/
theorem AllIn.get? {context : Context} (h : AllIn P context) {name : String} {v : Value}
    (hv : Context.get? context name = some v) : All P v := by
  induction context with
  | nil => cases hv
  | cons entry context ih =>
    obtain ⟨key, value⟩ := entry
    obtain ⟨hvalue, h⟩ := h
    cases key with
    | str key =>
      rw [Context.get?_cons] at hv
      split at hv
      · exact Option.some.inj hv ▸ hvalue
      · exact ih h hv
    | _ => exact ih h hv

theorem AllIn.bind {context : Context} (h : AllIn P context) (name : String) {v : Value}
    (hv : All P v) : AllIn P (Context.bind context name v) := by
  induction context with
  | nil => exact ⟨hv, trivial⟩
  | cons entry context ih =>
    obtain ⟨key, value⟩ := entry
    obtain ⟨hvalue, h⟩ := h
    cases key with
    | str key =>
      rw [Context.bind]
      split
      · exact ⟨hv, h⟩
      · exact ⟨hvalue, ih h⟩
    | _ => exact ⟨hvalue, ih h⟩

/-- The elements that a repetition runs over. -/
theorem All.items {v : Value} (h : All P v) {items : List Value} (hitems : v.items? = some items) :
    AllOf P items := by
  cases v with
  | list items' => exact Option.some.inj hitems ▸ h.2
  | tuple items' => exact Option.some.inj hitems ▸ h.2
  | set items' => exact Option.some.inj hitems ▸ h.2
  | frozenset items' => exact Option.some.inj hitems ▸ h.2
  | _ => cases hitems

/-! ### Clean values -/

/-- A value is no function, and its rendered form is inert. -/
def RendersInert (v : Value) : Prop :=
  (∀ name, v ≠ fn name) ∧ ∀ text, v.render = .ok text → Inert text.toList

theorem rendersInert_of_render {v : Value} {text : String} (hfn : ∀ name, v ≠ fn name)
    (hv : v.render = .ok text) (htext : Inert text.toList) : v.RendersInert :=
  ⟨hfn, fun _ hother => Except.ok.inj (hv.symm.trans hother) ▸ htext⟩

/-- Nothing in a value is a function or is rendered with a special character. -/
def IsClean (v : Value) : Prop := All RendersInert v

theorem isClean_int (n : Int) : (int n).IsClean := by
  refine ⟨nofun, fun text htext c hc => ?_⟩
  obtain ⟨s, hs, rfl⟩ : ∃ s, Numeral.write n = .ok s ∧ String.ofList s = text := by
    cases hn : Numeral.write n with
    | ok s =>
      refine ⟨s, rfl, ?_⟩
      change (Numeral.write n).map String.ofList = .ok text at htext
      rw [hn] at htext
      exact Except.ok.inj htext
    | error fault =>
      change (Numeral.write n).map String.ofList = .ok text at htext
      rw [hn] at htext
      cases htext
  rw [String.toList_ofList] at hc
  rw [Numeral.write] at hs
  have hdigit : ∀ {c : Char}, c.isDigit = true → c ∉ specialChars := by
    intro c hc hs
    simp only [specialChars, List.mem_cons, List.not_mem_nil, or_false] at hs
    rcases hs with rfl | rfl | rfl | rfl | rfl | rfl <;> exact absurd hc (by decide)
  have hdigits : ∀ {c : Char}, c ∈ Nat.toDigits 10 n.natAbs → c ∉ specialChars := fun hc =>
    hdigit (Nat.isDigit_of_mem_toDigits (by decide) (by decide) hc)
  split_ifs at hs
  · obtain rfl := Except.ok.inj hs
    rcases List.mem_cons.1 hc with rfl | hc
    · decide
    · exact hdigits hc
  · exact hdigits (Except.ok.inj hs ▸ hc)

/-- An element of a clean value is clean, also if it is a character or a byte. -/
theorem IsClean.element {v item : Value} (h : v.IsClean) {index : Int} {n : Nat}
    (hitem : Path.element? index v = some (some item, n)) : item.IsClean := by
  have hget : ∀ {α : Type} {items : List α} {a : α},
      Path.element?.get? index items = some a → a ∈ items := by
    intro α items a ha
    rw [Path.element?.get?] at ha
    split_ifs at ha
    exact List.mem_of_getElem? ha
  cases v with
  | str s =>
    -- A text is rendered as itself, so its characters are those of its rendered form.
    obtain ⟨hs, -⟩ := Prod.mk.inj (Option.some.inj hitem)
    obtain ⟨c, hc, rfl⟩ := Option.map_eq_some_iff.1 hs
    refine ⟨nofun, fun text htext d hd => ?_⟩
    obtain rfl : String.singleton c = text := Except.ok.inj htext
    obtain rfl : d = c := by simpa using hd
    exact h.2 s rfl d (hget hc)
  | list items =>
    obtain ⟨hs, -⟩ := Prod.mk.inj (Option.some.inj hitem)
    exact h.2.of_mem (hget hs)
  | tuple items =>
    obtain ⟨hs, -⟩ := Prod.mk.inj (Option.some.inj hitem)
    exact h.2.of_mem (hget hs)
  | bytes data =>
    obtain ⟨hs, -⟩ := Prod.mk.inj (Option.some.inj hitem)
    obtain ⟨b, -, rfl⟩ := Option.map_eq_some_iff.1 hs
    exact isClean_int b.toNat
  | _ => cases hitem

end Value

/-- All values of a context are clean. -/
def Context.IsClean (context : Context) : Prop := Value.AllIn Value.RendersInert context

end Stencil
