import Stencil.Number.Numeral
import Stencil.Number.Shortest
import Stencil.Text.Quoted
import Stencil.Value.Basic

/-!
# Texts of values

A value has three texts. Its *written* form shows its structure and quotes its texts; it is the
one inside mappings and sets. Its *plain* form is the written one, but for a text, a day or a
moment, which stand for themselves. Its *rendered* form is what a placeholder is replaced by:
lower-case words for the truth values and null, all digits of a whole number, and sequences as
their rendered elements with commas between, null leaving its place empty.

An integer of more than 4300 digits has no text, and nor does what contains it.

* `render_bool`: truth values are rendered as they are read.
-/

namespace Stencil

namespace Value

/-- The written form of a scalar. -/
def writtenScalar : Value → Except NumberFault String
  | null => .ok "None"
  | bool b => .ok (if b then "True" else "False")
  | int n => (Numeral.write n).map String.ofList
  | float x => .ok (String.ofList x.text)
  | str s => .ok (String.ofList (Text.quote s.toList))
  | bytes data => .ok (String.ofList (Text.quoteBytes data))
  | fn name => .ok ("<function " ++ name ++ ">")
  | day d => .ok d.written
  | moment m => .ok m.written
  | _ => .ok ""

mutual

/-- The written form of a value. -/
def written : Value → Except NumberFault String
  | list items => do return "[" ++ ", ".intercalate (← writtenItems items) ++ "]"
  | tuple items => do
    match ← writtenItems items with
    | [item] => return "(" ++ item ++ ",)"
    | texts => return "(" ++ ", ".intercalate texts ++ ")"
  | set items => do
    match ← writtenItems items with
    | [] => return "set()"
    | texts => return "\x7b" ++ ", ".intercalate texts ++ "\x7d"
  | frozenset items => do
    match ← writtenItems items with
    | [] => return "frozenset()"
    | texts => return "frozenset(\x7b" ++ ", ".intercalate texts ++ "\x7d)"
  | map entries => do
    return "\x7b" ++ ", ".intercalate (← writtenEntries entries) ++ "\x7d"
  | null => writtenScalar null
  | bool b => writtenScalar (bool b)
  | int n => writtenScalar (int n)
  | float x => writtenScalar (float x)
  | str s => writtenScalar (str s)
  | bytes data => writtenScalar (bytes data)
  | fn name => writtenScalar (fn name)
  | day d => writtenScalar (day d)
  | moment m => writtenScalar (moment m)
termination_by structural v => v

/-- The written forms of the elements of a container. -/
def writtenItems : List Value → Except NumberFault (List String)
  | [] => .ok []
  | v :: vs => do return (← written v) :: (← writtenItems vs)
termination_by structural vs => vs

/-- The written forms of the entries of a mapping. -/
def writtenEntries : List (Value × Value) → Except NumberFault (List String)
  | [] => .ok []
  | (k, v) :: rest => do
    return ((← written k) ++ ": " ++ (← written v)) :: (← writtenEntries rest)
termination_by structural es => es

end

/-- The plain form of a value. -/
def plain : Value → Except NumberFault String
  | str s => .ok s
  | day d => .ok d.text
  | moment m => .ok m.text
  | v => v.written

mutual

/-- The rendered form of a value. -/
def render : Value → Except NumberFault String
  | null => .ok "null"
  | bool b => .ok (if b then "true" else "false")
  | float x =>
    match x.toInt? with
    | some n => (Numeral.write n).map String.ofList
    | none => .ok (String.ofList x.text)
  | list items => do return ",".intercalate (← renderItems items)
  | tuple items => do return ",".intercalate (← renderItems items)
  | int n => plain (int n)
  | str s => plain (str s)
  | set items => plain (set items)
  | frozenset items => plain (frozenset items)
  | map entries => plain (map entries)
  | bytes data => plain (bytes data)
  | fn name => plain (fn name)
  | day d => plain (day d)
  | moment m => plain (moment m)
termination_by structural v => v

/-- The rendered forms of the elements of a sequence. -/
def renderItems : List Value → Except NumberFault (List String)
  | [] => .ok []
  | null :: rest => do return "" :: (← renderItems rest)
  | v :: rest => do return (← render v) :: (← renderItems rest)
termination_by structural vs => vs

end

theorem render_bool (b : Bool) : render (bool b) = .ok (if b then "true" else "false") := rfl

end Value

end Stencil
