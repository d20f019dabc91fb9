import Stencil.Number.Binary64
import Stencil.Value.Calendar

/-!
# Values

The data that fill a template: scalars, sequences, sets, mappings, bytes and functions. A mapping
keeps its entries in the order in which their keys first came. A function is known by its name only;
what a call of it returns is decided by the host of the template.

The *context* of a template is the mapping that its paths start from.

* `Context.get?_cons`: a name is looked up entry by entry, the first one with it counts.
-/

namespace Stencil

/-- A value. -/
inductive Value where
  | null
  | bool (b : Bool)
  | int (n : Int)
  | float (x : Binary64)
  | str (s : String)
  | list (items : List Value)
  | tuple (items : List Value)
  | set (items : List Value)
  | frozenset (items : List Value)
  | map (entries : List (Value × Value))
  | bytes (data : List UInt8)
  /-- A function of the host. -/
  | fn (name : String)
  | day (d : Day)
  | moment (m : Moment)
  deriving Inhabited

/-- The entries of a mapping in which names are looked up. -/
abbrev Context := List (Value × Value)

namespace Context

/-- The value of a name. -/
def get? : Context → (name : String) → Option Value
  | [], _ => none
  | (.str key, value) :: rest, name => if key = name then some value else get? rest name
  | _ :: rest, name => get? rest name

theorem get?_cons (key name : String) (value : Value) (rest : Context) :
    get? ((.str key, value) :: rest) name = if key = name then some value else get? rest name := by
  rw [get?]

/-- The context with a name bound to a value, at the place of its old binding if there is one. -/
def bind : Context → (name : String) → (value : Value) → Context
  | [], name, value => [(.str name, value)]
  | (.str key, old) :: rest, name, value =>
    if key = name then (.str key, value) :: rest else (.str key, old) :: bind rest name value
  | entry :: rest, name, value => entry :: bind rest name value

end Context

namespace Value

/-- The name of the type of a value, as messages give it. -/
def typeName : Value → String
  | null => "NoneType"
  | bool _ => "bool"
  | int _ => "int"
  | float _ => "float"
  | str _ => "str"
  | list _ => "list"
  | tuple _ => "tuple"
  | set _ => "set"
  | frozenset _ => "frozenset"
  | map _ => "dict"
  | bytes _ => "bytes"
  | fn _ => "function"
  | day _ => "date"
  | moment _ => "datetime"

/-- Whether a value counts as true: a zero, an empty text or container, and null do not. -/
def truthy : Value → Bool
  | null => false
  | bool b => b
  | int n => n != 0
  | float x => !x.isZero
  | str s => s != ""
  | list items => !items.isEmpty
  | tuple items => !items.isEmpty
  | set items => !items.isEmpty
  | frozenset items => !items.isEmpty
  | map entries => !entries.isEmpty
  | bytes data => !data.isEmpty
  | fn _ => true
  | day _ => true
  | moment _ => true

/-- Whether a value is an integer or a floating-point number. -/
def isNumber : Value → Bool
  | int _ => true
  | float _ => true
  | _ => false

/-- The entries of a mapping. -/
def entries? : Value → Option Context
  | map entries => some entries
  | _ => none

/-- The elements that a repetition runs over: those of a sequence or of a set. -/
def items? : Value → Option (List Value)
  | list items => some items
  | tuple items => some items
  | set items => some items
  | frozenset items => some items
  | _ => none

end Value

end Stencil
