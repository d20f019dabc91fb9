import Stencil.Markup.Event.Read

/-!
# The tree of a markup text

The events of a markup text build a tree. An opening tag opens an element, unless its tag is one
that never closes; a closing tag closes the innermost open element of its name together with all
that was opened in it, and does nothing if there is none. What is open at the end is closed there.
Text joins the text before it if both are raw or both are not.

* `close_eq_self`: a closing tag without an open element changes nothing.
-/

namespace Stencil

/-- An open element with its children so far, last one first. -/
structure OpenElement where
  tag : String
  attrs : Attributes
  children : List Node

/-- A tree that is being built: the open elements, innermost first, and the top-level nodes so
    far, last one first. -/
structure Sprout where
  stack : List OpenElement
  roots : List Node

namespace Sprout

/-- Nothing yet. -/
def start : Sprout := ⟨[], []⟩

/-- The children so far of the innermost open element, last one first. -/
def current (b : Sprout) : List Node :=
  match b.stack with
  | [] => b.roots
  | e :: _ => e.children

/-- The tree with other children of the innermost open element. -/
def setCurrent (b : Sprout) (children : List Node) : Sprout :=
  match b.stack with
  | [] => ⟨[], children⟩
  | e :: stack => ⟨{ e with children } :: stack, b.roots⟩

/-- The tree with a further node in the innermost open element. -/
def push (b : Sprout) (node : Node) : Sprout :=
  b.setCurrent (node :: b.current)

/-- Whether text stands in the body of a script or a style sheet. -/
def inRaw (b : Sprout) : Bool :=
  match b.stack with
  | [] => false
  | e :: _ => e.tag ∈ Node.rawTags

/-- The tree with further text. -/
def pushText (b : Sprout) (data : String) : Sprout :=
  match b.current with
  | .text before raw :: rest =>
    if raw = b.inRaw then b.setCurrent (.text (before ++ data) raw :: rest)
    else b.push (.text data b.inRaw)
  | _ => b.push (.text data b.inRaw)

/-- The tree with the innermost open element closed. -/
def closeOne (b : Sprout) : Sprout :=
  match b.stack with
  | [] => b
  | e :: stack => push ⟨stack, b.roots⟩ (.element e.tag e.attrs e.children.reverse false)

/-- The tree with the given number of innermost open elements closed. -/
def closeMany : (count : Nat) → Sprout → Sprout
  | 0, b => b
  | count + 1, b => closeMany count b.closeOne

/-- The tree after a closing tag. -/
def close (b : Sprout) (tag : String) : Sprout :=
  match b.stack.findIdx? (·.tag == tag) with
  | some i => closeMany (i + 1) b
  | none => b

/-- The tree after a further event. -/
def add (b : Sprout) : Markup.Event → Sprout
  | .startTag tag attrs =>
    if tag ∈ Node.voidTags then b.push (.element tag (OrderedMap.ofList attrs) [] true)
    else ⟨⟨tag, OrderedMap.ofList attrs, []⟩ :: b.stack, b.roots⟩
  | .selfClosing tag attrs => b.push (.element tag (OrderedMap.ofList attrs) [] true)
  | .endTag tag => b.close tag
  | .text data => b.pushText data
  | .comment data => b.push (.comment data)
  | .declaration data => b.push (.text ("<!" ++ data ++ ">") true)
  | .instruction data => b.push (.text ("<?" ++ data ++ ">") true)
  | .marked data => b.push (.text ("<![" ++ data ++ "]>") true)

/-- The nodes of a tree, all open elements closed. -/
def finish (b : Sprout) : List Node :=
  (closeMany b.stack.length b).roots.reverse

theorem close_eq_self {b : Sprout} {tag : String} (h : ∀ e ∈ b.stack, e.tag ≠ tag) :
    b.close tag = b := by
  have : b.stack.findIdx? (·.tag == tag) = none := by
    rw [List.findIdx?_eq_none_iff]
    intro e he
    simpa using h e he
  rw [close, this]

end Sprout

namespace Node

/-- The nodes that events build. -/
def ofEvents (events : List Markup.Event) : List Node :=
  (events.foldl Sprout.add Sprout.start).finish

/-- The nodes of a markup text. -/
def parse (text : String) : Except Markup.Fault (List Node) :=
  (Markup.read text.toList).map ofEvents

end Node

end Stencil
