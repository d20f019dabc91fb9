import Mathlib.Data.List.Chain
import Stencil.Proofs.Markup.Building
import Stencil.Proofs.Markup.Forest

/-!
# A walk over the tree that events build

A walk over nodes meets elements, comments and characters, each in a *place*: the elements that it stands
in. A walk over the tree that events build meets what the events bring, in the order of the events, and
each in the place that was open when its event came (`placedAll_ofEvents`). Nothing is lost, doubled or
moved, however the tags are nested.

An opening tag opens a place in the place where it stands, unless it never closes. A closing tag leaves
the innermost element of its name, with all places in it; without such an element it is ignored
(`Place.leave`, `close_cases`).

* `placed_push`, `placed_closeOne`: what is met in a tree that is being built;
* `placed_add`, `opened_add`: what an event adds, and the place that it leads to;
* `placed_foldl_add`: the same for all events;
* `IsGrowing.add`: elements that never close stay empty, and no two texts that are not raw come next to
  each other.
-/

namespace Stencil

open Markup

/-- The elements that something stands in, innermost first. -/
abbrev Place := List (String × Attributes)

/-- The place outside the innermost element of a name, or the place itself if there is none. -/
def Place.leave (tag : String) (place : Place) : Place :=
  match place.dropWhile fun e => e.1 ≠ tag with
  | [] => place
  | _ :: outer => outer

/-- What is met on a walk over nodes. -/
inductive Item where
  | element (tag : String) (attrs : Attributes) (void : Bool)
  | comment (data : String)
  | char (c : Char)

namespace Node

mutual

/-- What is met on a walk over a node in a place. -/
def placed (place : Place) : Node → List (Place × Item)
  | element tag attrs children void =>
    (place, .element tag attrs void) :: placedAll ((tag, attrs) :: place) children
  | fragment children => placedAll place children
  | text data _ => data.toList.map fun c => (place, .char c)
  | comment data => [(place, .comment data)]
termination_by structural n => n

/-- What is met on a walk over nodes in a place. -/
def placedAll (place : Place) : List Node → List (Place × Item)
  | [] => []
  | n :: ns => placed place n ++ placedAll place ns
termination_by structural ns => ns

end

theorem placedAll_append (place : Place) (as bs : List Node) :
    placedAll place (as ++ bs) = placedAll place as ++ placedAll place bs := by
  induction as with
  | nil => rfl
  | cons a as ih => rw [List.cons_append, placedAll, placedAll, ih, List.append_assoc]

theorem placedAll_reverse_cons (place : Place) (n : Node) (ns : List Node) :
    placedAll place (n :: ns).reverse = placedAll place ns.reverse ++ n.placed place := by
  rw [List.reverse_cons, placedAll_append, placedAll, placedAll, List.append_nil]

end Node

namespace Markup.Event

/-- What an event brings. -/
def items : Event → List Item
  | startTag tag attrs => [.element tag (OrderedMap.ofList attrs) (decide (tag ∈ Node.voidTags))]
  | selfClosing tag attrs => [.element tag (OrderedMap.ofList attrs) true]
  | endTag _ => []
  | text data => data.toList.map .char
  | comment data => [.comment data]
  | declaration data => ("<!" ++ data ++ ">").toList.map .char
  | instruction data => ("<?" ++ data ++ ">").toList.map .char
  | marked data => ("<![" ++ data ++ "]>").toList.map .char

/-- The place that is open after an event. -/
def placeAfter (place : Place) : Event → Place
  | startTag tag attrs =>
    if tag ∈ Node.voidTags then place else (tag, OrderedMap.ofList attrs) :: place
  | endTag tag => place.leave tag
  | _ => place

/-- What events bring, each in the place that is open when it comes. -/
def placedFrom (place : Place) : List Event → List (Place × Item)
  | [] => []
  | e :: events => e.items.map (place, ·) ++ placedFrom (e.placeAfter place) events

theorem map_snd_placedFrom (place : Place) (events : List Event) :
    (placedFrom place events).map Prod.snd = events.flatMap items := by
  induction events generalizing place with
  | nil => rfl
  | cons e events ih =>
    rw [placedFrom, List.map_append, ih, List.map_map, List.flatMap_cons]
    exact congrArg (· ++ _) (List.map_id _)

end Markup.Event

open Node

namespace Sprout

/-- The place of the innermost open element. -/
def opened (b : Sprout) : Place := b.stack.map fun e => (e.tag, e.attrs)

/-- What is met on a walk over top-level nodes and open elements, innermost first. -/
def placedStack (roots : List Node) : List OpenElement → List (Place × Item)
  | [] => placedAll [] roots.reverse
  | e :: stack =>
    let place : Place := stack.map fun e => (e.tag, e.attrs)
    placedStack roots stack ++ (place, .element e.tag e.attrs false) ::
      placedAll ((e.tag, e.attrs) :: place) e.children.reverse

/-- What is met on a walk over all that was built so far. -/
def placed (b : Sprout) : List (Place × Item) := placedStack b.roots b.stack

variable {b : Sprout}

/-! ### Nodes that come in -/

@[simp] theorem opened_setCurrent (b : Sprout) (children : List Node) :
    (b.setCurrent children).opened = b.opened := by
  obtain ⟨_ | ⟨e, stack⟩, roots⟩ := b <;> rfl

@[simp] theorem opened_push (b : Sprout) (n : Node) : (b.push n).opened = b.opened :=
  opened_setCurrent b _

/-- What comes behind the children of the innermost open element is met behind all else. -/
theorem placed_setCurrent {children : List Node} {more : List (Place × Item)}
    (h : placedAll b.opened children.reverse = placedAll b.opened b.current.reverse ++ more) :
    (b.setCurrent children).placed = b.placed ++ more := by
  obtain ⟨_ | ⟨e, stack⟩, roots⟩ := b
  · exact h
  · rw [placed, placed, setCurrent, placedStack, placedStack, List.append_assoc, List.cons_append]
    exact congrArg (fun rest => placedStack roots stack ++ _ :: rest) h

theorem placed_push (b : Sprout) (n : Node) : (b.push n).placed = b.placed ++ n.placed b.opened :=
  placed_setCurrent (placedAll_reverse_cons _ _ _)

theorem opened_pushText (b : Sprout) (data : String) : (b.pushText data).opened = b.opened := by
  unfold pushText
  split
  · split_ifs
    · exact opened_setCurrent b _
    · exact opened_push b _
  · exact opened_push b _

/-- The characters of a text are met behind all else, whether it joins another one or not. -/
theorem placed_pushText (b : Sprout) (data : String) :
    (b.pushText data).placed = b.placed ++ data.toList.map fun c => (b.opened, .char c) := by
  unfold pushText
  split
  next before raw rest heq =>
    split_ifs
    · refine placed_setCurrent ?_
      rw [heq, placedAll_reverse_cons, placedAll_reverse_cons, List.append_assoc, Node.placed,
        Node.placed, String.toList_append, List.map_append]
    · exact placed_push b _
  next => exact placed_push b _

/-! ### Elements that are closed -/

theorem opened_closeOne (b : Sprout) : b.closeOne.opened = b.opened.tail := by
  obtain ⟨_ | ⟨e, stack⟩, roots⟩ := b
  · rfl
  · exact opened_push ⟨stack, roots⟩ _

/-- An element that is closed stays where it was. -/
theorem placed_closeOne (b : Sprout) : b.closeOne.placed = b.placed := by
  obtain ⟨_ | ⟨e, stack⟩, roots⟩ := b
  · rfl
  · exact placed_push ⟨stack, roots⟩ _

theorem opened_closeMany (b : Sprout) (count : Nat) :
    (b.closeMany count).opened = b.opened.drop count := by
  induction count generalizing b with
  | zero => rfl
  | succ count ih => rw [closeMany, ih, opened_closeOne, List.drop_tail]

/-- Closing an element with all that was opened in it leaves what was open around it. -/
theorem opened_closeMany_append {inner outer : List OpenElement} {e : OpenElement}
    (h : b.stack = inner ++ e :: outer) :
    (b.closeMany (inner.length + 1)).opened = outer.map fun e => (e.tag, e.attrs) := by
  have hdrop : (inner ++ e :: outer).drop (inner.length + 1) = outer := by simp
  rw [opened_closeMany, opened, h, ← List.map_drop, hdrop]

theorem placed_closeMany (b : Sprout) (count : Nat) : (b.closeMany count).placed = b.placed := by
  induction count generalizing b with
  | zero => rfl
  | succ count ih => rw [closeMany, ih, placed_closeOne]

theorem closeMany_add (b : Sprout) (m n : Nat) : b.closeMany (m + n) = (b.closeMany m).closeMany n := by
  induction m generalizing b with
  | zero => rw [Nat.zero_add, closeMany]
  | succ m ih => rw [Nat.succ_add, closeMany, ih, closeMany]

theorem length_stack (b : Sprout) : b.stack.length = b.opened.length := by
  rw [opened, List.length_map]

/-- What is closed early would be closed at the end. -/
theorem finish_closeMany {count : Nat} (h : count ≤ b.stack.length) :
    (b.closeMany count).finish = b.finish := by
  have hlength : b.stack.length = count + (b.closeMany count).stack.length := by
    rw [length_stack (b.closeMany count), opened_closeMany, List.length_drop, ← length_stack]
    omega
  rw [finish, finish, hlength, closeMany_add]

/-- A walk over the finished nodes meets what was met before they were finished. -/
theorem placedAll_finish (b : Sprout) : placedAll [] b.finish = b.placed := by
  have hopened : (b.closeMany b.stack.length).opened = [] := by
    rw [opened_closeMany, length_stack, List.drop_length]
  have hstack : (b.closeMany b.stack.length).stack = [] := List.map_eq_nil_iff.1 hopened
  rw [← placed_closeMany b b.stack.length, placed, hstack]
  rfl

/-- A closing tag closes the innermost element of its name with all that was opened in it, or there is no
    such element and it changes nothing. -/
theorem close_cases (b : Sprout) (tag : String) :
    (∀ e ∈ b.stack, e.tag ≠ tag) ∧ b.close tag = b ∨
      ∃ inner e outer, b.stack = inner ++ e :: outer ∧ (∀ e' ∈ inner, e'.tag ≠ tag) ∧ e.tag = tag ∧
        b.close tag = b.closeMany (inner.length + 1) := by
  cases hfind : b.stack.findIdx? (·.tag == tag) with
  | none =>
    have hnone : ∀ e ∈ b.stack, e.tag ≠ tag := by
      simpa using List.findIdx?_eq_none_iff.1 hfind
    exact .inl ⟨hnone, close_eq_self hnone⟩
  | some i =>
    obtain ⟨hi, htag, hinner⟩ := List.findIdx?_eq_some_iff_getElem.1 hfind
    have hlength : (b.stack.take i).length = i := List.length_take_of_le hi.le
    refine .inr ⟨b.stack.take i, b.stack[i], b.stack.drop (i + 1), ?_, fun e he => ?_, ?_, ?_⟩
    · rw [← List.drop_eq_getElem_cons hi, List.take_append_drop]
    · obtain ⟨j, hj, rfl⟩ := List.mem_iff_getElem.1 he
      have hji : j < i := hlength ▸ hj
      simpa using hinner j hji
    · simpa using htag
    · rw [close, hfind, hlength]

/-- A closing tag leads to the place outside the innermost element of its name. -/
theorem opened_close (b : Sprout) (tag : String) : (b.close tag).opened = b.opened.leave tag := by
  rcases close_cases b tag with ⟨hnone, hclose⟩ | ⟨inner, e, outer, hstack, hinner, htag, hclose⟩
  · have hdrop : b.opened.dropWhile (fun e => e.1 ≠ tag) = [] := by
      rw [List.dropWhile_eq_nil_iff, opened, List.forall_mem_map]
      simpa using hnone
    rw [hclose, Place.leave, hdrop]
  · have hdrop : b.opened.dropWhile (fun e => e.1 ≠ tag) =
        (e.tag, e.attrs) :: outer.map fun e => (e.tag, e.attrs) := by
      rw [opened, hstack, List.map_append, List.map_cons, List.dropWhile_append_of_pos,
        List.dropWhile_cons_of_neg (by simpa using htag)]
      simpa using hinner
    rw [hclose, Place.leave, hdrop, opened_closeMany_append hstack]

theorem placed_close (b : Sprout) (tag : String) : (b.close tag).placed = b.placed := by
  rcases close_cases b tag with ⟨-, hclose⟩ | ⟨inner, -, -, -, -, -, hclose⟩
  · rw [hclose]
  · rw [hclose, placed_closeMany]

/-- A closing tag changes nothing of what the tree will be if no more events come. -/
theorem finish_close (b : Sprout) (tag : String) : (b.close tag).finish = b.finish := by
  rcases close_cases b tag with ⟨-, hclose⟩ | ⟨inner, e, outer, hstack, -, -, hclose⟩
  · rw [hclose]
  · rw [hclose, finish_closeMany]
    rw [hstack, List.length_append, List.length_cons]
    omega

/-! ### Events -/

/-- An event leads to the place that is open after it. -/
theorem opened_add (b : Sprout) (e : Event) : (b.add e).opened = e.placeAfter b.opened := by
  cases e with
  | startTag tag attrs =>
    rw [add, Event.placeAfter]
    split_ifs
    · exact opened_push b _
    · rfl
  | endTag tag => exact opened_close b tag
  | text data => exact opened_pushText b data
  | selfClosing tag attrs => exact opened_push b _
  | comment data => exact opened_push b _
  | declaration data => exact opened_push b _
  | instruction data => exact opened_push b _
  | marked data => exact opened_push b _

/-- What an event brings comes behind all else, in the place that was open. -/
theorem placed_add (b : Sprout) (e : Event) :
    (b.add e).placed = b.placed ++ e.items.map (b.opened, ·) := by
  have htext (data : String) : (b.push (.text data true)).placed =
      b.placed ++ (data.toList.map .char).map (b.opened, ·) := by
    rw [placed_push, Node.placed, List.map_map]
    rfl
  cases e with
  | startTag tag attrs =>
    rw [add, Event.items]
    split_ifs with hvoid
    · rw [decide_eq_true hvoid]
      exact placed_push b _
    · rw [decide_eq_false hvoid]
      rfl
  | endTag tag => exact (placed_close b tag).trans (List.append_nil _).symm
  | text data => rw [add, placed_pushText, Event.items, List.map_map]; rfl
  | selfClosing tag attrs => exact placed_push b _
  | comment data => exact placed_push b _
  | declaration data => exact htext _
  | instruction data => exact htext _
  | marked data => exact htext _

theorem placed_foldl_add (b : Sprout) (events : List Event) :
    (events.foldl add b).placed = b.placed ++ Event.placedFrom b.opened events := by
  induction events generalizing b with
  | nil => exact (List.append_nil _).symm
  | cons e events ih =>
    rw [List.foldl_cons, ih, placed_add, opened_add, Event.placedFrom, List.append_assoc]

end Sprout

/-! ### The shape of what is built -/

namespace Node

/-- Two nodes next to each other are not both texts that are not raw. -/
def Apart (m n : Node) : Prop := ¬(m.isPlainText = true ∧ n.isPlainText = true)

/-- A node is no fragment; it has no children if it is closed with its tag or of a tag that never closes,
    and no two texts among its children that could be one. -/
def IsGrown : Node → Prop
  | element tag _ children void =>
    (void = true ∨ tag ∈ voidTags → children = []) ∧ children.IsChain Apart
  | fragment _ => False
  | text _ _ => True
  | comment _ => True

/-- Nodes are as events build them, and so are all nodes below them. -/
structure Grown (ns : List Node) : Prop where
  everywhere : Everywhere (fun n _ => n.IsGrown) ns
  apart : ns.IsChain Apart

theorem grown_nil : Grown [] := ⟨trivial, .nil⟩

theorem apart_comm {m n : Node} : Apart m n ↔ Apart n m := not_congr and_comm

theorem apart_of_not_isPlainText {n : Node} (h : n.isPlainText = false) (m : Node) : Apart n m :=
  fun hplain => Bool.noConfusion (h.symm.trans hplain.1)

theorem grown_reverse {ns : List Node} (h : Grown ns) : Grown ns.reverse where
  everywhere := everywhere_reverse.2 h.everywhere
  apart := List.isChain_reverse.2 (h.apart.imp fun _ _ => apart_comm.1)

/-- A node without children comes in front of others. -/
theorem Grown.cons {n : Node} {ns : List Node} (h : Grown ns) (hn : n.IsGrown)
    (hbelow : EverywhereBelow (fun n _ => n.IsGrown) n) (hapart : ∀ m ∈ ns.head?, Apart n m) :
    Grown (n :: ns) where
  everywhere := ⟨hn, hbelow, h.everywhere⟩
  apart := List.isChain_cons.2 ⟨hapart, h.apart⟩

/-- An element is as its children are. -/
theorem Grown.element {children ns : List Node} (h : Grown children) {tag : String}
    (attrs : Attributes) {void : Bool} (hempty : void = true ∨ tag ∈ voidTags → children = [])
    (hns : Grown ns) : Grown (.element tag attrs children void :: ns) :=
  hns.cons ⟨hempty, h.apart⟩ h.everywhere fun m _ => apart_of_not_isPlainText rfl m

end Node

namespace Sprout

/-- All that is built so far is as events build it, and the open elements can have children. -/
structure IsGrowing (b : Sprout) : Prop where
  stack : ∀ e ∈ b.stack, e.tag ∉ voidTags ∧ Grown e.children
  roots : Grown b.roots

variable {b : Sprout}

theorem isGrowing_start : start.IsGrowing := ⟨fun _ he => absurd he List.not_mem_nil, grown_nil⟩

theorem IsGrowing.current (h : b.IsGrowing) : Grown b.current := by
  obtain ⟨_ | ⟨e, stack⟩, roots⟩ := b
  · exact h.roots
  · exact (h.stack e List.mem_cons_self).2

theorem IsGrowing.setCurrent (h : b.IsGrowing) {children : List Node} (hchildren : Grown children) :
    (b.setCurrent children).IsGrowing := by
  obtain ⟨_ | ⟨e, stack⟩, roots⟩ := b
  · exact ⟨h.stack, hchildren⟩
  · obtain ⟨he, hstack⟩ := List.forall_mem_cons.1 h.stack
    exact ⟨List.forall_mem_cons.2 ⟨⟨he.1, hchildren⟩, hstack⟩, h.roots⟩

/-- A text joins the text before it, unless one of them is raw and the other is not. -/
theorem IsGrowing.pushText (h : b.IsGrowing) (data : String) : (b.pushText data).IsGrowing := by
  unfold Sprout.pushText
  split
  next before raw rest heq =>
    have hcurrent := heq ▸ h.current
    obtain ⟨hapart, hrest⟩ := List.isChain_cons.1 hcurrent.apart
    split_ifs with hraw
    · exact h.setCurrent ⟨⟨trivial, trivial, hcurrent.everywhere.2.2⟩,
        List.isChain_cons.2 ⟨hapart, hrest⟩⟩
    · refine h.setCurrent (h.current.cons trivial trivial fun m hm hplain => hraw ?_)
      rw [heq] at hm
      obtain rfl := Option.some.inj hm
      obtain ⟨hdata, hbefore⟩ := hplain
      simp only [isPlainText, Bool.not_eq_true'] at hdata hbefore
      rw [hdata, hbefore]
  next hother =>
    refine h.setCurrent (h.current.cons trivial trivial fun m hm hplain => ?_)
    obtain ⟨rest, hrest⟩ := List.head?_eq_some_iff.1 hm
    cases m with
    | text before raw => exact hother before raw rest hrest
    | _ => cases hplain.2

theorem IsGrowing.closeOne (h : b.IsGrowing) : b.closeOne.IsGrowing := by
  obtain ⟨_ | ⟨e, stack⟩, roots⟩ := b
  · exact h
  · obtain ⟨⟨hvoid, hchildren⟩, hstack⟩ := List.forall_mem_cons.1 h.stack
    have houter : IsGrowing ⟨stack, roots⟩ := ⟨hstack, h.roots⟩
    have hempty : false = true ∨ e.tag ∈ voidTags → e.children.reverse = [] :=
      fun h => absurd (h.resolve_left Bool.noConfusion) hvoid
    exact houter.setCurrent ((grown_reverse hchildren).element e.attrs hempty houter.current)

theorem IsGrowing.closeMany (h : b.IsGrowing) (count : Nat) : (b.closeMany count).IsGrowing := by
  induction count generalizing b with
  | zero => exact h
  | succ count ih => exact ih h.closeOne

theorem IsGrowing.add (h : b.IsGrowing) (e : Event) : (b.add e).IsGrowing := by
  have hempty (tag : String) (attrs : Attributes) : (b.push (.element tag attrs [] true)).IsGrowing :=
    h.setCurrent (grown_nil.element attrs (fun _ => rfl) h.current)
  have hraw (data : String) : (b.push (.text data true)).IsGrowing :=
    h.setCurrent (h.current.cons trivial trivial fun m _ => apart_of_not_isPlainText rfl m)
  cases e with
  | startTag tag attrs =>
    rw [Sprout.add]
    split_ifs with hvoid
    · exact hempty tag _
    · exact ⟨List.forall_mem_cons.2 ⟨⟨hvoid, grown_nil⟩, h.stack⟩, h.roots⟩
  | selfClosing tag attrs => exact hempty tag _
  | endTag tag =>
    rcases close_cases b tag with ⟨-, hclose⟩ | ⟨inner, -, -, -, -, -, hclose⟩
    · exact (congrArg IsGrowing hclose).mpr h
    · exact (congrArg IsGrowing hclose).mpr (h.closeMany _)
  | text data => exact h.pushText data
  | comment data =>
    exact h.setCurrent (h.current.cons trivial trivial fun m _ => apart_of_not_isPlainText rfl m)
  | declaration data => exact hraw _
  | instruction data => exact hraw _
  | marked data => exact hraw _

theorem IsGrowing.foldl_add (h : b.IsGrowing) (events : List Event) :
    (events.foldl Sprout.add b).IsGrowing := by
  induction events generalizing b with
  | nil => exact h
  | cons e events ih => exact ih (h.add e)

end Sprout

namespace Node

/-- A walk over the tree that events build meets what the events bring, in their order and each in the
    place that was open when its event came, and nothing else. At any time a closing tag changes nothing
    of what the finished tree will be, and either there is no open element of its name, and it is ignored,
    or it closes the innermost one with all that was opened in it. In the tree there are no fragments, no
    children of elements that never close, and no two texts next to each other that are not raw. -/
theorem placedAll_ofEvents (events : List Event) :
    placedAll [] (ofEvents events) = Event.placedFrom [] events ∧
    (placedAll [] (ofEvents events)).map Prod.snd = events.flatMap Event.items ∧
    (∀ (b : Sprout) (tag : String), (b.add (.endTag tag)).finish = b.finish ∧
      ((∀ e ∈ b.stack, e.tag ≠ tag) ∧ b.add (.endTag tag) = b ∨
        ∃ inner e outer, b.stack = inner ++ e :: outer ∧ (∀ e' ∈ inner, e'.tag ≠ tag) ∧ e.tag = tag ∧
          (b.add (.endTag tag)).opened = outer.map fun e => (e.tag, e.attrs))) ∧
    Grown (ofEvents events) := by
  have hplaced : placedAll [] (ofEvents events) = Event.placedFrom [] events := by
    rw [ofEvents, Sprout.placedAll_finish, Sprout.placed_foldl_add]
    rfl
  refine ⟨hplaced, ?_, fun b tag => ⟨Sprout.finish_close b tag, ?_⟩, ?_⟩
  · rw [hplaced, Event.map_snd_placedFrom]
  · rcases Sprout.close_cases b tag with h | ⟨inner, e, outer, hstack, hinner, htag, hclose⟩
    · exact .inl h
    · exact .inr ⟨inner, e, outer, hstack, hinner, htag,
        (congrArg Sprout.opened hclose).trans (Sprout.opened_closeMany_append hstack)⟩
  · have hgrowing := (Sprout.isGrowing_start.foldl_add events).closeMany
      (events.foldl Sprout.add Sprout.start).stack.length
    exact grown_reverse hgrowing.roots

/-- The closing tag of the outer element closes both, and that of the inner one comes too late. -/
theorem placedAll_ofEvents_misnested :
    placedAll [] (ofEvents [.startTag "a" [], .startTag "b" [], .endTag "a", .text "x", .endTag "b"]) =
      [([], .element "a" .empty false), ([("a", .empty)], .element "b" .empty false), ([], .char 'x')] :=
  (placedAll_ofEvents _).1

end Node

end Stencil
