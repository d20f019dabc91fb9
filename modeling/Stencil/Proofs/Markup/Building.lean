import Stencil.Markup.Node.Build
import Stencil.Proofs.Markup.Reading

/-!
# Trees that events build

Events that are put together build the nodes of each in turn, wherever they come in the tree that is
being built, as long as no text joins another one. `Builds events nodes` says so of events outside
of scripts and style sheets: whatever tree they come to, they append the nodes to the innermost open
element.

* `Builds.append`: events in a row;
* `builds_element`, `builds_rawElement`: an element is built from its opening tag, its children and
  its closing tag;
* `ofEvents_of_builds`: what events build from nothing.
-/

namespace Stencil

namespace Node

/-- Whether this is a text that is not raw. -/
def isPlainText : Node → Bool
  | text _ raw => !raw
  | _ => false

theorem isPlainText_eq_false {n : Node} (h : ∀ data, n ≠ text data false) : n.isPlainText = false := by
  cases n with
  | text data raw =>
    cases raw with
    | true => rfl
    | false => exact absurd rfl (h data)
  | comment data => rfl
  | element tag attrs children void => rfl
  | fragment children => rfl

/-- No text comes first in nodes that do not start with one. -/
theorem any_head?_isPlainText_eq_false {ns : List Node}
    (h : ∀ data rest, ns = text data false :: rest → False) : ns.head?.any isPlainText = false := by
  cases ns with
  | nil => rfl
  | cons n ns => exact isPlainText_eq_false fun data hn => h data ns (by rw [hn])

end Node

namespace Sprout

/-- The tree with further nodes in the innermost open element. -/
def pushAll (b : Sprout) (nodes : List Node) : Sprout :=
  b.setCurrent (nodes.reverse ++ b.current)

@[simp] theorem current_setCurrent (b : Sprout) (children : List Node) :
    (b.setCurrent children).current = children := by
  obtain ⟨_ | ⟨e, stack⟩, roots⟩ := b <;> rfl

@[simp] theorem setCurrent_setCurrent (b : Sprout) (children others : List Node) :
    (b.setCurrent children).setCurrent others = b.setCurrent others := by
  obtain ⟨_ | ⟨e, stack⟩, roots⟩ := b <;> rfl

@[simp] theorem setCurrent_current (b : Sprout) : b.setCurrent b.current = b := by
  obtain ⟨_ | ⟨e, stack⟩, roots⟩ := b <;> rfl

@[simp] theorem inRaw_setCurrent (b : Sprout) (children : List Node) :
    (b.setCurrent children).inRaw = b.inRaw := by
  obtain ⟨_ | ⟨e, stack⟩, roots⟩ := b <;> rfl

theorem pushAll_nil (b : Sprout) : b.pushAll [] = b := by
  rw [pushAll, List.reverse_nil, List.nil_append, setCurrent_current]

theorem push_eq (b : Sprout) (node : Node) : b.push node = b.pushAll [node] := rfl

@[simp] theorem current_pushAll (b : Sprout) (nodes : List Node) :
    (b.pushAll nodes).current = nodes.reverse ++ b.current :=
  current_setCurrent b _

@[simp] theorem inRaw_pushAll (b : Sprout) (nodes : List Node) : (b.pushAll nodes).inRaw = b.inRaw :=
  inRaw_setCurrent b _

theorem pushAll_append (b : Sprout) (as bs : List Node) :
    b.pushAll (as ++ bs) = (b.pushAll as).pushAll bs := by
  rw [pushAll, pushAll, pushAll, current_setCurrent, setCurrent_setCurrent, List.reverse_append,
    List.append_assoc]

/-- A text is a node of its own if it joins no text before it. -/
theorem pushText_of_not_joins {b : Sprout}
    (h : ∀ before raw, b.current.head? = some (.text before raw) → raw ≠ b.inRaw)
    (data : String) : b.pushText data = b.pushAll [.text data b.inRaw] := by
  unfold pushText
  split
  next before raw rest heq => rw [if_neg (h before raw (by rw [heq]; rfl)), push_eq]
  next => rw [push_eq]

/-- A text joins the text of its kind before it. -/
theorem pushText_pushText {b : Sprout} {before : String} {rest : List Node}
    (h : b.current = .text before b.inRaw :: rest) (data : String) :
    b.pushText data = b.setCurrent (.text (before ++ data) b.inRaw :: rest) := by
  unfold pushText
  rw [h]
  simp

/-- A closing tag closes the innermost open element if it is of its name. -/
theorem close_of_head {e : OpenElement} (stack : List OpenElement) (roots : List Node)
    {tag : String} (h : e.tag = tag) :
    (Sprout.mk (e :: stack) roots).close tag =
      (Sprout.mk stack roots).push (.element tag e.attrs e.children.reverse false) := by
  subst h
  rw [close]
  simp [List.findIdx?_cons, closeMany, closeOne]

end Sprout

namespace Markup

open Sprout

/-- Events outside of scripts and style sheets build nodes, if the first of them joins no text. -/
def Builds (events : List Event) (nodes : List Node) : Prop :=
  ∀ b : Sprout, b.inRaw = false →
    (nodes.head?.any Node.isPlainText = true → b.current.head?.any Node.isPlainText = false) →
    events.foldl Sprout.add b = b.pushAll nodes

theorem builds_nil : Builds [] [] :=
  fun b _ _ => (pushAll_nil b).symm

/-- Events in a row build the nodes in a row, if no text of the one joins a text of the other. -/
theorem Builds.append {as bs : List Event} {ms ns : List Node} (ha : Builds as ms)
    (hb : Builds bs ns) (hms : ms ≠ [])
    (hjoin : ns.head?.any Node.isPlainText = true → ms.getLast?.any Node.isPlainText = false) :
    Builds (as ++ bs) (ms ++ ns) := by
  intro b hraw hhead
  -- The last of the first nodes is the one that a text of the second nodes could join.
  have hcurrent : (b.pushAll ms).current.head? = ms.getLast? := by
    rw [current_pushAll, List.head?_append, List.head?_reverse]
    obtain ⟨n, hn⟩ := Option.isSome_iff_exists.1 (List.getLast?_isSome.2 hms)
    rw [hn, Option.some_or]
  have happend : (ms ++ ns).head? = ms.head? := by
    obtain ⟨n, ms, rfl⟩ := List.exists_cons_of_ne_nil hms
    rfl
  rw [happend] at hhead
  rw [List.foldl_append, ha b hraw hhead, pushAll_append,
    hb (b.pushAll ms) (by rw [inRaw_pushAll, hraw]) (by rw [hcurrent]; exact hjoin)]

theorem builds_text (data : String) : Builds [.text data] [.text data false] := by
  intro b hraw hhead
  rw [List.foldl_cons, List.foldl_nil, Sprout.add, pushText_of_not_joins, hraw]
  intro before raw hb hr
  rw [hraw] at hr
  have := hhead rfl
  rw [hb, hr] at this
  exact Bool.noConfusion this

theorem builds_comment (data : String) : Builds [.comment data] [.comment data] :=
  fun _ _ _ => rfl

theorem declaration_eq (data : String) :
    "<!" ++ data ++ ">" = String.ofList ('<' :: '!' :: (data.toList ++ ['>'])) := by
  rw [← String.toList_inj]
  simp

theorem instruction_eq (data : String) :
    "<?" ++ data ++ ">" = String.ofList ('<' :: '?' :: (data.toList ++ ['>'])) := by
  rw [← String.toList_inj]
  simp

theorem marked_eq (data : String) :
    "<![" ++ data ++ "]>" = String.ofList ('<' :: '!' :: '[' :: (data.toList ++ [']', '>'])) := by
  rw [← String.toList_inj]
  simp

theorem builds_declaration (data : String) :
    Builds [.declaration data] [.text ("<!" ++ data ++ ">") true] :=
  fun _ _ _ => rfl

theorem builds_instruction (data : String) :
    Builds [.instruction data] [.text ("<?" ++ data ++ ">") true] :=
  fun _ _ _ => rfl

theorem builds_marked (data : String) :
    Builds [.marked data] [.text ("<![" ++ data ++ "]>") true] :=
  fun _ _ _ => rfl

/-! ### Elements -/

section

variable {tag : String} {attrs : Attributes}

theorem builds_selfClosing :
    Builds [.selfClosing tag attrs.entries] [.element tag attrs [] true] := by
  intro b _ _
  rw [List.foldl_cons, List.foldl_nil, Sprout.add, OrderedMap.ofList_entries, push_eq]

theorem builds_voidTag (h : tag ∈ Node.voidTags) :
    Builds [.startTag tag attrs.entries] [.element tag attrs [] true] := by
  intro b _ _
  rw [List.foldl_cons, List.foldl_nil, Sprout.add, if_pos h, OrderedMap.ofList_entries, push_eq]

/-- What comes between the tags of an element becomes its children. -/
theorem foldl_add_element (h : tag ∉ Node.voidTags) {events : List Event} {children : List Node}
    {b : Sprout}
    (hevents : events.foldl Sprout.add ⟨⟨tag, attrs, []⟩ :: b.stack, b.roots⟩ =
      pushAll ⟨⟨tag, attrs, []⟩ :: b.stack, b.roots⟩ children) :
    (.startTag tag attrs.entries :: (events ++ [.endTag tag])).foldl Sprout.add b =
      b.pushAll [.element tag attrs children false] := by
  rw [List.foldl_cons, Sprout.add, if_neg h, OrderedMap.ofList_entries, List.foldl_append, hevents,
    List.foldl_cons, List.foldl_nil, Sprout.add]
  have := close_of_head (e := ⟨tag, attrs, children.reverse⟩) b.stack b.roots rfl
  rw [List.reverse_reverse] at this
  rw [← push_eq]
  simpa [pushAll, setCurrent, current] using this

theorem builds_element (h : tag ∉ Node.voidTags) (hraw : tag ∉ Node.rawTags) {events : List Event}
    {children : List Node} (hevents : Builds events children) :
    Builds (.startTag tag attrs.entries :: (events ++ [.endTag tag]))
      [.element tag attrs children false] := by
  intro b _ _
  refine foldl_add_element h (hevents _ ?_ ?_)
  · simpa [inRaw] using hraw
  · intro _
    rfl

/-- The pieces of a body are put together again. -/
theorem foldl_add_textEvents {b : Sprout} (hraw : b.inRaw = true) {before : String}
    (hb : b.current = [.text before true]) (texts : List (List Char)) :
    (textEvents texts).foldl Sprout.add b =
      b.setCurrent [.text (before ++ String.ofList texts.flatten) true] := by
  induction texts generalizing b before with
  | nil =>
    have : before ++ String.ofList [] = before := by rw [← String.toList_inj]; simp
    rw [textEvents, List.map_nil, List.foldl_nil, List.flatten_nil, this, ← hb, setCurrent_current]
  | cons t texts ih =>
    rw [textEvents, List.map_cons, List.foldl_cons, Sprout.add,
      pushText_pushText (by rw [hb, hraw]), hraw]
    have := ih (b := b.setCurrent [.text (before ++ String.ofList t) true])
      (by rw [inRaw_setCurrent, hraw]) (current_setCurrent b _)
    rw [textEvents] at this
    rw [this, setCurrent_setCurrent, List.flatten_cons]
    refine congrArg (fun data => b.setCurrent [.text data true]) ?_
    rw [← String.toList_inj]
    simp

/-- An element whose body is raw holds one text, or nothing. -/
theorem builds_rawElement (attrs : Attributes) (h : tag ∉ Node.voidTags) (hraw : tag ∈ Node.rawTags)
    (texts : List (List Char)) :
    Builds (.startTag tag attrs.entries :: (textEvents texts ++ [.endTag tag]))
      [.element tag attrs
        (if texts = [] then [] else [.text (String.ofList texts.flatten) true]) false] := by
  intro b _ _
  refine foldl_add_element h ?_
  -- The first piece is a text of its own, and all others join it.
  have hin : (Sprout.mk (⟨tag, attrs, []⟩ :: b.stack) b.roots).inRaw = true := by
    simpa [inRaw] using hraw
  cases texts with
  | nil => rfl
  | cons t texts =>
    rw [textEvents, List.map_cons, List.foldl_cons, Sprout.add,
      pushText_of_not_joins (by simp [current]), hin, if_neg (List.cons_ne_nil _ _)]
    have := foldl_add_textEvents
      (b := pushAll ⟨⟨tag, attrs, []⟩ :: b.stack, b.roots⟩ [.text (String.ofList t) true])
      (by rw [inRaw_pushAll, hin]) rfl texts
    rw [textEvents] at this
    rw [this, List.flatten_cons, String.ofList_append]
    rfl

end

/-- What events build from nothing. -/
theorem ofEvents_of_builds {events : List Event} {nodes : List Node} (h : Builds events nodes) :
    Node.ofEvents events = nodes := by
  rw [Node.ofEvents, h Sprout.start rfl fun _ => rfl]
  simp [Sprout.start, pushAll, setCurrent, current, finish, closeMany]

end Markup

end Stencil
