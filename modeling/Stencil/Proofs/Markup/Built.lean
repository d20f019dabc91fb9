import Stencil.Proofs.Markup.Bodies
import Stencil.Proofs.Markup.Events
import Stencil.Proofs.Markup.RoundTrip

/-!
# Trees that readers build

Whatever text it is given, a reader that comes to the end of it has built a tree of a known shape: no
element that never closes has children, the bodies of scripts and style sheets are texts without their
closing tags, and all else is as the events are (`IsRead`).

The shape is an invariant of the tree that is being built. Outside of bodies, all that is closed is of
the shape, and the open elements are no scripts (`Sprout.Ready.outside`). In a body, the innermost open
element has the text that was read so far, without a closing tag, and all around it is as before
(`Sprout.Ready.inside`).

* `ready_of_stepSound`, `ready_of_bodyStep`: what one step leaves;
* `isBuilt_of_readFrom`: what all steps leave;
* `isRead_of_parse`: the nodes that are read from a text.
-/

namespace Stencil

open Markup

namespace Node

/-- A raw text that readers put outside of bodies. -/
inductive Declared : String → Prop where
  | standsAlone {data : String} : StandsAlone data → Declared data
  | bracketed {data : List Char} : StartsSection data →
      Declared (String.ofList ('<' :: '!' :: '[' :: (data ++ [']', '>'])))

/-- A node is as readers build it. -/
def IsRead (n : Node) : Prop :=
  Readable Declared (fun tag entries _ => IsNamed tag entries) n

theorem readableAll_iff {raw : String → Prop}
    {tagged : String → List (String × String) → (void : Bool) → Prop} {ns : List Node} :
    ReadableAll raw tagged ns ↔ ∀ n ∈ ns, Readable raw tagged n := by
  induction ns with
  | nil => exact ⟨fun _ n hn => absurd hn List.not_mem_nil, fun _ => trivial⟩
  | cons n ns ih => rw [ReadableAll, List.forall_mem_cons, ih]

theorem declared_doctype {data : String} (hname : startsDoctype data.toList = true)
    (h : '>' ∉ data.toList) : Declared ("<!" ++ data ++ ">") :=
  declaration_eq data ▸ .standsAlone (.doctype hname h)

theorem declared_instruction {data : String} (h : '>' ∉ data.toList) :
    Declared ("<?" ++ data ++ ">") :=
  instruction_eq data ▸ .standsAlone (.instruction h)

theorem declared_marked {data : String} (h : StartsConditional data.toList ∧
    ¬HoldsBracket data.toList ∨ StartsSection data.toList) : Declared ("<![" ++ data ++ "]>") := by
  rw [marked_eq]
  rcases h with ⟨hname, hbracket⟩ | hname
  · exact .standsAlone (.conditional hname hbracket)
  · exact .bracketed hname

theorem readable_text {raw : String → Prop}
    {tagged : String → List (String × String) → (void : Bool) → Prop} (data : String) :
    Readable raw tagged (text data false) := fun hraw => Bool.noConfusion hraw

theorem isRead_declaration {data : String} (h : Declared data) : (text data true).IsRead :=
  fun _ => h

end Node

open Node

/-- An open element is as readers build it: what it holds so far may be closed. -/
structure OpenElement.IsBuilt (e : OpenElement) : Prop where
  named : IsNamed e.tag e.attrs.entries
  not_void : e.tag ∉ voidTags
  children : if e.tag ∈ rawTags then IsBody e.tag e.children else ∀ n ∈ e.children, n.IsRead

/-- The tree that is being built is as readers build it: only the innermost open element can be a
    script or a style sheet. -/
structure Sprout.IsBuilt (b : Sprout) : Prop where
  stack : ∀ e ∈ b.stack, e.IsBuilt
  outer : ∀ e ∈ b.stack.tail, e.tag ∉ rawTags
  roots : ∀ n ∈ b.roots, n.IsRead

/-- What the text of a body is kept as. -/
def bodyNodes (body : List Char) : List Node :=
  if body = [] then [] else [.text (String.ofList body) true]

/-- The innermost open element is a script or a style sheet with a body so far. -/
inductive Sprout.InBody (tag : String) (body : List Char) : Sprout → Prop where
  | mk {attrs : Attributes} {b : Sprout} : b.IsBuilt → b.inRaw = false → tag ∈ rawTags →
      IsNamed tag attrs.entries → InBody tag body ⟨⟨tag, attrs, bodyNodes body⟩ :: b.stack, b.roots⟩

/-- The tree that is being built, when the reader goes on in the body of a tag or outside of bodies. -/
inductive Sprout.Ready : (raw : Option String) → Sprout → Prop where
  | outside {b : Sprout} : b.IsBuilt → b.inRaw = false → Ready none b
  | inside {tag : String} {body : List Char} {b : Sprout} : b.InBody tag body →
      ¬HoldsClosing tag.toList body → (body = [] ∨ ∃ s, body = s ++ ['>']) → Ready (some tag) b

namespace Sprout

/-! ### Closing elements -/

theorem isBuilt_start : start.IsBuilt where
  stack := fun _ he => absurd he List.not_mem_nil
  outer := fun _ he => absurd he List.not_mem_nil
  roots := fun _ hn => absurd hn List.not_mem_nil

theorem inRaw_of_outer {e : OpenElement} {stack : List OpenElement} {roots : List Node}
    (h : (Sprout.mk (e :: stack) roots).IsBuilt) : (Sprout.mk stack roots).inRaw = false := by
  cases stack with
  | nil => rfl
  | cons e' stack => exact decide_eq_false (h.outer e' List.mem_cons_self)

theorem isBuilt_outer {e : OpenElement} {stack : List OpenElement} {roots : List Node}
    (h : (Sprout.mk (e :: stack) roots).IsBuilt) : (Sprout.mk stack roots).IsBuilt where
  stack := fun e' he => h.stack e' (List.mem_cons_of_mem e he)
  outer := fun e' he => h.outer e' (List.mem_of_mem_tail he)
  roots := h.roots

theorem IsBuilt.current {b : Sprout} (h : b.IsBuilt) (hraw : b.inRaw = false) :
    ∀ n ∈ b.current, n.IsRead := by
  obtain ⟨_ | ⟨e, stack⟩, roots⟩ := b
  · exact h.roots
  · have hchildren := (h.stack e List.mem_cons_self).children
    rwa [if_neg (of_decide_eq_false hraw)] at hchildren

theorem IsBuilt.setCurrent {b : Sprout} (h : b.IsBuilt) (hraw : b.inRaw = false)
    {children : List Node} (hchildren : ∀ n ∈ children, n.IsRead) :
    (b.setCurrent children).IsBuilt := by
  obtain ⟨_ | ⟨e, stack⟩, roots⟩ := b
  · exact ⟨h.stack, h.outer, hchildren⟩
  · obtain ⟨he, hstack⟩ := List.forall_mem_cons.1 h.stack
    refine ⟨List.forall_mem_cons.2 ⟨⟨he.named, he.not_void, ?_⟩, hstack⟩, h.outer, h.roots⟩
    rwa [if_neg (of_decide_eq_false hraw)]

/-- A node comes into the innermost open element. -/
theorem IsBuilt.push {b : Sprout} (h : b.IsBuilt) (hraw : b.inRaw = false) {n : Node}
    (hn : n.IsRead) : (b.push n).IsBuilt :=
  h.setCurrent hraw (List.forall_mem_cons.2 ⟨hn, h.current hraw⟩)

theorem inRaw_push (b : Sprout) (n : Node) : (b.push n).inRaw = b.inRaw :=
  inRaw_setCurrent b _

theorem isRead_of_isBuilt {e : OpenElement} (h : e.IsBuilt) :
    (Node.element e.tag e.attrs e.children.reverse false).IsRead := by
  refine ⟨h.named, nofun, fun hvoid => absurd hvoid h.not_void, ?_⟩
  have hchildren := h.children
  by_cases hraw : e.tag ∈ rawTags
  · rw [if_pos hraw] at hchildren
    rw [if_pos ⟨rfl, hraw⟩]
    obtain hnil | ⟨data, hdata, hbody⟩ := hchildren
    · exact .inl (by rw [hnil, List.reverse_nil])
    · exact .inr ⟨data, by rw [hdata, List.reverse_singleton], hbody⟩
  · rw [if_neg hraw] at hchildren
    rw [if_neg fun h => hraw h.2, readableAll_iff]
    exact fun n hn => hchildren n (List.mem_reverse.1 hn)

/-- Closing the innermost open element leaves all that is around it. -/
theorem IsBuilt.closeOne {b : Sprout} (h : b.IsBuilt) :
    b.closeOne.IsBuilt ∧ b.closeOne.inRaw = false := by
  obtain ⟨_ | ⟨e, stack⟩, roots⟩ := b
  · exact ⟨h, rfl⟩
  · have hraw := inRaw_of_outer h
    exact ⟨(isBuilt_outer h).push hraw (isRead_of_isBuilt (h.stack e List.mem_cons_self)),
      (inRaw_push _ _).trans hraw⟩

theorem IsBuilt.closeMany {b : Sprout} (h : b.IsBuilt) (count : Nat) :
    (b.closeMany count).IsBuilt ∧ (b.inRaw = false → (b.closeMany count).inRaw = false) := by
  induction count generalizing b with
  | zero => exact ⟨h, id⟩
  | succ count ih =>
    obtain ⟨hone, hraw⟩ := h.closeOne
    exact ⟨(ih hone).1, fun _ => (ih hone).2 hraw⟩

theorem IsBuilt.close {b : Sprout} (h : b.IsBuilt) (hraw : b.inRaw = false) (tag : String) :
    (b.close tag).IsBuilt ∧ (b.close tag).inRaw = false := by
  unfold Sprout.close
  split
  · exact ⟨(h.closeMany _).1, (h.closeMany _).2 hraw⟩
  · exact ⟨h, hraw⟩

/-! ### Events outside of bodies -/

theorem isNamed_ofList {tag : String} {attrs : List (String × String)} (h : IsNamed tag attrs) :
    IsNamed tag (OrderedMap.ofList attrs).entries := by
  refine ⟨h.tag, fun entry hentry => ?_⟩
  rcases OrderedMap.mem_of_mem_keys_insertAll (List.mem_map_of_mem hentry) with hempty | hattrs
  · exact absurd hempty List.not_mem_nil
  · obtain ⟨attr, hattr, heq⟩ := List.mem_map.1 hattrs
    exact heq ▸ h.entries attr hattr

theorem Ready.push {b : Sprout} (h : b.Ready none) {n : Node} (hn : n.IsRead) :
    (b.push n).Ready none := by
  cases h with
  | outside h hraw => exact .outside (h.push hraw hn) ((inRaw_push b n).trans hraw)

/-- A text comes into the innermost open element or joins the text before it. -/
theorem Ready.pushText {b : Sprout} (h : b.Ready none) (data : String) :
    (b.pushText data).Ready none := by
  cases h with
  | outside hb hraw =>
    have htext : (Node.text data b.inRaw).IsRead := by rw [hraw]; exact readable_text data
    unfold Sprout.pushText
    split
    next before raw rest heq =>
      split_ifs with hjoin
      · have hrest := fun n hn => hb.current hraw n (heq ▸ List.mem_cons_of_mem _ hn)
        have hjoined : (Node.text (before ++ data) raw).IsRead := by
          rw [hjoin, hraw]
          exact readable_text _
        exact .outside (hb.setCurrent hraw (List.forall_mem_cons.2 ⟨hjoined, hrest⟩))
          ((inRaw_setCurrent b _).trans hraw)
      · exact Ready.push (.outside hb hraw) htext
    next => exact Ready.push (.outside hb hraw) htext

/-- An element without children is closed with its opening tag. -/
theorem isRead_single {tag : String} {attrs : List (String × String)} (h : IsNamed tag attrs) :
    (Node.element tag (OrderedMap.ofList attrs) [] true).IsRead :=
  ⟨isNamed_ofList h, fun _ => rfl, fun _ => rfl, by rw [if_neg (by simp)]; trivial⟩

/-- An element is opened. -/
theorem IsBuilt.opened {b : Sprout} (h : b.IsBuilt) (hraw : b.inRaw = false) {e : OpenElement}
    (he : e.IsBuilt) : (Sprout.mk (e :: b.stack) b.roots).IsBuilt where
  stack := List.forall_mem_cons.2 ⟨he, h.stack⟩
  outer := by
    obtain ⟨_ | ⟨e', stack⟩, roots⟩ := b
    · exact fun _ he => absurd he List.not_mem_nil
    · exact List.forall_mem_cons.2 ⟨of_decide_eq_false hraw, h.outer⟩
  roots := h.roots

theorem Ready.add {b : Sprout} (h : b.Ready none) {e : Event} (he : e.IsSound) :
    (b.add e).Ready none := by
  cases e with
  | startTag tag attrs =>
    obtain ⟨hnamed, hraw⟩ := he
    rw [Sprout.add]
    split_ifs with hvoid
    · exact h.push (isRead_single hnamed)
    · cases h with
      | outside hb hout =>
        refine .outside (hb.opened hout ⟨isNamed_ofList hnamed, hvoid, ?_⟩) (decide_eq_false hraw)
        rw [if_neg hraw]
        exact fun n hn => absurd hn List.not_mem_nil
  | selfClosing tag attrs => exact h.push (isRead_single he)
  | endTag tag =>
    cases h with
    | outside hb hraw => exact .outside (hb.close hraw tag).1 (hb.close hraw tag).2
  | text data => exact h.pushText data
  | comment data => exact h.push he
  | declaration data => exact h.push (isRead_declaration (declared_doctype he.1 he.2))
  | instruction data => exact h.push (isRead_declaration (declared_instruction he))
  | marked data => exact h.push (isRead_declaration (declared_marked he))

/-- Events outside of bodies leave all as readers build it. -/
theorem Ready.foldl_add {b : Sprout} (h : b.Ready none) {events : List Event}
    (hevents : ∀ e ∈ events, e.IsSound) : (events.foldl Sprout.add b).Ready none := by
  induction events generalizing b with
  | nil => exact h
  | cons e events ih =>
    obtain ⟨he, hevents⟩ := List.forall_mem_cons.1 hevents
    exact ih (h.add he) hevents

/-! ### Events in a body -/

theorem not_void_of_raw {tag : String} (h : tag ∈ rawTags) : tag ∉ voidTags := by
  simp only [rawTags, List.mem_cons, List.not_mem_nil, or_false] at h
  rcases h with rfl | rfl <;> decide

theorem not_holdsClosing_nil {tag : List Char} : ¬HoldsClosing tag [] := by
  rintro ⟨before, blanks, name, blanks', after, h, -⟩
  exact List.cons_ne_nil _ _ (List.append_eq_nil_iff.1 h.symm).2

theorem isBody_bodyNodes {tag : String} {body : List Char} (h : ¬HoldsClosing tag.toList body) :
    IsBody tag (bodyNodes body) := by
  by_cases hnil : body = []
  · exact .inl (if_pos hnil)
  · refine .inr ⟨String.ofList body, if_neg hnil, fun hempty => hnil ?_, ?_⟩
    · rw [← String.toList_inj, String.toList_ofList] at hempty
      exact hempty
    · rwa [String.toList_ofList]

/-- What was read of a body so far may be all of it. -/
theorem InBody.isBuilt {tag : String} {body : List Char} {b : Sprout} (h : b.InBody tag body)
    (hbody : ¬HoldsClosing tag.toList body) : b.IsBuilt := by
  obtain ⟨hb, hout, hraw, hnamed⟩ := h
  refine hb.opened hout ⟨hnamed, not_void_of_raw hraw, ?_⟩
  rw [if_pos hraw]
  exact isBody_bodyNodes hbody

/-- A text in a body goes on with it. -/
theorem InBody.add {tag : String} {body : List Char} {b : Sprout} (h : b.InBody tag body)
    {t : List Char} (ht : t ≠ []) :
    (b.add (.text (String.ofList t))).InBody tag (body ++ t) := by
  obtain @⟨attrs, b, hb, hout, hraw, hnamed⟩ := h
  have heq : (Sprout.mk (⟨tag, attrs, bodyNodes body⟩ :: b.stack) b.roots).add
      (.text (String.ofList t)) = ⟨⟨tag, attrs, bodyNodes (body ++ t)⟩ :: b.stack, b.roots⟩ := by
    have hin : (Sprout.mk (⟨tag, attrs, bodyNodes body⟩ :: b.stack) b.roots).inRaw = true :=
      decide_eq_true hraw
    rw [bodyNodes] at hin
    rw [Sprout.add, bodyNodes, bodyNodes, if_neg fun h => ht (List.append_eq_nil_iff.1 h).2]
    by_cases hnil : body = []
    · subst hnil
      rw [pushText_of_not_joins (by simp [current]), hin]
      rfl
    · rw [if_neg hnil] at hin ⊢
      rw [@pushText_pushText _ _ [] (by rw [hin]; rfl), hin, ← String.ofList_append]
      rfl
  rw [heq]
  exact .mk hb hout hraw hnamed

theorem InBody.foldl_add {tag : String} {body : List Char} {b : Sprout} (h : b.InBody tag body)
    {texts : List (List Char)} (htexts : ∀ t ∈ texts, t ≠ []) :
    ((textEvents texts).foldl Sprout.add b).InBody tag (body ++ texts.flatten) := by
  induction texts generalizing b body with
  | nil => rwa [List.flatten_nil, List.append_nil]
  | cons t texts ih =>
    obtain ⟨ht, htexts⟩ := List.forall_mem_cons.1 htexts
    rw [List.flatten_cons, ← List.append_assoc]
    exact ih (h.add ht) htexts

/-- The closing tag of a body leaves it. -/
theorem InBody.close {tag : String} {body : List Char} {b : Sprout} (h : b.InBody tag body)
    (hbody : ¬HoldsClosing tag.toList body) : (b.add (.endTag tag)).Ready none := by
  have hb := (h.isBuilt hbody).closeOne
  obtain @⟨attrs, b, -⟩ := h
  rw [Sprout.add, close_of_head b.stack b.roots rfl]
  exact .outside hb.1 hb.2

/-! ### Steps of the reader -/

theorem ready_of_stepSound {b : Sprout} (hb : b.Ready none) {events : List Event}
    {raw : Option String} (h : StepSound events raw) : (events.foldl Sprout.add b).Ready raw := by
  cases h with
  | outside hevents => exact hb.foldl_add hevents
  | @entering events tag attrs hevents hnamed hraw =>
    have hb := hb.foldl_add hevents
    rw [List.foldl_append, List.foldl_cons, List.foldl_nil, Sprout.add,
      if_neg (not_void_of_raw hraw)]
    cases hb with
    | outside hb hout =>
      exact .inside (.mk hb hout hraw (isNamed_ofList hnamed)) not_holdsClosing_nil (.inl rfl)

theorem InBody.isRaw {tag : String} {body : List Char} {b : Sprout} (h : b.InBody tag body) :
    tag ∈ rawTags := by
  obtain ⟨-, -, hraw, -⟩ := h
  exact hraw

theorem Ready.isName {tag : String} {b : Sprout} (h : b.Ready (some tag)) :
    isName tag.toList = true := by
  cases h with
  | inside hin _ _ => exact isName_of_mem_rawTags hin.isRaw

/-- A step in a body goes on with it or leaves it. -/
theorem ready_of_bodyStep {tag : String} {b : Sprout} (hb : b.Ready (some tag)) {events : List Event}
    {raw : Option String} (h : BodyStep tag events raw) : (events.foldl Sprout.add b).Ready raw := by
  have hname := hb.isName
  cases hb with
  | @inside _ body _ hin hbody hends =>
    -- The body so far ends where no closing tag goes on.
    have hnot : ∀ {texts : List (List Char)}, ¬HoldsClosing tag.toList texts.flatten →
        ¬HoldsClosing tag.toList (body ++ texts.flatten) := fun htexts h =>
      (holdsClosing_append hname hends h).elim hbody htexts
    cases h with
    | closed hne htexts =>
      rw [List.foldl_append]
      exact (hin.foldl_add hne).close (hnot htexts)
    | goesOn hne htexts hbracket =>
      obtain ⟨s, hs⟩ := hbracket
      refine .inside (hin.foldl_add hne) (hnot htexts) (.inr ⟨body ++ s, ?_⟩)
      rw [hs, List.append_assoc]

theorem Ready.isBuilt {raw : Option String} {b : Sprout} (h : b.Ready raw) : b.IsBuilt := by
  cases h with
  | outside hb _ => exact hb
  | inside hin hbody _ => exact hin.isBuilt hbody

/-- However many steps the reader takes, it leaves a tree as readers build it. -/
theorem isBuilt_of_readFrom {fuel : Nat} {raw : Option String} {s : List Char} {events : List Event}
    (h : readFrom fuel raw s = .ok events) {b : Sprout} (hb : b.Ready raw) :
    (events.foldl Sprout.add b).IsBuilt := by
  induction fuel generalizing raw s events b with
  | zero =>
    cases h
    exact hb.isBuilt
  | succ fuel ih =>
    match raw, s with
    | raw, [] =>
      cases h
      exact hb.isBuilt
    | none, c :: s =>
      rw [readFrom] at h
      obtain ⟨step, hstep, h⟩ := exists_of_bind h
      obtain ⟨rest, hrest, h⟩ := exists_of_bind h
      cases h
      rw [List.foldl_append]
      exact ih hrest (ready_of_stepSound hb (stepSound_readStep hstep))
    | some tag, c :: s =>
      rw [readFrom] at h
      cases hstep : readRawStep? tag (c :: s) with
      | none =>
        rw [hstep] at h
        cases h
        exact hb.isBuilt
      | some step =>
        rw [hstep] at h
        obtain ⟨rest, hrest, h⟩ := exists_of_bind h
        cases h
        rw [List.foldl_append]
        exact ih hrest (ready_of_bodyStep hb (bodyStep_readRawStep? hb.isName hstep))

end Sprout

/-- The nodes that are read from a text are as readers build them. -/
theorem Node.isRead_of_parse {text : String} {ns : List Node} (h : parse text = .ok ns) :
    ∀ n ∈ ns, n.IsRead := by
  obtain ⟨events, hread, h⟩ := exists_of_bind (h : read text.toList >>= _ = .ok ns)
  cases h
  have hbuilt := Sprout.isBuilt_of_readFrom hread (.outside Sprout.isBuilt_start rfl)
  exact fun n hn => (hbuilt.closeMany _).1.roots n (List.mem_reverse.1 hn)

end Stencil
