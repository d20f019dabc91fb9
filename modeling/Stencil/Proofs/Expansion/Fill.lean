import Stencil.Expansion
import Stencil.Proofs.Expansion.Plain

/-!
# Filling a template directly

A template can be filled by one recursion on its nodes, without markup that is written and read
again and without passes over the whole tree: every placeholder is filled in the scope in which it
stands, a repetition is its body filled once for every element, of a conditional and its alternative
one is filled, and an insertion is the template of its name filled in the scope in which it is
inserted (`fillNodes`). Only the insertions are not below the nodes; `fill` bounds how deep they nest.

`Reaches P` says that `P` holds of every node that this recursion comes to, in the scope in which it
comes to it. The nodes of a branch that is not taken are not reached.

* `gives_fillNodes_of_pending`: what is held back is put in front of all the rest if no alternative
  comes next;
* `gives_fillNodes_append`: nodes in a row are filled one after the other if the first ones have no
  conditionals;
* `Reaches.imp`: what holds of all nodes that are reached.
-/

namespace Stencil.Expansion

open Node

/-! ### Directives in a scope -/

/-- What a repetition runs over. -/
structure Repetition where
  /-- The name that is bound to each element. -/
  binding : String
  items : List Value

/-- The repetition that the attributes of an element ask for. -/
def repetition (host : Host) (context : Context) (tag : String) (attrs : Attributes) :
    Evaluation Repetition := do
  let value ← ofTemplate (Directive.require tag attrs "for")
  let (binding, source) ← ofTemplate (Directive.parseRepeat value.toList)
  let v ← Path.resolve host source.toList (.map context)
  match v.items? with
  | none => Evaluation.throw (.notIterable source v.typeName)
  | some items =>
    if isTaken context binding then Evaluation.throw (.duplicateVariable binding)
    else pure ⟨binding, items⟩

/-- Whether the condition in the attributes of an element holds. -/
def condition (host : Host) (context : Context) (tag : String) (attrs : Attributes) :
    Evaluation Bool := do
  let condition ← ofTemplate (Directive.require tag attrs "cond")
  Condition.evaluate host condition.toList (.map context)

/-- The name of the template that the attributes of an element ask for. -/
def insertion (tag : String) (attrs : Attributes) : Evaluation String :=
  ofTemplate (Directive.require tag attrs "template")

/-- The nodes for elements in a row. -/
def concatItems (nodesOf : Value → Evaluation (List Node)) : List Value → Evaluation (List Node)
  | [] => pure []
  | item :: items => do
    let nodes ← nodesOf item
    return nodes ++ (← concatItems nodesOf items)

/-! ### Texts and attributes in a scope -/

/-- A text with its placeholders filled. -/
def fillString (host : Host) (context : Context) (s : String) : Evaluation String := do
  return String.ofList (← fillText host (.map context) s.toList)

/-- Attributes with the placeholders in their values filled. -/
def fillEntries (host : Host) (context : Context) :
    List (String × String) → Evaluation (List (String × String))
  | [] => pure []
  | (name, value) :: entries => do
    let value ← fillString host context value
    return (name, value) :: (← fillEntries host context entries)

/-- Attributes with the placeholders in their values filled. -/
def fillAttrs (host : Host) (context : Context) (attrs : Attributes) : Evaluation Attributes := do
  return OrderedMap.ofList (← fillEntries host context attrs.entries)

/-! ### Nodes in a scope -/

/-- A blank text is held back behind a conditional that does not hold. -/
def Pending.hold : Pending → Node → List Node × Pending
  | nothing, node => ([node], nothing)
  | expanded blanks, node => ([], expanded (blanks ++ [node]))

/-- What an alternative is filled to, given what its body is filled to. -/
def Pending.alternative (body : Evaluation (List Node)) : Pending → Evaluation (List Node)
  | nothing => pure []
  | expanded _ => body

/-- What was held back stays if neither a further blank text nor an alternative comes next. -/
def Pending.released (pending : Pending) (next : Node) : List Node :=
  if next.isBlank || next.hasTag Directive.elseTag then [] else pending.blanks

mutual

/-- What a node is filled to, without what was held back before it, and what it leaves for the next
    alternative. -/
def fillNode (host : Host) (insert : Context → String → Evaluation (List Node)) :
    Node → Context → Pending → Evaluation (List Node × Pending)
  | .text data raw, context, pending =>
    if (Node.text data raw).isBlank then pure (pending.hold (.text data raw))
    else do
      let data ← fillString host context data
      return ([.text data raw], .nothing)
  | .comment data, _, _ => pure ([.comment data], .nothing)
  | .fragment children, context, _ => do
    let nodes ← fillNodes host insert children context .nothing
    return ([.fragment nodes], .nothing)
  | .element tag attrs children void, context, pending =>
    if tag = Directive.repeatTag then do
      let r ← repetition host context tag attrs
      let nodes ← concatItems
        (fun item => fillNodes host insert children (Context.bind context r.binding item) .nothing)
        r.items
      return (nodes, .nothing)
    else if tag = Directive.ifTag then do
      if ← condition host context tag attrs then
        let nodes ← fillNodes host insert children context .nothing
        return (nodes, .nothing)
      else return ([], .expanded [])
    else if tag = Directive.elseTag then do
      let nodes ← pending.alternative (fillNodes host insert children context .nothing)
      return (nodes, .nothing)
    else if tag = Directive.insertTag then do
      let nodes ← insert context (← insertion tag attrs)
      return (nodes, .nothing)
    else do
      let attrs ← fillAttrs host context attrs
      let nodes ← fillNodes host insert children context .nothing
      return ([.element tag attrs nodes void], .nothing)
termination_by structural n => n

/-- What nodes in a row are filled to. -/
def fillNodes (host : Host) (insert : Context → String → Evaluation (List Node)) :
    List Node → Context → Pending → Evaluation (List Node)
  | [], _, pending => pure pending.blanks
  | n :: ns, context, pending => do
    let filled ← fillNode host insert n context pending
    return pending.released n ++ (filled.1 ++ (← fillNodes host insert ns context filled.2))
termination_by structural ns => ns

end

attribute [local simp] fillNode fillNodes

/-- What nodes are filled to, with insertions at most `levels` levels deep. -/
def fill (s : Surroundings) : (levels : Nat) → (inserting : List String) → Context → List Node →
    Evaluation (List Node)
  | 0, _, _, _ => Evaluation.fail .unfinished
  | levels + 1, inserting, context, nodes =>
    fillNodes s.host (fun context => expandInsert s.registry
      (fun inserting => fill s levels inserting context) inserting) nodes context .nothing

/-! ### What filling reaches -/

/-- The next alternative is expanded behind a node, if it is expanded behind the nodes before it or
    not as `alternative` says. -/
def Leaves (host : Host) (context : Context) (alternative : Prop) : Node → Prop
  | .element tag attrs _ _ => tag = Directive.ifTag ∧ (condition host context tag attrs).Gives false
  | n => n.isBlank = true ∧ alternative

/-- Filling goes on to the children of an element, in its own scope. -/
def Enters (host : Host) (context : Context) (alternative : Prop) (tag : String)
    (attrs : Attributes) : Prop :=
  if tag = Directive.ifTag then (condition host context tag attrs).Gives true
  else if tag = Directive.elseTag then alternative
  else True

section

variable (host : Host) (insert : Context → String → Prop) (P : Context → Node → List Node → Prop)

mutual

/-- `P` holds of every node below a node that filling comes to. -/
def ReachesBelow : Node → Context → (alternative : Prop) → Prop
  | .element tag attrs children _, context, alternative =>
    if tag = Directive.repeatTag then
      ∀ r, (repetition host context tag attrs).Gives r → ∀ item ∈ r.items,
        Reaches children (Context.bind context r.binding item) False
    else if tag = Directive.insertTag then ∀ id, (insertion tag attrs).Gives id → insert context id
    else Enters host context alternative tag attrs → Reaches children context False
  | .fragment children, context, _ => Reaches children context False
  | .text _ _, _, _ => True
  | .comment _, _, _ => True
termination_by structural n => n

/-- `P` holds of every node that filling comes to, taken with its scope and the nodes behind it. Of
    an insertion holds what `insert` says. -/
def Reaches : List Node → Context → (alternative : Prop) → Prop
  | [], _, _ => True
  | n :: ns, context, alternative =>
    P context n ns ∧ ReachesBelow n context alternative ∧
      Reaches ns context (Leaves host context alternative n)
termination_by structural ns => ns

end

end

/-- `P` holds of every node that filling comes to, also in the templates that are inserted. -/
def FillReaches (s : Surroundings) (P : Context → Node → List Node → Prop) :
    (levels : Nat) → (inserting : List String) → Context → List Node → Prop
  | 0, _, _, _ => True
  | levels + 1, inserting, context, nodes =>
    Reaches s.host (fun context id => id ∉ inserting →
      ∀ template, s.registry.bind (·.get? id) = some template →
        FillReaches s P levels (inserting ++ [id]) context template.content) P nodes context False

/-- The next node other than a blank text is an alternative. -/
def StartsAlternative : List Node → Prop
  | [] => False
  | n :: ns => if n.isBlank then StartsAlternative ns else n.hasTag Directive.elseTag = true

/-! ### What is left for the next alternative -/

/-- An alternative that comes next is expanded. -/
def Pending.IsExpanded : Pending → Prop
  | nothing => False
  | expanded _ => True

/-- What a node leaves for the next alternative, given what was left before it. -/
def Next (host : Host) (context : Context) (pending : Pending) : Node → (next : Pending) → Prop
  | .text data raw, next =>
    if (Node.text data raw).isBlank then next = (pending.hold (.text data raw)).2
    else next = .nothing
  | .comment _, next => next = .nothing
  | .fragment _, next => next = .nothing
  | .element tag attrs _ _, next =>
    if tag = Directive.ifTag then
      ((condition host context tag attrs).Gives true ∧ next = .nothing) ∨
        ((condition host context tag attrs).Gives false ∧ next = .expanded [])
    else next = .nothing

theorem Next.eq_nothing {host : Host} {context : Context} {n : Node} {next : Pending}
    (h : Next host context .nothing n next) (hif : n.hasTag Directive.ifTag = false) :
    next = .nothing := by
  cases n with
  | text data raw =>
    rw [Next] at h
    split_ifs at h
    · exact h
    · exact h
  | comment data => exact h
  | fragment children => exact h
  | element tag attrs children void =>
    rw [Next, if_neg (by simpa [hasTag] using hif)] at h
    exact h

/-- What filling leaves for the next alternative is what is said of it beforehand. -/
theorem Next.leaves {host : Host} {context : Context} {pending next : Pending} {n : Node}
    {alternative : Prop} (h : Next host context pending n next)
    (hpending : pending.IsExpanded → alternative) (hnext : next.IsExpanded) :
    Leaves host context alternative n := by
  cases n with
  | text data raw =>
    rw [Next] at h
    split_ifs at h with hblank
    · rw [h] at hnext
      cases pending with
      | nothing => exact hnext.elim
      | expanded blanks => exact ⟨hblank, hpending trivial⟩
    · exact (h ▸ hnext).elim
  | comment data => exact (h ▸ hnext).elim
  | fragment children => exact (h ▸ hnext).elim
  | element tag attrs children void =>
    rw [Next] at h
    split_ifs at h with hif
    · rcases h with ⟨-, h⟩ | ⟨hcond, -⟩
      · exact (h ▸ hnext).elim
      · exact ⟨hif, hcond⟩
    · exact (h ▸ hnext).elim

/-! ### Filling node by node -/

section

variable {host : Host} {insert : Context → String → Evaluation (List Node)} {context : Context}
  {pending : Pending} {filled : List Node × Pending}

theorem gives_fillNodes_nil {nodes : List Node} :
    (fillNodes host insert [] context pending).Gives nodes ↔ nodes = pending.blanks := by
  rw [fillNodes, Evaluation.gives_pure, eq_comm]

theorem gives_fillNodes_cons {n : Node} {ns nodes : List Node} :
    (fillNodes host insert (n :: ns) context pending).Gives nodes ↔
      ∃ filled rest, (fillNode host insert n context pending).Gives filled ∧
        (fillNodes host insert ns context filled.2).Gives rest ∧
          nodes = pending.released n ++ (filled.1 ++ rest) := by
  rw [fillNodes]
  exact Evaluation.gives_bind_bind_pure

theorem gives_fillNode_blank {n : Node} (h : n.isBlank = true) :
    (fillNode host insert n context pending).Gives filled ↔ filled = pending.hold n := by
  cases n with
  | text data raw => rw [fillNode, if_pos h, Evaluation.gives_pure, eq_comm]
  | comment data => exact absurd h Bool.false_ne_true
  | element tag attrs children void => exact absurd h Bool.false_ne_true
  | fragment children => exact absurd h Bool.false_ne_true

theorem gives_fillNode_text {data : String} {raw : Bool}
    (h : (Node.text data raw).isBlank = false) :
    (fillNode host insert (.text data raw) context pending).Gives filled ↔
      ∃ s, (fillString host context data).Gives s ∧
        filled = ([.text s raw], .nothing) := by
  rw [fillNode, if_neg (by rw [h]; exact Bool.false_ne_true), Evaluation.gives_bind]
  simp only [Evaluation.gives_pure, eq_comm]

theorem gives_fillNode_fragment {children : List Node} :
    (fillNode host insert (.fragment children) context pending).Gives filled ↔
      ∃ nodes, (fillNodes host insert children context .nothing).Gives nodes ∧
        filled = ([.fragment nodes], .nothing) := by
  rw [fillNode, Evaluation.gives_bind]
  simp only [Evaluation.gives_pure, eq_comm]

variable {tag : String} {attrs : Attributes} {children : List Node} {void : Bool}

theorem gives_fillNode_repeat (h : tag = Directive.repeatTag) :
    (fillNode host insert (.element tag attrs children void) context pending).Gives filled ↔
      ∃ r nodes, (repetition host context tag attrs).Gives r ∧
        (concatItems (fun item => fillNodes host insert children
          (Context.bind context r.binding item) .nothing) r.items).Gives nodes ∧
          filled = (nodes, .nothing) := by
  rw [fillNode, if_pos h]
  exact Evaluation.gives_bind_bind_pure

theorem gives_fillNode_if (h : tag = Directive.ifTag) :
    (fillNode host insert (.element tag attrs children void) context pending).Gives filled ↔
      ((condition host context tag attrs).Gives true ∧
        ∃ nodes, (fillNodes host insert children context .nothing).Gives nodes ∧
          filled = (nodes, .nothing)) ∨
      ((condition host context tag attrs).Gives false ∧
        filled = ([], .expanded [])) := by
  have hne : tag ≠ Directive.repeatTag := by rw [h]; decide
  rw [fillNode, if_neg hne, if_pos h]
  exact Evaluation.gives_bind_ite

theorem gives_fillNode_else (h : tag = Directive.elseTag) :
    (fillNode host insert (.element tag attrs children void) context pending).Gives filled ↔
      ∃ nodes, (pending.alternative
        (fillNodes host insert children context .nothing)).Gives nodes ∧
          filled = (nodes, .nothing) := by
  have hne : tag ≠ Directive.repeatTag ∧ tag ≠ Directive.ifTag := by rw [h]; decide
  rw [fillNode, if_neg hne.1, if_neg hne.2, if_pos h, Evaluation.gives_bind]
  simp only [Evaluation.gives_pure, eq_comm]

theorem gives_fillNode_insert (h : tag = Directive.insertTag) :
    (fillNode host insert (.element tag attrs children void) context pending).Gives filled ↔
      ∃ id nodes, (insertion tag attrs).Gives id ∧ (insert context id).Gives nodes ∧
        filled = (nodes, .nothing) := by
  have hne : tag ≠ Directive.repeatTag ∧ tag ≠ Directive.ifTag ∧ tag ≠ Directive.elseTag := by
    rw [h]; decide
  rw [fillNode, if_neg hne.1, if_neg hne.2.1, if_neg hne.2.2, if_pos h]
  exact Evaluation.gives_bind_bind_pure

theorem gives_fillNode_element (h : tag ∉ Directive.tags) :
    (fillNode host insert (.element tag attrs children void) context pending).Gives filled ↔
      ∃ attrs' nodes, (fillAttrs host context attrs).Gives attrs' ∧
        (fillNodes host insert children context .nothing).Gives nodes ∧
          filled = ([.element tag attrs' nodes void], .nothing) := by
  simp only [Directive.tags, List.mem_cons, List.not_mem_nil, or_false, not_or] at h
  rw [fillNode, if_neg h.1, if_neg h.2.1, if_neg h.2.2.1, if_neg h.2.2.2]
  exact Evaluation.gives_bind_bind_pure

theorem gives_concatItems_cons {nodesOf : Value → Evaluation (List Node)} {item : Value}
    {items : List Value} {nodes : List Node} :
    (concatItems nodesOf (item :: items)).Gives nodes ↔
      ∃ a b, (nodesOf item).Gives a ∧ (concatItems nodesOf items).Gives b ∧ nodes = a ++ b := by
  rw [concatItems]
  exact Evaluation.gives_bind_bind_pure

/-! ### What is held back -/

/-- What a node is filled to does not depend on what comes before it, unless the node is a blank text
    or an alternative. -/
theorem fillNode_of_pending {n : Node} (hblank : n.isBlank = false)
    (helse : n.hasTag Directive.elseTag = false) (pending : Pending) :
    fillNode host insert n context pending = fillNode host insert n context .nothing := by
  cases n with
  | text data raw => simp only [fillNode, hblank, Bool.false_eq_true, if_false]
  | comment data => rw [fillNode, fillNode]
  | fragment children => rw [fillNode, fillNode]
  | element tag attrs children void =>
    have helse : tag ≠ Directive.elseTag := by simpa [hasTag] using helse
    simp only [fillNode, if_neg helse]

theorem released_eq_nil {n : Node} (h : n.isBlank = true ∨ n.hasTag Directive.elseTag = true)
    (pending : Pending) : pending.released n = [] := by
  rw [Pending.released, if_pos (by simpa using h)]

theorem released_eq_blanks {n : Node} (hblank : n.isBlank = false)
    (helse : n.hasTag Directive.elseTag = false) (pending : Pending) :
    pending.released n = pending.blanks := by
  rw [Pending.released, hblank, helse]
  rfl

theorem released_nothing (n : Node) : Pending.nothing.released n = [] := by
  rw [Pending.released]
  split <;> rfl

/-- What is held back is put in front of all the rest if no alternative comes next. -/
theorem gives_fillNodes_of_pending {ns nodes : List Node} (h : ¬StartsAlternative ns) :
    (fillNodes host insert ns context pending).Gives nodes ↔
      ∃ rest, (fillNodes host insert ns context .nothing).Gives rest ∧
        nodes = pending.blanks ++ rest := by
  -- By induction on the nodes up to the first one that is not blank; blank texts are held back too.
  induction ns generalizing pending nodes with
  | nil =>
    simp only [gives_fillNodes_nil]
    constructor
    · rintro rfl
      exact ⟨[], rfl, (List.append_nil _).symm⟩
    · rintro ⟨_, rfl, rfl⟩
      exact List.append_nil _
  | cons n ns ih =>
    rw [StartsAlternative] at h
    by_cases hblank : n.isBlank = true
    · rw [if_pos hblank] at h
      simp only [gives_fillNodes_cons, gives_fillNode_blank hblank, exists_eq_left,
        released_eq_nil (.inl hblank), List.nil_append, exists_and_left]
      cases pending with
      | nothing => simp [Pending.hold, Pending.blanks]
      | expanded blanks =>
        simp only [Pending.hold, Pending.blanks, List.nil_append]
        constructor
        · rintro ⟨rest, hrest, rfl⟩
          obtain ⟨rest', hrest', rfl⟩ := (ih h).1 hrest
          exact ⟨_, ⟨rest', hrest', rfl⟩, by simp [Pending.blanks]⟩
        · rintro ⟨_, ⟨rest, hrest, rfl⟩, rfl⟩
          exact ⟨_, (ih h).2 ⟨rest, hrest, rfl⟩, by simp [Pending.blanks]⟩
    · -- The node is neither blank nor an alternative: what was held back is released in front of it.
      rw [if_neg hblank] at h
      have hblank : n.isBlank = false := by simpa using hblank
      have helse : n.hasTag Directive.elseTag = false := by simpa using h
      simp only [gives_fillNodes_cons, fillNode_of_pending hblank helse pending,
        released_eq_blanks hblank helse]
      constructor
      · rintro ⟨filled, rest, hfilled, hrest, rfl⟩
        exact ⟨_, ⟨filled, rest, hfilled, hrest, rfl⟩, rfl⟩
      · rintro ⟨_, ⟨filled, rest, hfilled, hrest, rfl⟩, rfl⟩
        exact ⟨filled, rest, hfilled, hrest, rfl⟩

/-- What a node leaves for the next alternative. -/
theorem next_of_gives_fillNode {n : Node}
    (h : (fillNode host insert n context pending).Gives filled) :
    Next host context pending n filled.2 := by
  cases n with
  | text data raw =>
    by_cases hblank : (Node.text data raw).isBlank = true
    · rw [(gives_fillNode_blank hblank).1 h, Next, if_pos hblank]
    · obtain ⟨s, -, rfl⟩ := (gives_fillNode_text (by simpa using hblank)).1 h
      rw [Next, if_neg hblank]
  | comment data =>
    rw [fillNode, Evaluation.gives_pure] at h
    exact h ▸ rfl
  | fragment children =>
    obtain ⟨nodes, -, rfl⟩ := gives_fillNode_fragment.1 h
    rfl
  | element tag attrs children void =>
    rw [Next]
    by_cases hif : tag = Directive.ifTag
    · rw [if_pos hif]
      rcases (gives_fillNode_if hif).1 h with ⟨hcond, nodes, -, rfl⟩ | ⟨hcond, rfl⟩
      · exact .inl ⟨hcond, rfl⟩
      · exact .inr ⟨hcond, rfl⟩
    rw [if_neg hif]
    by_cases hrepeat : tag = Directive.repeatTag
    · obtain ⟨r, nodes, -, -, rfl⟩ := (gives_fillNode_repeat hrepeat).1 h
      rfl
    by_cases helse : tag = Directive.elseTag
    · obtain ⟨nodes, -, rfl⟩ := (gives_fillNode_else helse).1 h
      rfl
    by_cases hinsert : tag = Directive.insertTag
    · obtain ⟨id, nodes, -, -, rfl⟩ := (gives_fillNode_insert hinsert).1 h
      rfl
    have htag : tag ∉ Directive.tags := by
      simp only [Directive.tags, List.mem_cons, List.not_mem_nil, or_false, not_or]
      exact ⟨hrepeat, hif, helse, hinsert⟩
    obtain ⟨attrs', nodes, -, -, rfl⟩ := (gives_fillNode_element htag).1 h
    rfl

/-- Nodes in a row are filled one after the other if the first ones have no conditionals. -/
theorem gives_fillNodes_append {as bs nodes : List Node}
    (h : ∀ n ∈ as, n.hasTag Directive.ifTag = false) :
    (fillNodes host insert (as ++ bs) context .nothing).Gives nodes ↔
      ∃ a b, (fillNodes host insert as context .nothing).Gives a ∧
        (fillNodes host insert bs context .nothing).Gives b ∧ nodes = a ++ b := by
  induction as generalizing nodes with
  | nil =>
    simp only [List.nil_append, gives_fillNodes_nil, Pending.blanks]
    exact ⟨fun h => ⟨[], nodes, rfl, h, rfl⟩, fun ⟨_, _, ha, hb, h⟩ => by rwa [h, ha]⟩
  | cons n as ih =>
    have ih := @ih
    simp only [List.cons_append, gives_fillNodes_cons, released_nothing, List.nil_append]
    constructor
    · -- The node is no conditional, so nothing is pending behind it.
      rintro ⟨filled, rest, hfilled, hrest, rfl⟩
      have hnext := (next_of_gives_fillNode hfilled).eq_nothing (h n List.mem_cons_self)
      rw [hnext] at hrest
      obtain ⟨a, b, ha, hb, rfl⟩ := (ih fun m hm => h m (List.mem_cons_of_mem n hm)).1 hrest
      exact ⟨_, b, ⟨filled, a, hfilled, hnext ▸ ha, rfl⟩, hb, (List.append_assoc ..).symm⟩
    · rintro ⟨_, b, ⟨filled, a, hfilled, ha, rfl⟩, hb, rfl⟩
      have hnext := (next_of_gives_fillNode hfilled).eq_nothing (h n List.mem_cons_self)
      rw [hnext] at ha
      refine ⟨filled, a ++ b, hfilled, ?_, List.append_assoc ..⟩
      rw [hnext]
      exact (ih fun m hm => h m (List.mem_cons_of_mem n hm)).2 ⟨a, b, ha, hb, rfl⟩

end

/-! ### What is reached -/

section

variable {host : Host} {insert insert' : Context → String → Prop}
  {P Q : Context → Node → List Node → Prop} {context : Context} {alternative alternative' : Prop}

theorem Leaves.imp (h : alternative → alternative') {n : Node}
    (hn : Leaves host context alternative n) : Leaves host context alternative' n := by
  cases n with
  | element tag attrs children void => exact hn
  | text data raw => exact ⟨hn.1, h hn.2⟩
  | comment data => exact ⟨hn.1, h hn.2⟩
  | fragment children => exact ⟨hn.1, h hn.2⟩

theorem Enters.imp {tag : String} {attrs : Attributes} (h : alternative → alternative')
    (he : Enters host context alternative tag attrs) :
    Enters host context alternative' tag attrs := by
  rw [Enters] at he ⊢
  split_ifs at he ⊢
  · exact he
  · exact h he

/-- What holds of all nodes that are reached. Fewer nodes are reached if fewer alternatives are
    expanded. -/
theorem Reaches.imp (hP : ∀ context n ns, P context n ns → Q context n ns)
    (hinsert : ∀ context id, insert context id → insert' context id) {ns : List Node}
    (halt : alternative' → alternative) (h : Reaches host insert P ns context alternative) :
    Reaches host insert' Q ns context alternative' := by
  induction ns using forest_induction generalizing context alternative alternative' with
  | nil => trivial
  | text data raw ns ih => exact ⟨hP _ _ _ h.1, trivial, ih (Leaves.imp halt) h.2.2⟩
  | comment data ns ih => exact ⟨hP _ _ _ h.1, trivial, ih (Leaves.imp halt) h.2.2⟩
  | fragment children ns ihc ih =>
    exact ⟨hP _ _ _ h.1, ihc id h.2.1, ih (Leaves.imp halt) h.2.2⟩
  | element tag attrs children void ns ihc ih =>
    obtain ⟨hn, hbelow, h⟩ := h
    refine ⟨hP _ _ _ hn, ?_, ih (Leaves.imp halt) h⟩
    rw [ReachesBelow] at hbelow ⊢
    split_ifs at hbelow ⊢ with hrepeat hi
    · exact fun r hr item hitem => ihc id (hbelow r hr item hitem)
    · exact fun name hname => hinsert _ _ (hbelow name hname)
    · exact fun he => ihc id (hbelow (he.imp halt))

theorem ReachesBelow.of_ne_else {n : Node} (hn : n.hasTag Directive.elseTag = false)
    (h : ReachesBelow host insert P n context alternative) :
    ReachesBelow host insert P n context alternative' := by
  cases n with
  | element tag attrs children void =>
    have helse : tag ≠ Directive.elseTag := by simpa [hasTag] using hn
    rw [ReachesBelow] at h ⊢
    simp only [Enters, if_neg helse] at h ⊢
    exact h
  | text data raw => trivial
  | comment data => trivial
  | fragment children => exact h

/-- What comes before does not matter if no alternative comes next. -/
theorem Reaches.of_not_startsAlternative {ns : List Node} (hns : ¬StartsAlternative ns)
    (h : Reaches host insert P ns context alternative) :
    Reaches host insert P ns context alternative' := by
  induction ns generalizing alternative alternative' with
  | nil => trivial
  | cons n ns ih =>
    obtain ⟨hn, hbelow, h⟩ := h
    rw [StartsAlternative] at hns
    by_cases hblank : n.isBlank = true
    · rw [if_pos hblank] at hns
      have helse : n.hasTag Directive.elseTag = false := by
        cases n <;> first | rfl | exact absurd hblank Bool.false_ne_true
      exact ⟨hn, hbelow.of_ne_else helse, ih hns h⟩
    · -- From here on it does not matter any more what `alternative` says.
      rw [if_neg hblank] at hns
      refine ⟨hn, hbelow.of_ne_else (by simpa using hns), h.imp (fun _ _ _ h => h) (fun _ _ h => h) ?_⟩
      cases n with
      | element tag attrs children void => exact id
      | text data raw => exact fun hl => absurd hl.1 hblank
      | comment data => exact fun hl => absurd hl.1 hblank
      | fragment children => exact fun hl => absurd hl.1 hblank

/-- Nodes in a row are reached one after the other if no alternative comes between. -/
theorem Reaches.append {P : Context → Node → Prop} {as bs : List Node}
    (ha : Reaches host insert (fun context n _ => P context n) as context alternative)
    (hbs : ¬StartsAlternative bs)
    (hb : Reaches host insert (fun context n _ => P context n) bs context alternative') :
    Reaches host insert (fun context n _ => P context n) (as ++ bs) context alternative := by
  induction as generalizing alternative with
  | nil => exact hb.of_not_startsAlternative hbs
  | cons n as ih => exact ⟨ha.1, ha.2.1, ih ha.2.2⟩

end

end Stencil.Expansion
