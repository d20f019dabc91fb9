import Stencil.Proofs.Expansion.Fill

/-!
# Settled nodes are filled to themselves

What an expansion leaves has neither directives nor placeholders, so filling it again changes
nothing, in whatever scope and wherever it stands. Nodes that can still be filled are *fillable*:
they are plain, the placeholders that begin in their texts end there, and the paths of these are
inert, as are their values.

* `gives_fillNodes_of_settled`: settled nodes are filled to themselves;
* `reaches_of_settled`: they are fillable everywhere.
-/

namespace Stencil.Expansion

open Node

/-- A node can be filled in a scope, its children apart. -/
structure Fillable (host : Host) (context : Context) (n : Node) : Prop where
  plain : n.IsPlain
  wellBraced : n.HasTexts WellBraced
  inertPaths : n.HasTexts HasInertPaths
  inert : n.HasTexts (FillsInert host (.map context))

/-- A node can be filled in a scope and has none of the given tags. -/
structure FillableWithout (tags : List String) (host : Host) (context : Context) (n : Node) : Prop
    extends Fillable host context n where
  lacks : n.Lacks tags

/-- The nodes that filling comes to can be filled, and have none of the given tags. -/
abbrev ReachesWithout (tags : List String) (host : Host) (insert : Context → String → Prop)
    (ns : List Node) (context : Context) (alternative : Prop) : Prop :=
  Reaches host insert (fun context n _ => FillableWithout tags host context n) ns context alternative

variable {host : Host} {context : Context}

theorem fillable_of_settled {n : Node} (hplain : n.IsPlain) (htexts : n.HasTexts Unopened) :
    Fillable host context n :=
  ⟨hplain, htexts.imp fun _ => .plain, htexts.imp fun _ => .of_unopened,
    htexts.imp fun _ => .of_unopened⟩

theorem fillable_fragment (children : List Node) : Fillable host context (.fragment children) :=
  ⟨trivial, trivial, trivial, trivial⟩

theorem Fillable.of_children {tag : String} {attrs : Attributes} {children children' : List Node}
    {void : Bool} (h : Fillable host context (.element tag attrs children void))
    (hchildren : children = [] → children' = []) :
    Fillable host context (.element tag attrs children' void) :=
  ⟨h.plain.of_children hchildren, h.wellBraced, h.inertPaths, h.inert⟩

theorem not_startsAlternative_append {r ns : List Node} (hr : Settled r)
    (hns : ¬StartsAlternative ns) : ¬StartsAlternative (r ++ ns) := by
  induction r with
  | nil => exact hns
  | cons n r ih =>
    rw [List.cons_append, StartsAlternative]
    split
    · exact ih hr.2.2
    · rw [hr.not_hasTag (by decide) List.mem_cons_self]
      exact Bool.false_ne_true

/-! ### Filling changes nothing -/

theorem gives_fillString_of_unopened {s : String} (h : Unopened s.toList) :
    (fillString host context s).Gives s := by
  rw [fillString, fillText_of_unopened h, Evaluation.gives_bind]
  exact ⟨s.toList, Evaluation.gives_pure.2 rfl, Evaluation.gives_pure.2 String.ofList_toList⟩

theorem gives_fillEntries_of_unopened {entries : List (String × String)}
    (h : ∀ entry ∈ entries, Unopened entry.2.toList) :
    (fillEntries host context entries).Gives entries := by
  induction entries with
  | nil => exact Evaluation.gives_pure.2 rfl
  | cons entry entries ih =>
    rw [fillEntries, Evaluation.gives_bind]
    refine ⟨_, gives_fillString_of_unopened (h entry List.mem_cons_self), ?_⟩
    rw [Evaluation.gives_bind]
    exact ⟨_, ih fun e he => h e (List.mem_cons_of_mem entry he), Evaluation.gives_pure.2 rfl⟩

theorem gives_fillAttrs_of_unopened {attrs : Attributes}
    (h : ∀ entry ∈ attrs.entries, Unopened entry.2.toList) :
    (fillAttrs host context attrs).Gives attrs := by
  rw [fillAttrs, Evaluation.gives_bind]
  exact ⟨_, gives_fillEntries_of_unopened h,
    Evaluation.gives_pure.2 (OrderedMap.ofList_entries attrs)⟩

section

variable {insert : Context → String → Evaluation (List Node)}

/-- Settled nodes are filled to themselves. -/
theorem gives_fillNodes_of_settled {r : List Node} (h : Settled r) :
    (fillNodes host insert r context .nothing).Gives r := by
  induction r using forest_induction with
  | nil => exact gives_fillNodes_nil.2 rfl
  | text data raw ns ih =>
    obtain ⟨⟨-, htext, -⟩, -, h⟩ := h
    rw [gives_fillNodes_cons, released_nothing]
    refine ⟨([.text data raw], .nothing), ns, ?_, ih h, rfl⟩
    by_cases hblank : (Node.text data raw).isBlank = true
    · exact (gives_fillNode_blank hblank).2 rfl
    · exact (gives_fillNode_text (by simpa using hblank)).2
        ⟨data, gives_fillString_of_unopened htext, rfl⟩
  | comment data ns ih => exact h.1.1.elim
  | element tag attrs children void ns ihc ih =>
    obtain ⟨⟨-, htexts, hlacks⟩, hchildren, h⟩ := h
    rw [gives_fillNodes_cons, released_nothing]
    refine ⟨([.element tag attrs children void], .nothing), ns, ?_, ih h, rfl⟩
    exact (gives_fillNode_element hlacks).2
      ⟨attrs, children, gives_fillAttrs_of_unopened (htexts hlacks), ihc hchildren, rfl⟩
  | fragment children ns ihc ih =>
    rw [gives_fillNodes_cons, released_nothing]
    exact ⟨([.fragment children], .nothing), ns,
      gives_fillNode_fragment.2 ⟨children, ihc h.2.1, rfl⟩, ih h.2.2, rfl⟩

/-- Settled nodes in front of others are filled to themselves. -/
theorem gives_fillNodes_settled_append {r ns nodes : List Node} (h : Settled r) :
    (fillNodes host insert (r ++ ns) context .nothing).Gives nodes ↔
      ∃ rest, (fillNodes host insert ns context .nothing).Gives rest ∧ nodes = r ++ rest := by
  rw [gives_fillNodes_append fun n hn => h.not_hasTag (by decide) hn]
  constructor
  · rintro ⟨a, rest, ha, hrest, rfl⟩
    exact ⟨rest, hrest, by rw [ha.unique (gives_fillNodes_of_settled h)]⟩
  · rintro ⟨rest, hrest, rfl⟩
    exact ⟨r, rest, gives_fillNodes_of_settled h, hrest, rfl⟩

end

/-- Settled nodes are fillable in every scope. -/
theorem reaches_of_settled {insert : Context → String → Prop} {tags : List String}
    (htags : ∀ tag ∈ tags, tag ∈ Directive.tags) {alternative : Prop} {r : List Node}
    (h : Settled r) :
    ReachesWithout tags host insert r context alternative := by
  induction r using forest_induction generalizing alternative with
  | nil => trivial
  | text data raw ns ih =>
    exact ⟨⟨fillable_of_settled h.1.1 h.1.2.1, trivial⟩, trivial, ih h.2.2⟩
  | comment data ns ih => exact h.1.1.elim
  | fragment children ns ihc ih =>
    exact ⟨⟨fillable_of_settled h.1.1 h.1.2.1, trivial⟩, ihc h.2.1, ih h.2.2⟩
  | element tag attrs children void ns ihc ih =>
    obtain ⟨⟨hplain, htexts, hlacks⟩, hchildren, h⟩ := h
    refine ⟨⟨fillable_of_settled hplain htexts, fun htag => hlacks (htags tag htag)⟩, ?_, ih h⟩
    have hne : tag ≠ Directive.repeatTag ∧ tag ≠ Directive.insertTag := by
      constructor <;> rintro rfl <;> exact hlacks (by decide)
    rw [ReachesBelow, if_neg hne.1, if_neg hne.2]
    exact fun _ => ihc hchildren

end Stencil.Expansion
