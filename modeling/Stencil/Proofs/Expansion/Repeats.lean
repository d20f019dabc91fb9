import Stencil.Proofs.Expansion.Refines

/-!
# The pass over repetitions

A repetition is replaced by its body, expanded once for every element. If the body expands to what it
is filled to, in normal form (`SoundExpand`), the nodes that the pass leaves are filled as the nodes
before it (`unrolled_expandRepeats`): what replaces a repetition is settled, and all other nodes keep
their directives and their texts.

The pass goes through the whole tree, and so also through branches that are not taken. Nothing is
known of what it leaves there, and nothing has to be: such nodes are not reached.
-/

namespace Stencil.Expansion

open Node

/-! ### The passes node by node -/

section

variable {host : Host} {expand : Expand} {context : Context}

theorem expandItems_eq (binding : String) (body : List Node) (items : List Value) :
    expandItems expand context binding body items =
      concatItems (fun item => expand (Context.bind context binding item) body) items := by
  induction items with
  | nil => rfl
  | cons item items ih => rw [expandItems, concatItems, ih]

/-- A repetition is replaced by its body, expanded once for every element. -/
theorem expandRepeatsAt_repeat {tag : String} (h : tag = Directive.repeatTag) (attrs : Attributes)
    (children : List Node) (void : Bool) :
    expandRepeatsAt host expand context (.element tag attrs children void) =
      repetition host context tag attrs >>= fun r =>
        concatItems (fun item => expand (Context.bind context r.binding item) children) r.items := by
  rw [expandRepeatsAt, if_pos h, repetition]
  simp only [bind_assoc]
  congr 1
  funext value
  congr 1
  funext ⟨binding, source⟩
  simp only [expandRepeat]
  congr 1
  funext v
  cases v.items? with
  | none => rfl
  | some items =>
    simp only
    split_ifs
    · rfl
    · rw [expandItems_eq, pure_bind]

theorem gives_expandRepeats_cons {n : Node} {ns nodes : List Node} :
    (expandRepeats host expand context (n :: ns)).Gives nodes ↔
      ∃ a b, (expandRepeatsAt host expand context n).Gives a ∧
        (expandRepeats host expand context ns).Gives b ∧ nodes = a ++ b := by
  rw [expandRepeats]
  exact Evaluation.gives_bind_bind_pure

theorem eq_nil_of_gives_expandRepeats {ns nodes : List Node}
    (h : (expandRepeats host expand context ns).Gives nodes) (hns : ns = []) : nodes = [] := by
  rw [hns] at h
  exact (Evaluation.gives_pure.1 h).symm

theorem gives_expandRepeatsAt_element {tag : String} (h : tag ≠ Directive.repeatTag)
    {attrs : Attributes} {children : List Node} {void : Bool} {nodes : List Node} :
    (expandRepeatsAt host expand context (.element tag attrs children void)).Gives nodes ↔
      ∃ children', (expandRepeats host expand context children).Gives children' ∧
        nodes = [.element tag attrs children' void] := by
  rw [expandRepeatsAt, if_neg h, Evaluation.gives_bind]
  simp only [Evaluation.gives_pure, eq_comm]

theorem gives_expandRepeatsAt_fragment {children nodes : List Node} :
    (expandRepeatsAt host expand context (.fragment children)).Gives nodes ↔
      ∃ children', (expandRepeats host expand context children).Gives children' ∧
        nodes = [.fragment children'] := by
  rw [expandRepeatsAt, Evaluation.gives_bind]
  simp only [Evaluation.gives_pure, eq_comm]

end

/-! ### Bodies -/

/-- A node of a template can be filled in a scope: no alternative follows a repetition. -/
structure Templated (host : Host) (context : Context) (n : Node) (ns : List Node) : Prop
    extends Fillable host context n where
  tidy : n.hasTag Directive.repeatTag = true → ¬StartsAlternative ns

/-- A body expands to what it is filled to, in normal form, if all that is reached in it is
    fillable. -/
def SoundExpand (host : Host) (insert : Context → String → Evaluation (List Node))
    (reached : Context → String → Prop) (expand : Expand) : Prop :=
  ∀ context body r, Reaches host reached (Templated host) body context False →
    (expand context body).Gives r → Settles (fillNodes host insert body context .nothing) r

theorem settles_concatItems {nodesOf nodesOf' : Value → Evaluation (List Node)}
    {items : List Value}
    (h : ∀ item ∈ items, ∀ r, (nodesOf' item).Gives r → Settles (nodesOf item) r)
    {r : List Node} (hr : (concatItems nodesOf' items).Gives r) :
    Settles (concatItems nodesOf items) r := by
  induction items generalizing r with
  | nil =>
    obtain rfl := Evaluation.gives_pure.1 hr
    exact ⟨trivial, [], Evaluation.gives_pure.2 rfl, .refl _⟩
  | cons item items ih =>
    obtain ⟨a, b, ha, hb, rfl⟩ := gives_concatItems_cons.1 hr
    obtain ⟨hasettled, fa, hfa, halike⟩ := h item List.mem_cons_self a ha
    obtain ⟨hbsettled, fb, hfb, hblike⟩ := ih (fun i hi => h i (List.mem_cons_of_mem item hi)) hb
    exact ⟨hasettled.append hbsettled, fa ++ fb,
      gives_concatItems_cons.2 ⟨fa, fb, hfa, hfb, rfl⟩, halike.append hblike⟩

/-! ### Repetitions -/

section

variable {host : Host} {insert : Context → String → Evaluation (List Node)}
  {reached : Context → String → Prop} {expand : Expand} {context : Context} {alternative : Prop}

/-- What replaces a directive in front of other nodes is filled to itself. -/
theorem refines_settled_append {n : Node} (hblank : n.isBlank = false)
    (helse : n.hasTag Directive.elseTag = false) {ns ns' r : List Node}
    {pending : Pending} (hns' : ¬StartsAlternative ns')
    (hr : ∃ f, (fillNode host insert n context .nothing).Gives (f, .nothing) ∧ Alike f r)
    (hsettled : Settled r)
    (hns : Refines (fillNodes host insert ns context .nothing)
      (fillNodes host insert ns' context .nothing)) :
    Refines (fillNodes host insert (n :: ns) context pending)
      (fillNodes host insert (r ++ ns') context pending) := by
  intro f' hf'
  -- What is pending before the directive is put in front of what replaces it, as the directive itself
  -- is neither blank nor an alternative.
  obtain ⟨all', hall', rfl⟩ :=
    (gives_fillNodes_of_pending (not_startsAlternative_append hsettled hns')).1 hf'
  obtain ⟨rest', hrest', rfl⟩ := (gives_fillNodes_settled_append hsettled).1 hall'
  obtain ⟨rest, hrest, halike⟩ := hns rest' hrest'
  obtain ⟨f, hf, hfalike⟩ := hr
  refine ⟨pending.blanks ++ (f ++ rest), ?_, (Alike.refl _).append (hfalike.append halike)⟩
  rw [gives_fillNodes_cons, fillNode_of_pending hblank helse, released_eq_blanks hblank helse]
  exact ⟨(f, .nothing), rest, hf, hrest, rfl⟩

/-- What the pass over repetitions leaves of nodes: they are filled as before, whatever is held back
    before them, and no alternative comes to the front. -/
structure Unrolled (host : Host) (insert : Context → String → Evaluation (List Node))
    (reached : Context → String → Prop) (context : Context) (alternative : Prop)
    (ns ns' : List Node) : Prop where
  reaches : ReachesWithout [Directive.repeatTag] host reached ns' context alternative
  tidy : ¬StartsAlternative ns → ¬StartsAlternative ns'
  refines : ∀ pending : Pending, (pending.IsExpanded → alternative) →
    Refines (fillNodes host insert ns context pending) (fillNodes host insert ns' context pending)

theorem unrolled_nil : Unrolled host insert reached context alternative [] [] :=
  ⟨trivial, id, fun _ _ => .refl _⟩

variable {ns ns' : List Node}

theorem unrolled_text {data : String} {raw : Bool} (hn : Fillable host context (.text data raw))
    (h : Unrolled host insert reached context (Leaves host context alternative (.text data raw))
      ns ns') :
    Unrolled host insert reached context alternative (.text data raw :: ns)
      (.text data raw :: ns') := by
  refine ⟨⟨⟨hn, trivial⟩, trivial, h.reaches⟩, fun hns => ?_, fun pending hpending => ?_⟩
  · -- A blank text leaves it to the nodes behind it whether an alternative starts.
    rw [StartsAlternative] at hns ⊢
    split_ifs at hns ⊢
    · exact h.tidy hns
    · exact hns
  · exact .cons (.refl _) rfl fun filled hfilled =>
      h.refines filled.2 ((next_of_gives_fillNode hfilled).leaves hpending)

theorem unrolled_fragment {children children' : List Node}
    (hchildren : Unrolled host insert reached context False children children')
    (h : Unrolled host insert reached context (Leaves host context alternative (.fragment children))
      ns ns') :
    Unrolled host insert reached context alternative (.fragment children :: ns)
      (.fragment children' :: ns') := by
  refine ⟨⟨⟨fillable_fragment children', trivial⟩, hchildren.reaches, h.reaches⟩,
    fun _ => Bool.false_ne_true, fun pending hpending => ?_⟩
  exact .cons (refinesNode_fragment (hchildren.refines .nothing False.elim)) rfl
    fun filled hfilled => h.refines filled.2 ((next_of_gives_fillNode hfilled).leaves hpending :)

variable {tag : String} {attrs : Attributes} {children : List Node} {void : Bool}

/-- What replaces a repetition is settled, and no alternative follows it. -/
theorem unrolled_repeat (hrepeat : tag = Directive.repeatTag)
    (hn : Templated host context (.element tag attrs children void) ns)
    {next : Prop} (h : Unrolled host insert reached context next ns ns') {out : List Node}
    (hout : Settled out)
    (hfill : ∃ f, (fillNode host insert (.element tag attrs children void) context .nothing).Gives
      (f, .nothing) ∧ Alike f out) :
    Unrolled host insert reached context alternative (.element tag attrs children void :: ns)
      (out ++ ns') := by
  have htidy := h.tidy (hn.tidy (by simpa [hasTag] using hrepeat))
  have helse : tag ≠ Directive.elseTag := by rw [hrepeat]; decide
  refine ⟨(reaches_of_settled (by decide) hout).append htidy h.reaches,
    fun _ => not_startsAlternative_append hout htidy, fun pending _ => ?_⟩
  exact refines_settled_append rfl (by simpa [hasTag] using helse) htidy hfill hout
    (h.refines .nothing False.elim)

/-- Any other element stays, with new children. These count only where they are filled. -/
theorem unrolled_element (hrepeat : tag ≠ Directive.repeatTag)
    (hn : Fillable host context (.element tag attrs children void)) {children' : List Node}
    (hempty : children = [] → children' = [])
    (hbelow : ReachesBelow host reached (Templated host) (.element tag attrs children void) context
      alternative)
    (hchildren : Reaches host reached (Templated host) children context False →
      Unrolled host insert reached context False children children')
    (h : Unrolled host insert reached context
      (Leaves host context alternative (.element tag attrs children void)) ns ns') :
    Unrolled host insert reached context alternative (.element tag attrs children void :: ns)
      (.element tag attrs children' void :: ns') := by
  rw [ReachesBelow, if_neg hrepeat] at hbelow
  have hlacks : Lacks [Directive.repeatTag] (.element tag attrs children' void) := by
    simpa [Lacks] using hrepeat
  refine ⟨⟨⟨hn.of_children hempty, hlacks⟩, ?_, h.reaches⟩, id, fun pending hpending => ?_⟩
  · rw [ReachesBelow, if_neg hrepeat]
    split_ifs at hbelow ⊢
    · exact hbelow
    · exact fun henters => (hchildren (hbelow henters)).reaches
  · refine .cons (refinesNode_element hrepeat hpending fun hinsert henters => ?_) rfl
      fun filled hfilled => h.refines filled.2 ((next_of_gives_fillNode hfilled).leaves hpending :)
    rw [if_neg hinsert] at hbelow
    exact (hchildren (hbelow henters)).refines .nothing False.elim

/-- The nodes with their repetitions replaced are filled as before, and no alternative comes to the
    front. -/
theorem unrolled_expandRepeats (hexpand : SoundExpand host insert reached expand)
    (h : Reaches host reached (Templated host) ns context alternative)
    (hns' : (expandRepeats host expand context ns).Gives ns') :
    Unrolled host insert reached context alternative ns ns' := by
  -- By induction on the forest. Nothing is pending before the first child of a node; what is pending
  -- behind the node is what it leaves, so the statement is about all that may be pending.
  induction ns using forest_induction generalizing ns' alternative with
  | nil =>
    obtain rfl := Evaluation.gives_pure.1 hns'
    exact unrolled_nil
  | text data raw ns ih =>
    obtain ⟨a, b, ha, hb, rfl⟩ := gives_expandRepeats_cons.1 hns'
    obtain rfl := Evaluation.gives_pure.1 ha
    exact unrolled_text h.1.toFillable (ih h.2.2 hb)
  | comment data ns ih => exact h.1.1.plain.elim
  | fragment children ns ihc ih =>
    obtain ⟨a, b, ha, hb, rfl⟩ := gives_expandRepeats_cons.1 hns'
    obtain ⟨children', hchildren', rfl⟩ := gives_expandRepeatsAt_fragment.1 ha
    exact unrolled_fragment (ihc h.2.1 hchildren') (ih h.2.2 hb)
  | element tag attrs children void ns ihc ih =>
    obtain ⟨hn, hbelow, h⟩ := h
    obtain ⟨a, b, ha, hb, rfl⟩ := gives_expandRepeats_cons.1 hns'
    by_cases hrepeat : tag = Directive.repeatTag
    · rw [expandRepeatsAt_repeat hrepeat, Evaluation.gives_bind] at ha
      obtain ⟨r, hr, ha⟩ := ha
      rw [ReachesBelow, if_pos hrepeat] at hbelow
      obtain ⟨hsettled, f, hf, halike⟩ := settles_concatItems
        (fun item hitem r' => hexpand _ children r' (hbelow r hr item hitem)) ha
      exact unrolled_repeat hrepeat hn (ih h hb) hsettled
        ⟨f, (gives_fillNode_repeat hrepeat).2 ⟨r, f, hr, hf, rfl⟩, halike⟩
    · obtain ⟨children', hchildren', rfl⟩ := (gives_expandRepeatsAt_element hrepeat).1 ha
      exact unrolled_element hrepeat hn.toFillable (eq_nil_of_gives_expandRepeats hchildren') hbelow
        (fun hreach => ihc hreach hchildren') (ih h hb)

end

end Stencil.Expansion
