import Stencil.Proofs.Expansion.Nesting

/-!
# Branches that are not taken

Of a conditional and its alternative one is removed, with all that stands in it: no insertion of it is
made, no placeholder of it is filled, and no condition in it is evaluated. Two templates that differ in
such a branch only expand alike, to the same nodes or the same error and with the same calls
(`expand_untaken`).

One pass has been through the branch when it is removed. The pass over repetitions goes over the whole
tree, and what it meets in a branch that is not taken may fail and may call functions
(`not_expand_untaken`). So the two bodies have to be *quiet*: the pass gets through them without an
error and without a call. Bodies without repetitions are quiet (`quiet_of_lacks`).

The two runs are followed pass by pass. After the pass over repetitions the trees still differ in the
branch only (`matches_expandRepeats`), after the pass over conditionals they are the same
(`expandBranches_untaken`).
-/

namespace Stencil

namespace Evaluation

variable {α β γ δ : Type}

/-- Two evaluations make the same calls and end alike: in the same failure, or with results that are
    related. -/
inductive Matches (R : α → β → Prop) : Evaluation α → Evaluation β → Prop
  | result {a : α} {b : β} {calls : List Call} : R a b → Matches R ⟨.ok a, calls⟩ ⟨.ok b, calls⟩
  | failure {failure : Failure} {calls : List Call} :
      Matches R ⟨.error failure, calls⟩ ⟨.error failure, calls⟩

variable {R : α → β → Prop} {S : γ → δ → Prop}

theorem matches_pure {a : α} {b : β} (h : R a b) : Matches R (pure a) (pure b) := .result h

theorem Matches.bind {x : Evaluation α} {y : Evaluation β} {f : α → Evaluation γ}
    {g : β → Evaluation δ} (h : Matches R x y) (hf : ∀ a b, R a b → Matches S (f a) (g b)) :
    Matches S (x >>= f) (y >>= g) := by
  cases h with
  | @result a b calls hab =>
    rw [Traced.bind_of_ok rfl, Traced.bind_of_ok rfl]
    have hfg := hf a b hab
    generalize f a = fa, g b = gb at hfg ⊢
    cases hfg with
    | result hcd => exact .result hcd
    | failure => exact .failure
  | failure => exact .failure

/-- What comes behind the same evaluation has to match for what this gives only. -/
theorem matches_bind_self {x : Evaluation α} {f : α → Evaluation γ} {g : α → Evaluation δ}
    (hf : ∀ a, x.Gives a → Matches S (f a) (g a)) : Matches S (x >>= f) (x >>= g) := by
  obtain ⟨outcome, calls⟩ := x
  have hself : Matches (fun a b => a = b ∧ outcome = .ok a) (⟨outcome, calls⟩ : Evaluation α)
      ⟨outcome, calls⟩ := by
    cases outcome with
    | ok a => exact .result ⟨rfl, rfl⟩
    | error failure => exact .failure
  refine hself.bind fun a b hab => ?_
  obtain ⟨rfl, ha⟩ := hab
  exact hf a ha

theorem matches_self (x : Evaluation α) : Matches (· = ·) x x := by
  obtain ⟨outcome, calls⟩ := x
  cases outcome with
  | ok a => exact .result rfl
  | error failure => exact .failure

/-- What comes behind a result has to be the same for this result only. -/
theorem Gives.bind_congr {x : Evaluation α} {a : α} (h : x.Gives a) {f g : α → Evaluation γ}
    (hfg : f a = g a) : x >>= f = x >>= g := by
  rw [Traced.bind_of_ok h, Traced.bind_of_ok h, hfg]

theorem Matches.eq {x y : Evaluation α} (h : Matches (· = ·) x y) : x = y := by
  cases h with
  | result hab => rw [hab]
  | failure => rfl

end Evaluation

namespace Expansion

open Node Evaluation

/-- The pass over repetitions gets through nodes without an error and without a call. -/
def Quiet (host : Host) (expand : Expand) (context : Context) (ns : List Node) : Prop :=
  ∃ r, expandRepeats host expand context ns = pure r

/-- What the pass over repetitions leaves of nodes, if it gets through them, are blank texts. -/
def LeavesBlanks (host : Host) (expand : Expand) (context : Context) (ns : List Node) : Prop :=
  ∀ r, (expandRepeats host expand context ns).Gives r → ∀ n ∈ r, n.isBlank = true

/-- Two rows of nodes differ in a branch that is not taken only: in the body of a conditional that does
    not hold, or in that of the alternative of one that holds. The branch may stand in elements that
    are no directives and in fragments. `body` says what the two bodies are like, and `between` what
    stands between the conditional and its alternative. -/
inductive Untaken (host : Host) (context : Context) (body between : List Node → Prop) :
    List Node → List Node → Prop
  | conditional {attrs : Attributes} {children children' : List Node} {void : Bool}
      {ns : List Node} (hcond : (condition host context Directive.ifTag attrs).Gives false)
      (h : body children) (h' : body children') :
      Untaken host context body between (.element Directive.ifTag attrs children void :: ns)
        (.element Directive.ifTag attrs children' void :: ns)
  | alternative {attrs attrs' : Attributes} {taken : List Node} {void void' : Bool}
      {blanks children children' ns : List Node}
      (hcond : (condition host context Directive.ifTag attrs).Gives true) (hblanks : between blanks)
      (h : body children) (h' : body children') :
      Untaken host context body between
        (.element Directive.ifTag attrs taken void ::
          (blanks ++ .element Directive.elseTag attrs' children void' :: ns))
        (.element Directive.ifTag attrs taken void ::
          (blanks ++ .element Directive.elseTag attrs' children' void' :: ns))
  | element {tag : String} {attrs : Attributes} {children children' : List Node} {void : Bool}
      {ns : List Node} (htag : tag ∉ Directive.tags)
      (h : Untaken host context body between children children') :
      Untaken host context body between (.element tag attrs children void :: ns)
        (.element tag attrs children' void :: ns)
  | fragment {children children' ns : List Node}
      (h : Untaken host context body between children children') :
      Untaken host context body between (.fragment children :: ns) (.fragment children' :: ns)
  | next {n : Node} {ns ns' : List Node} (h : Untaken host context body between ns ns') :
      Untaken host context body between (n :: ns) (n :: ns')

section

variable {host : Host} {expand : Expand} {context : Context} {body between : List Node → Prop}

theorem quiet_of_lacks {ns : List Node}
    (h : Everywhere (fun n _ => n.Lacks [Directive.repeatTag]) ns) : Quiet host expand context ns :=
  ⟨ns, expandRepeats_of_lacks h⟩

theorem ne_of_not_mem_tags {tag : String} (h : tag ∉ Directive.tags) :
    tag ≠ Directive.repeatTag ∧ tag ≠ Directive.ifTag ∧ tag ≠ Directive.elseTag := by
  simp only [Directive.tags, List.mem_cons, List.not_mem_nil, or_false, not_or] at h
  exact ⟨h.1, h.2.1, h.2.2.1⟩

theorem Untaken.append_left {ns ns' : List Node} (h : Untaken host context body between ns ns')
    (nodes : List Node) : Untaken host context body between (nodes ++ ns) (nodes ++ ns') := by
  induction nodes with
  | nil => exact h
  | cons n nodes ih => exact .next ih

/-- What two trees are filled with differs as the trees do. -/
theorem Untaken.content {n n' : Node} (h : Untaken host context body between [n] [n']) :
    Untaken host context body between n.content n'.content := by
  generalize hns : [n] = ns, hns' : [n'] = ns' at h
  cases h with
  | conditional hcond h h' =>
    obtain ⟨rfl, rfl⟩ := List.cons.inj hns
    obtain ⟨rfl, -⟩ := List.cons.inj hns'
    exact .conditional hcond h h'
  | alternative => simp at hns
  | element htag h =>
    obtain ⟨rfl, rfl⟩ := List.cons.inj hns
    obtain ⟨rfl, -⟩ := List.cons.inj hns'
    rw [Node.content, Node.content]
    split
    · exact h
    · exact .element htag h
  | fragment h =>
    obtain ⟨rfl, -⟩ := List.cons.inj hns
    obtain ⟨rfl, -⟩ := List.cons.inj hns'
    exact h
  | next h =>
    obtain ⟨-, rfl⟩ := List.cons.inj hns
    cases h

/-! ### The pass over repetitions -/

theorem expandRepeats_append (ns ms : List Node) :
    expandRepeats host expand context (ns ++ ms) =
      expandRepeats host expand context ns >>= fun a =>
        expandRepeats host expand context ms >>= fun b => pure (a ++ b) := by
  induction ns with
  | nil => simp [expandRepeats]
  | cons n ns ih =>
    rw [List.cons_append, expandRepeats, expandRepeats, ih]
    simp only [bind_assoc, pure_bind, List.append_assoc]

theorem expandRepeatsAt_element {tag : String} (h : tag ≠ Directive.repeatTag) (attrs : Attributes)
    (children : List Node) (void : Bool) :
    expandRepeatsAt host expand context (.element tag attrs children void) =
      expandRepeats host expand context children >>= fun children =>
        pure [.element tag attrs children void] := by
  rw [expandRepeatsAt, if_neg h]

/-- A quiet body in front of nodes. -/
theorem expandRepeats_cons_of_quiet {tag : String} (htag : tag ≠ Directive.repeatTag)
    {attrs : Attributes} {children r : List Node} {void : Bool}
    (h : expandRepeats host expand context children = pure r) (ns : List Node) :
    expandRepeats host expand context (.element tag attrs children void :: ns) =
      expandRepeats host expand context ns >>= fun rest =>
        pure (.element tag attrs r void :: rest) := by
  rw [expandRepeats, expandRepeatsAt_element htag, h, pure_bind, pure_bind]
  rfl

/-- After the pass over repetitions the trees differ in a branch that is not taken only, and the
    conditional and its alternative have nothing but blank texts between them. -/
theorem matches_expandRepeats {ns ns' : List Node}
    (h : Untaken host context (Quiet host expand context) (LeavesBlanks host expand context) ns ns') :
    Matches (Untaken host context (fun _ => True) fun blanks => ∀ n ∈ blanks, n.isBlank = true)
      (expandRepeats host expand context ns) (expandRepeats host expand context ns') := by
  have hif : Directive.ifTag ≠ Directive.repeatTag := by decide
  have helse : Directive.elseTag ≠ Directive.repeatTag := by decide
  induction h with
  | conditional hcond h h' =>
    obtain ⟨r, hr⟩ := h
    obtain ⟨r', hr'⟩ := h'
    rw [expandRepeats_cons_of_quiet hif hr, expandRepeats_cons_of_quiet hif hr']
    refine matches_bind_self fun rest _ => ?_
    exact matches_pure (.conditional hcond trivial trivial)
  | alternative hcond hblanks h h' =>
    obtain ⟨r, hr⟩ := h
    obtain ⟨r', hr'⟩ := h'
    rw [expandRepeats, expandRepeats, expandRepeatsAt_element hif, expandRepeats_append,
      expandRepeats_append, expandRepeats_cons_of_quiet helse hr, expandRepeats_cons_of_quiet helse hr']
    simp only [bind_assoc, pure_bind]
    refine matches_bind_self fun taken _ => matches_bind_self fun blanks hgives => ?_
    refine matches_bind_self fun rest _ => ?_
    exact matches_pure (.alternative hcond (hblanks blanks hgives) trivial trivial)
  | element htag h ih =>
    have hrepeat := (ne_of_not_mem_tags htag).1
    rw [expandRepeats, expandRepeats, expandRepeatsAt_element hrepeat,
      expandRepeatsAt_element hrepeat]
    simp only [bind_assoc, pure_bind]
    refine ih.bind fun children children' hchildren => ?_
    refine matches_bind_self fun rest _ => ?_
    exact matches_pure (.element htag hchildren)
  | fragment h ih =>
    rw [expandRepeats, expandRepeats, expandRepeatsAt, expandRepeatsAt]
    simp only [bind_assoc, pure_bind]
    refine ih.bind fun children children' hchildren => ?_
    refine matches_bind_self fun rest _ => ?_
    exact matches_pure (.fragment hchildren)
  | next h ih =>
    rw [expandRepeats, expandRepeats]
    refine matches_bind_self fun nodes _ => ih.bind fun rest rest' hrest => ?_
    exact matches_pure (hrest.append_left nodes)

/-! ### The pass over conditionals -/

/-- An alternative is removed behind a conditional that has been replaced by its body. -/
theorem expandBranches_blanks_alternative {blanks : List Node} (h : ∀ n ∈ blanks, n.isBlank = true)
    (attrs : Attributes) (children children' : List Node) (void : Bool) (ns : List Node) :
    expandBranches host expand context
        (blanks ++ .element Directive.elseTag attrs children void :: ns) .nothing =
      expandBranches host expand context
        (blanks ++ .element Directive.elseTag attrs children' void :: ns) .nothing := by
  induction blanks with
  | nil =>
    rw [List.nil_append, List.nil_append, expandBranches_cons, expandBranches_cons]
    rfl
  | cons n blanks ih =>
    have ih := ih fun m hm => h m (List.mem_cons_of_mem n hm)
    cases n with
    | text data raw =>
      have hblank : (Node.text data raw).isBlank = true := h _ List.mem_cons_self
      rw [List.cons_append, List.cons_append, expandBranches_cons, expandBranches_cons, branchNode,
        if_pos hblank, pure_bind, pure_bind, Pending.hold, ih]
    | _ => exact absurd (h _ List.mem_cons_self) Bool.false_ne_true

/-- The pass over conditionals removes the branch. -/
theorem expandBranches_untaken {ns ns' : List Node}
    (h : Untaken host context body (fun blanks => ∀ n ∈ blanks, n.isBlank = true) ns ns')
    (pending : Pending) :
    expandBranches host expand context ns pending =
      expandBranches host expand context ns' pending := by
  induction h generalizing pending with
  | conditional hcond h h' =>
    rw [expandBranches_cons, expandBranches_cons, branchNode, branchNode, if_pos rfl, if_pos rfl]
    simp only [bind_assoc]
    exact hcond.bind_congr rfl
  | alternative hcond hblanks h h' =>
    rw [expandBranches_cons, expandBranches_cons, branchNode, if_pos rfl]
    simp only [bind_assoc]
    refine hcond.bind_congr ?_
    simp only [if_true, bind_assoc, pure_bind]
    rw [expandBranches_blanks_alternative hblanks]
  | element htag h ih =>
    obtain ⟨-, hif, helse⟩ := ne_of_not_mem_tags htag
    rw [expandBranches_cons, expandBranches_cons, branchNode, branchNode, if_neg hif, if_neg hif,
      if_neg helse, if_neg helse, ih]
    rfl
  | fragment h ih =>
    rw [expandBranches_cons, expandBranches_cons, branchNode, branchNode, ih]
    rfl
  | next h ih =>
    rw [expandBranches_cons, expandBranches_cons]
    simp only [ih]

end

/-! ### All passes -/

/-- Nodes that differ in a branch that is not taken only expand alike. -/
theorem expandNodes_untaken {s : Surroundings} {depth : Nat} {inserting : List String}
    {context : Context} {ns ns' : List Node}
    (h : Untaken s.host context (Quiet s.host (expandNodes s depth inserting) context)
      (LeavesBlanks s.host (expandNodes s depth inserting) context) ns ns') :
    expandNodes s (depth + 1) inserting context ns =
      expandNodes s (depth + 1) inserting context ns' := by
  rw [expandNodes_succ, expandNodes_succ]
  refine ((matches_expandRepeats h).bind fun nodes nodes' hnodes => ?_).eq
  rw [expandBranches_untaken hnodes]
  exact matches_self _

/-- Templates that differ in a branch that is not taken only expand alike: to the same nodes or the same
    error, and with the same calls. The pass over repetitions has to get through the two bodies without
    an error and without a call, as it does if they have no repetitions. -/
theorem expand_untaken {s : Surroundings} {context : Context} {t t' : Template} {n n' : Node}
    (ht : treeOf t = pure n) (ht' : treeOf t' = pure n')
    (h : Untaken s.host context
      (Quiet s.host (expandNodes s (s.limits.depth - 1) []) context)
      (LeavesBlanks s.host (expandNodes s (s.limits.depth - 1) []) context) [n] [n']) :
    expand s t (.map context) = expand s t' (.map context) := by
  rw [expand, expand, ht, ht', pure_bind, pure_bind]
  cases hdepth : s.limits.depth with
  | zero => rfl
  | succ depth =>
    rw [hdepth, Nat.add_sub_cancel] at h
    exact expandNodes_untaken h.content

/-- An insertion of a template that there is not, and a placeholder of a name that there is not, are
    the same in the body of a conditional that does not hold. -/
theorem expand_untaken_insert :
    expand ⟨Host.none, none, ⟨2, 1⟩⟩ (.tree (.element "p" .empty [.element "if"
        (.ofList [("cond", "false")]) [.element "insert" (.ofList [("template", "t")]) [] true] false]
        false)) (.map []) =
      expand ⟨Host.none, none, ⟨2, 1⟩⟩ (.tree (.element "p" .empty [.element "if"
        (.ofList [("cond", "false")]) [.text "\x7b\x7bx\x7d\x7d" false] false] false)) (.map []) := by
  refine expand_untaken rfl rfl (.element (by decide) (.conditional rfl ?_ ?_))
  · exact quiet_of_lacks ⟨show "insert" ∉ [Directive.repeatTag] by decide, trivial, trivial⟩
  · exact quiet_of_lacks ⟨trivial, trivial, trivial⟩

/-- A repetition is replaced before the conditional that it stands in is removed, and its source may be
    missing. -/
theorem not_expand_untaken : ¬∀ (registry : Option Registry) (context : Context)
    (attrs : Attributes) (children children' : List Node),
    (condition Host.none context Directive.ifTag attrs).Gives false →
      Everywhere (fun n _ => n.Lacks [Directive.repeatTag]) children' →
        expand ⟨Host.none, registry, .standard⟩
            (.tree (.fragment [.element "if" attrs children false])) (.map context) =
          expand ⟨Host.none, registry, .standard⟩
            (.tree (.fragment [.element "if" attrs children' false])) (.map context) := by
  intro h
  have hsame := h none [] (.ofList [("cond", "false")])
    [.element "repeat" (.ofList [("for", "x of nope")]) [.text "a" false] false] [] rfl trivial
  have hraises : (expand ⟨Host.none, none, .standard⟩ (.tree (.fragment [.element "if"
      (.ofList [("cond", "false")]) [.element "repeat" (.ofList [("for", "x of nope")])
        [.text "a" false] false] false])) (.map [])).Raises (.undefined "nope") := rfl
  have hgives : (expand ⟨Host.none, none, .standard⟩ (.tree (.fragment [.element "if"
      (.ofList [("cond", "false")]) [] false])) (.map [])).Gives [] := rfl
  rw [hsame, Raises, hgives] at hraises
  cases hraises

end Expansion

end Stencil
