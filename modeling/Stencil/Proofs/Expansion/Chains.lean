import Mathlib.Data.List.Nodup
import Mathlib.Data.List.Perm.Subperm
import Stencil.Expansion

/-!
# Chains of insertions

The templates that are being inserted, outermost first, are a *chain*: they are registered, and none
comes twice. So there are no more of them than there are templates. An expansion goes on along chains
only: it is the same if anything else is done wherever the names are no chain (`expandAlong_eq`).

* `IsChain.length_le`: a chain is no longer than the registry;
* `expandInsertsAt_circular`: what is being inserted is not inserted once more.
-/

namespace Stencil.Expansion

variable {registry : Option Registry}

/-- The names that templates are registered under. -/
def registered (registry : Option Registry) : List String :=
  registry.elim [] OrderedMap.keys

theorem mem_registered {id : String} {template : Node}
    (h : registry.bind (·.get? id) = some template) : id ∈ registered registry := by
  cases registry with
  | none => cases h
  | some registry => exact OrderedMap.mem_keys_of_get? h

/-- Names of registered templates, none of them twice. -/
structure IsChain (registry : Option Registry) (chain : List String) : Prop where
  nodup : chain.Nodup
  mem_registered : ∀ id ∈ chain, id ∈ registered registry

instance : DecidablePred (IsChain registry) := fun chain =>
  decidable_of_iff (chain.Nodup ∧ ∀ id ∈ chain, id ∈ registered registry)
    ⟨fun h => ⟨h.1, h.2⟩, fun h => ⟨h.nodup, h.mem_registered⟩⟩

theorem isChain_nil : IsChain registry [] :=
  ⟨List.nodup_nil, fun _ hid => absurd hid List.not_mem_nil⟩

/-- A chain is no longer than the registry. -/
theorem IsChain.length_le {chain : List String} (h : IsChain registry chain) :
    chain.length ≤ (registered registry).length :=
  (h.nodup.subperm h.mem_registered).length_le

/-- A chain gets longer by a registered name that is not in it. -/
theorem IsChain.concat {chain : List String} (h : IsChain registry chain) {id : String}
    (hnew : id ∉ chain) (hid : id ∈ registered registry) : IsChain registry (chain ++ [id]) where
  nodup := List.concat_eq_append ▸ h.nodup.concat hnew
  mem_registered other hother := by
    rcases List.mem_append.1 hother with hother | hother
    · exact h.mem_registered other hother
    · exact List.mem_singleton.1 hother ▸ hid

/-! ### Going on along chains -/

/-- The four passes over nodes, given what bodies and inserted templates expand to. -/
def expandLevel (s : Surroundings) (expand : List String → Expand) (inserting : List String)
    (context : Context) (nodes : List Node) : Evaluation (List Node) := do
  let nodes ← expandRepeats s.host (expand inserting) context nodes
  let nodes ← expandBranches s.host (expand inserting) context nodes .nothing
  let nodes ← expandInserts
    (expandInsert s.registry (fun inserting => expand inserting context) inserting) nodes
  let text := stripComments (Node.writeAll nodes)
  let text ← interpolate s.host (.map context) s.limits.replacements text
  Evaluation.ofMarkup (Node.parse (String.ofList text))

/-- An expansion in which `other` stands for whatever would be expanded while names are being inserted
    that are not allowed. -/
def expandAlong (allowed : List String → Prop) [DecidablePred allowed] (other : List String → Expand)
    (s : Surroundings) : (depth : Nat) → (inserting : List String) → Expand
  | 0, inserting =>
    if allowed inserting then fun _ _ => Evaluation.fail .unfinished else other inserting
  | depth + 1, inserting =>
    if allowed inserting then expandLevel s (expandAlong allowed other s depth) inserting
    else other inserting

theorem expandNodes_succ_eq (s : Surroundings) (depth : Nat) (inserting : List String) :
    expandNodes s (depth + 1) inserting = expandLevel s (expandNodes s depth) inserting := rfl

/-- An insertion goes on along a chain if it does so already. -/
theorem expandInsert_congr {expand expand' : List String → List Node → Evaluation (List Node)}
    (hexpand : ∀ chain, IsChain registry chain → expand chain = expand' chain)
    {inserting : List String} (h : IsChain registry inserting) (id : String) :
    expandInsert registry expand inserting id = expandInsert registry expand' inserting id := by
  rw [expandInsert, expandInsert]
  split_ifs with hid
  · rfl
  cases hfound : registry.bind (·.get? id) with
  | none => rfl
  | some template => exact congrFun (hexpand _ (h.concat hid (mem_registered hfound))) _

/-- The passes over nodes go on along chains. -/
theorem expandLevel_congr {s : Surroundings} {expand expand' : List String → Expand}
    (hexpand : ∀ chain, IsChain s.registry chain → expand chain = expand' chain)
    {inserting : List String} (h : IsChain s.registry inserting) :
    expandLevel s expand inserting = expandLevel s expand' inserting := by
  funext context nodes
  have hinsert : expandInsert s.registry (fun inserting => expand inserting context) inserting =
      expandInsert s.registry (fun inserting => expand' inserting context) inserting :=
    funext (expandInsert_congr (fun chain hchain => congrFun (hexpand chain hchain) context) h)
  rw [expandLevel, expandLevel, hexpand inserting h, hinsert]

/-- An expansion goes on along chains only, so it does not matter what would be done elsewhere. -/
theorem expandAlong_eq (other : List String → Expand) (s : Surroundings) (depth : Nat)
    {inserting : List String} (h : IsChain s.registry inserting) :
    expandAlong (IsChain s.registry) other s depth inserting = expandNodes s depth inserting := by
  induction depth generalizing inserting with
  | zero => rw [expandAlong, if_pos h]; rfl
  | succ depth ih =>
    rw [expandAlong, if_pos h, expandNodes_succ_eq]
    exact expandLevel_congr (fun chain hchain => ih hchain) h

/-- A template that is being inserted is not inserted once more: there is an error, and nothing is
    expanded. -/
theorem expandInsertsAt_circular (expand : List String → List Node → Evaluation (List Node))
    {inserting : List String} {id : String} (hid : id ∈ inserting) {attrs : Attributes}
    (hattr : Directive.require Directive.insertTag attrs "template" = .ok id)
    (children : List Node) (void : Bool) :
    expandInsertsAt (expandInsert registry expand inserting)
        (.element Directive.insertTag attrs children void) =
      Evaluation.throw (.circularInsert (inserting ++ [id])) := by
  rw [expandInsertsAt, if_pos rfl, hattr, ofTemplate, pure_bind, expandInsert, if_pos hid]

end Stencil.Expansion
