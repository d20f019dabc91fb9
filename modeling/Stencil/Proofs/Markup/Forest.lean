import Mathlib.Tactic.Common
import Stencil.Markup.Node.Basic

/-!
# Nodes in a row

What is done to the nodes of a document is done to the nodes in a row and, in front of what follows
it, to the children of each. `Node.forest_induction` has one case for every kind of first node, with
what it proves at hand for the children and for the nodes behind.

The *normal form* of nodes has the children of a fragment in its place, one text instead of texts
next to each other, and no empty texts. It is built from the back, in front of nodes in normal form
(`normalizeOnto`), so the normal form of nodes in a row is put together from that of the last ones
(`normalizeOnto_append`), and nodes may be replaced by others of the same normal form wherever they
stand (`Alike`).

* `normalizeOnto_normalizeOnto`: what is in normal form already is joined as it was before;
* `Everywhere.imp`, `Everywhere.and`: what holds of all nodes.
-/

namespace Stencil.Node

/-- Induction on nodes in a row, by the kind of the first one. -/
@[elab_as_elim]
theorem forest_induction {motive : List Node → Prop} (nil : motive [])
    (text : ∀ data raw ns, motive ns → motive (.text data raw :: ns))
    (comment : ∀ data ns, motive ns → motive (.comment data :: ns))
    (element : ∀ tag attrs children void ns, motive children → motive ns →
      motive (.element tag attrs children void :: ns))
    (fragment : ∀ children ns, motive children → motive ns → motive (.fragment children :: ns)) :
    ∀ ns, motive ns
  | [] => nil
  | .text data raw :: ns =>
    text data raw ns (forest_induction nil text comment element fragment ns)
  | .comment data :: ns =>
    comment data ns (forest_induction nil text comment element fragment ns)
  | .element tag attrs children void :: ns =>
    element tag attrs children void ns
      (forest_induction nil text comment element fragment children)
      (forest_induction nil text comment element fragment ns)
  | .fragment children :: ns =>
    fragment children ns (forest_induction nil text comment element fragment children)
      (forest_induction nil text comment element fragment ns)

/-! ### Properties of all nodes -/

mutual

/-- `P` holds of all nodes below a node, each taken with the nodes behind it. -/
def EverywhereBelow (P : Node → List Node → Prop) : Node → Prop
  | element _ _ children _ => Everywhere P children
  | fragment children => Everywhere P children
  | text _ _ => True
  | comment _ => True
termination_by structural n => n

/-- `P` holds of all nodes at and below nodes, each taken with the nodes behind it. -/
def Everywhere (P : Node → List Node → Prop) : List Node → Prop
  | [] => True
  | n :: ns => P n ns ∧ EverywhereBelow P n ∧ Everywhere P ns
termination_by structural ns => ns

end

theorem Everywhere.imp {P Q : Node → List Node → Prop} (h : ∀ n ns, P n ns → Q n ns)
    {ns : List Node} (hns : Everywhere P ns) : Everywhere Q ns := by
  induction ns using forest_induction with
  | nil => trivial
  | text data raw ns ih => exact ⟨h _ _ hns.1, trivial, ih hns.2.2⟩
  | comment data ns ih => exact ⟨h _ _ hns.1, trivial, ih hns.2.2⟩
  | element tag attrs children void ns ihc ih =>
    exact ⟨h _ _ hns.1, ihc hns.2.1, ih hns.2.2⟩
  | fragment children ns ihc ih => exact ⟨h _ _ hns.1, ihc hns.2.1, ih hns.2.2⟩

theorem Everywhere.and {P Q : Node → List Node → Prop} {ns : List Node} (hP : Everywhere P ns)
    (hQ : Everywhere Q ns) : Everywhere (fun n ns => P n ns ∧ Q n ns) ns := by
  induction ns using forest_induction with
  | nil => trivial
  | text data raw ns ih => exact ⟨⟨hP.1, hQ.1⟩, trivial, ih hP.2.2 hQ.2.2⟩
  | comment data ns ih => exact ⟨⟨hP.1, hQ.1⟩, trivial, ih hP.2.2 hQ.2.2⟩
  | element tag attrs children void ns ihc ih =>
    exact ⟨⟨hP.1, hQ.1⟩, ihc hP.2.1 hQ.2.1, ih hP.2.2 hQ.2.2⟩
  | fragment children ns ihc ih =>
    exact ⟨⟨hP.1, hQ.1⟩, ihc hP.2.1 hQ.2.1, ih hP.2.2 hQ.2.2⟩

theorem everywhere_append {P : Node → Prop} {as bs : List Node} :
    Everywhere (fun n _ => P n) (as ++ bs) ↔
      Everywhere (fun n _ => P n) as ∧ Everywhere (fun n _ => P n) bs := by
  induction as with
  | nil => exact ⟨fun h => ⟨trivial, h⟩, fun h => h.2⟩
  | cons a as ih =>
    rw [List.cons_append, Everywhere, Everywhere, ih]
    tauto

theorem everywhere_reverse {P : Node → Prop} {ns : List Node} :
    Everywhere (fun n _ => P n) ns.reverse ↔ Everywhere (fun n _ => P n) ns := by
  induction ns with
  | nil => exact Iff.rfl
  | cons n ns ih =>
    rw [List.reverse_cons, everywhere_append, ih, Everywhere, Everywhere, Everywhere]
    tauto

/-! ### Normal forms -/

/-- A text in front of nodes: it is joined with a text that it stands next to. -/
def consText (data : String) : List Node → List Node
  | .text next false :: rest => .text (data ++ next) false :: rest
  | rest => if data = "" then rest else .text data false :: rest

mutual

/-- A node in normal form, in front of nodes that are in normal form. -/
def normalizeNodeOnto : Node → (rest : List Node) → List Node
  | text data raw, rest => if raw then .text data true :: rest else consText data rest
  | comment data, rest => .comment data :: rest
  | fragment children, rest => normalizeOnto children rest
  | element tag attrs children void, rest =>
    .element tag attrs (normalizeOnto children []) void :: rest
termination_by structural n => n

/-- Nodes in normal form, in front of nodes that are in normal form. -/
def normalizeOnto : List Node → (rest : List Node) → List Node
  | [], rest => rest
  | n :: ns, rest => normalizeNodeOnto n (normalizeOnto ns rest)
termination_by structural ns => ns

end

/-- Nodes in normal form: no fragments, no empty texts, no texts next to each other. -/
def normalize (ns : List Node) : List Node :=
  normalizeOnto ns []

theorem consText_empty (rest : List Node) : consText "" rest = rest := by
  unfold consText
  split
  · rw [String.empty_append]
  · rw [if_pos rfl]

/-- Texts in a row are joined one by one. -/
theorem consText_consText (a b : String) (rest : List Node) :
    consText a (consText b rest) = consText (a ++ b) rest := by
  by_cases hb : b = ""
  · rw [hb, consText_empty, String.append_empty]
  · have hab : a ++ b ≠ "" := fun h => hb (by
      rw [← String.toList_inj, String.toList_append] at h
      exact String.toList_inj.1 (List.append_eq_nil_iff.1 h).2)
    fun_cases consText b rest with
    | case1 next rest => rw [consText, consText, String.append_assoc]
    | case2 => exact absurd ‹b = ""› hb
    | case3 rest h =>
      rw [consText]
      unfold consText
      split
      next next rest => exact absurd rfl (h next rest)
      next => rw [if_neg hab]

theorem normalizeOnto_append (as bs rest : List Node) :
    normalizeOnto (as ++ bs) rest = normalizeOnto as (normalizeOnto bs rest) := by
  induction as with
  | nil => rfl
  | cons a as ih => rw [List.cons_append, normalizeOnto, normalizeOnto, ih]

/-- What stands in front of a text in normal form is joined with the text as it was before. -/
theorem normalizeOnto_consText (data : String) (ns rest : List Node) :
    normalizeOnto (consText data ns) rest = consText data (normalizeOnto ns rest) := by
  fun_cases consText data ns with
  | case1 next ns =>
    simp only [normalizeOnto, normalizeNodeOnto, Bool.false_eq_true, if_false, consText_consText]
  | case2 => rw [‹data = ""›, consText_empty]
  | case3 ns h hdata => simp only [normalizeOnto, normalizeNodeOnto, Bool.false_eq_true, if_false]

/-- What is in normal form already is put in front of other nodes as it was before. -/
theorem normalizeOnto_normalizeOnto (ns ms rest : List Node) :
    normalizeOnto (normalizeOnto ns ms) rest = normalizeOnto ns (normalizeOnto ms rest) := by
  induction ns using forest_induction generalizing ms rest with
  | nil => rfl
  | text data raw ns ih =>
    rw [normalizeOnto, normalizeOnto, normalizeNodeOnto, normalizeNodeOnto]
    split
    · rw [normalizeOnto, ih, normalizeNodeOnto, if_pos rfl]
    · rw [normalizeOnto_consText, ih]
  | comment data ns ih =>
    rw [normalizeOnto, normalizeOnto, normalizeNodeOnto, normalizeNodeOnto, normalizeOnto, ih,
      normalizeNodeOnto]
  | element tag attrs children void ns ihc ih =>
    rw [normalizeOnto, normalizeOnto, normalizeNodeOnto, normalizeNodeOnto, normalizeOnto, ih,
      normalizeNodeOnto, ihc]
    rfl
  | fragment children ns ihc ih =>
    rw [normalizeOnto, normalizeOnto, normalizeNodeOnto, normalizeNodeOnto, ihc, ih]

/-! ### Nodes with the same normal form -/

/-- Nodes have the same normal form wherever they stand. -/
def Alike (as bs : List Node) : Prop :=
  ∀ rest, normalizeOnto as rest = normalizeOnto bs rest

theorem Alike.refl (ns : List Node) : Alike ns ns := fun _ => rfl

theorem Alike.symm {as bs : List Node} (h : Alike as bs) : Alike bs as := fun rest => (h rest).symm

theorem Alike.trans {as bs cs : List Node} (h : Alike as bs) (h' : Alike bs cs) : Alike as cs :=
  fun rest => (h rest).trans (h' rest)

theorem Alike.normalize_eq {as bs : List Node} (h : Alike as bs) : normalize as = normalize bs :=
  h []

theorem alike_normalize (ns : List Node) : Alike (normalize ns) ns :=
  fun rest => normalizeOnto_normalizeOnto ns [] rest

theorem Alike.append {as as' bs bs' : List Node} (ha : Alike as as') (hb : Alike bs bs') :
    Alike (as ++ bs) (as' ++ bs') := by
  intro rest
  rw [normalizeOnto_append, normalizeOnto_append, hb, ha]

theorem alike_fragment {as bs : List Node} (h : Alike as bs) :
    Alike [.fragment as] [.fragment bs] := by
  intro rest
  simp only [normalizeOnto, normalizeNodeOnto]
  exact h rest

theorem alike_element (tag : String) (attrs : Attributes) {as bs : List Node} (h : Alike as bs)
    (void : Bool) : Alike [.element tag attrs as void] [.element tag attrs bs void] := by
  intro rest
  simp only [normalizeOnto, normalizeNodeOnto, h []]

end Stencil.Node
