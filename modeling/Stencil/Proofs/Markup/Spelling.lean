import Stencil.Proofs.Markup.Forest
import Stencil.Proofs.Markup.Tag

/-!
# Spellings of trees

The markup of a tree is one way to spell it. Another way is left by a placeholder that is replaced
by nothing: an attribute with the empty value then keeps its quotes. `Spells` says that a text is one
of these spellings.

* `spellsAll_writeAll`: the markup of nodes spells them;
* `spellsAll_normalize`: what spells nodes spells their normal form, as a text in two nodes is
  escaped like a text in one.
-/

namespace Stencil.Node

open Markup

mutual

/-- A text spells a node. -/
def Spells : Node → (written : List Char) → Prop
  | text data raw, written => written = if raw then data.toList else escape data.toList
  | comment data, written => written = '<' :: '!' :: '-' :: '-' :: (data.toList ++ ['-', '-', '>'])
  | fragment children, written => SpellsAll children written
  | element tag attrs children void, written =>
    ∃ entries, SpellsEntries attrs.entries entries ∧
      if void && children.isEmpty then
        written = '<' :: (tag.toList ++ (entries ++ if tag ∈ voidTags then ['>'] else ['/', '>']))
      else
        ∃ body, SpellsAll children body ∧
          written = '<' :: (tag.toList ++ (entries ++ '>' :: (body ++
            '<' :: '/' :: (tag.toList ++ ['>']))))
termination_by structural n => n

/-- A text spells nodes in a row. -/
def SpellsAll : List Node → (written : List Char) → Prop
  | [], written => written = []
  | n :: ns, written => ∃ a b, written = a ++ b ∧ Spells n a ∧ SpellsAll ns b
termination_by structural ns => ns

end

/-- A void element has no children. -/
def EmptyIfVoid : Node → Prop
  | element _ _ children void => void = true → children = []
  | _ => True

/-- The markup of nodes spells them. -/
theorem spellsAll_writeAll (ns : List Node) : SpellsAll ns (writeAll ns) := by
  induction ns using forest_induction with
  | nil => rfl
  | text data raw ns ih => exact ⟨_, _, by rw [writeAll], by rw [Spells, write], ih⟩
  | comment data ns ih => exact ⟨_, _, by rw [writeAll], by rw [Spells, write]; simp, ih⟩
  | element tag attrs children void ns ihc ih =>
    refine ⟨_, _, by rw [writeAll], ?_, ih⟩
    refine ⟨_, spellsEntries_writeEntries attrs.entries, ?_⟩
    rw [write]
    split
    · simp [writeTag, writeAttrs, writeEntries]
    · exact ⟨_, ihc, by simp [writeTag, writeAttrs, writeEntries]⟩
  | fragment children ns ihc ih =>
    exact ⟨_, _, by rw [writeAll], by rw [Spells, write]; exact ihc, ih⟩

theorem spellsAll_consText {data : String} {ns : List Node} {written : List Char}
    (h : SpellsAll ns written) : SpellsAll (consText data ns) (escape data.toList ++ written) := by
  fun_cases consText data ns with
  | case1 next ns =>
    obtain ⟨_, b, rfl, rfl, hb⟩ := h
    refine ⟨escape (data ++ next).toList, b, ?_, rfl, hb⟩
    simp [escape_append]
  | case2 => simpa [‹data = ""›, escape] using h
  | case3 ns => exact ⟨_, _, rfl, rfl, h⟩

/-- What spells nodes spells their normal form, in front of other nodes. -/
theorem spellsAll_normalizeOnto {ns rest : List Node} {a b : List Char}
    (hns : Everywhere (fun n _ => n.EmptyIfVoid) ns) (ha : SpellsAll ns a)
    (hb : SpellsAll rest b) : SpellsAll (normalizeOnto ns rest) (a ++ b) := by
  induction ns using forest_induction generalizing rest a b with
  | nil =>
    obtain rfl : a = [] := ha
    exact hb
  | text data raw ns ih =>
    obtain ⟨_, a, rfl, rfl, ha⟩ := ha
    rw [normalizeOnto, normalizeNodeOnto, List.append_assoc]
    cases raw with
    | true => exact ⟨_, _, rfl, rfl, ih hns.2.2 ha hb⟩
    | false => exact spellsAll_consText (ih hns.2.2 ha hb)
  | comment data ns ih =>
    obtain ⟨_, a, rfl, rfl, ha⟩ := ha
    rw [normalizeOnto, normalizeNodeOnto, List.append_assoc]
    exact ⟨_, _, rfl, rfl, ih hns.2.2 ha hb⟩
  | element tag attrs children void ns ihc ih =>
    obtain ⟨_, a, rfl, ⟨entries, hentries, h⟩, ha⟩ := ha
    rw [normalizeOnto, normalizeNodeOnto, List.append_assoc]
    refine ⟨_, _, rfl, ⟨entries, hentries, ?_⟩, ih hns.2.2 ha hb⟩
    cases void with
    | true =>
      obtain rfl := hns.1 rfl
      exact h
    | false =>
      obtain ⟨body, hbody, h⟩ := h
      have hnil : SpellsAll [] [] := rfl
      have := ihc hns.2.1 hbody hnil
      rw [List.append_nil] at this
      exact ⟨body, this, h⟩
  | fragment children ns ihc ih =>
    obtain ⟨c, a, rfl, hc, ha⟩ := ha
    rw [normalizeOnto, normalizeNodeOnto, List.append_assoc]
    exact ihc hns.2.1 hc (ih hns.2.2 ha hb)

/-- What spells nodes spells their normal form. -/
theorem spellsAll_normalize {ns : List Node} {written : List Char}
    (hns : Everywhere (fun n _ => n.EmptyIfVoid) ns) (h : SpellsAll ns written) :
    SpellsAll (normalize ns) written := by
  have hnil : SpellsAll [] [] := rfl
  have := spellsAll_normalizeOnto hns h hnil
  rwa [List.append_nil] at this

end Stencil.Node
