import Stencil.Directive
import Stencil.Proofs.Expansion.Placeholder
import Stencil.Proofs.Markup.RoundTrip

/-!
# Plain nodes

A node is *plain* if its markup is read back and hides nothing: it is a text that is not raw, a
fragment, or an element with names for its names, other than a script or a style sheet, whose
attributes hold no left angle bracket; the attributes of directives may hold anything.

What an expansion leaves is *settled*: plain nodes without directives, in whose texts no placeholder
begins. The normal form of settled nodes is settled and canonical, so it is read back from its markup.

* `Settled.normalize`, `canonicalAll_normalize`: normal forms of settled nodes;
* `calm_writeAll`: there is no comment in the markup of plain nodes without directives.
-/

namespace Stencil.Node

open Markup

/-- A node is no element with one of the given tags. -/
def Lacks (tags : List String) : Node → Prop
  | element tag _ _ _ => tag ∉ tags
  | _ => True

/-- A node can be read back and hides nothing. -/
def IsPlain : Node → Prop
  | text _ raw => raw = false
  | comment _ => False
  | fragment _ => True
  | element tag attrs children void =>
    isName tag.toList = true ∧ (∀ entry ∈ attrs.entries, isName entry.1.toList = true) ∧
      tag ∉ rawTags ∧ (void = true → children = []) ∧ (tag ∈ voidTags → void = true) ∧
        (tag ∉ Directive.tags → ∀ entry ∈ attrs.entries, '<' ∉ entry.2.toList)

/-- `T` holds of a text, and of the values of the attributes of an element that is no directive. -/
def HasTexts (T : List Char → Prop) : Node → Prop
  | text data _ => T data.toList
  | element tag attrs _ _ => tag ∉ Directive.tags → ∀ entry ∈ attrs.entries, T entry.2.toList
  | _ => True

/-- Plain nodes without directives, in whose texts no placeholder begins. -/
def Settled (ns : List Node) : Prop :=
  Everywhere (fun n _ => n.IsPlain ∧ n.HasTexts Unopened ∧ n.Lacks Directive.tags) ns

theorem HasTexts.imp {T T' : List Char → Prop} (h : ∀ s, T s → T' s) {n : Node}
    (hn : n.HasTexts T) : n.HasTexts T' := by
  cases n with
  | text data raw => exact h _ hn
  | element tag attrs children void => exact fun htag entry hentry => h _ (hn htag entry hentry)
  | comment data => trivial
  | fragment children => trivial

/-- Other children do not matter, if no void element gets any. -/
theorem IsPlain.of_children {tag : String} {attrs : Attributes} {children children' : List Node}
    {void : Bool} (h : (element tag attrs children void).IsPlain)
    (hchildren : children = [] → children' = []) : (element tag attrs children' void).IsPlain := by
  obtain ⟨htag, hattrs, hraw, hvoid, hvoidTag, hlt⟩ := h
  exact ⟨htag, hattrs, hraw, fun hv => hchildren (hvoid hv), hvoidTag, hlt⟩

/-- The attributes of directives may hold anything. -/
theorem hasTexts_of_directive {T : List Char → Prop} {tag : String} (htag : tag ∈ Directive.tags)
    (attrs : Attributes) (children : List Node) (void : Bool) :
    (element tag attrs children void).HasTexts T := fun hnot => absurd htag hnot

theorem Lacks.mono {tags tags' : List String} (h : ∀ tag ∈ tags', tag ∈ tags) {n : Node}
    (hn : n.Lacks tags) : n.Lacks tags' := by
  cases n with
  | element tag attrs children void => exact fun htag => hn (h tag htag)
  | text data raw => trivial
  | comment data => trivial
  | fragment children => trivial

/-! ### Normal forms of settled nodes -/

theorem Settled.consText {data : String} {rest : List Node} (hdata : Unopened data.toList)
    (h : Settled rest) : Settled (consText data rest) := by
  fun_cases Node.consText data rest with
  | case1 next rest =>
    obtain ⟨⟨-, hnext, -⟩, -, hrest⟩ := h
    refine ⟨⟨rfl, ?_, trivial⟩, trivial, hrest⟩
    rw [HasTexts, String.toList_append]
    exact hdata.append hnext
  | case2 => exact h
  | case3 rest => exact ⟨⟨rfl, hdata, trivial⟩, trivial, h⟩

theorem Settled.normalizeOnto {ns rest : List Node} (h : Settled ns) (hrest : Settled rest) :
    Settled (normalizeOnto ns rest) := by
  induction ns using forest_induction generalizing rest with
  | nil => exact hrest
  | text data raw ns ih =>
    obtain ⟨⟨rfl, hdata, -⟩, -, h⟩ := h
    exact (ih h hrest).consText hdata
  | comment data ns ih => exact h.1.1.elim
  | element tag attrs children void ns ihc ih =>
    obtain ⟨⟨⟨htag, hattrs, hraw, hvoid, hvoidTag, hlt⟩, htexts, hlacks⟩, hchildren, h⟩ := h
    refine ⟨⟨⟨htag, hattrs, hraw, ?_, hvoidTag, hlt⟩, htexts, hlacks⟩, ihc hchildren trivial,
      ih h hrest⟩
    rintro hv
    rw [hvoid hv]
    rfl
  | fragment children ns ihc ih => exact ihc h.2.1 (ih h.2.2 hrest)

/-- The normal form of settled nodes is settled. -/
theorem Settled.normalize {ns : List Node} (h : Settled ns) : Settled (normalize ns) :=
  h.normalizeOnto trivial

theorem Settled.append {as bs : List Node} (ha : Settled as) (hb : Settled bs) :
    Settled (as ++ bs) :=
  everywhere_append.2 ⟨ha, hb⟩

theorem Settled.not_hasTag {ns : List Node} (h : Settled ns) {tag : String}
    (htag : tag ∈ Directive.tags) {n : Node} (hn : n ∈ ns) : n.hasTag tag = false := by
  induction ns with
  | nil => exact absurd hn List.not_mem_nil
  | cons m ns ih =>
    rcases List.mem_cons.1 hn with rfl | hn
    · obtain ⟨⟨-, -, hlacks⟩, -, -⟩ := h
      cases n with
      | element t attrs children void =>
        rw [hasTag, beq_eq_false_iff_ne]
        rintro rfl
        exact hlacks htag
      | text data raw => rfl
      | comment data => rfl
      | fragment children => rfl
    · exact ih h.2.2 hn

theorem canonicalAll_consText {raw : String → Prop} {data : String} {rest : List Node}
    (h : CanonicalAll raw rest) : CanonicalAll raw (consText data rest) := by
  fun_cases Node.consText data rest with
  | case1 next rest =>
    obtain ⟨hnext, hjoin, hrest⟩ := h
    refine ⟨?_, hjoin, hrest⟩
    intro hempty
    rw [← String.toList_inj, String.toList_append] at hempty
    exact hnext (String.toList_inj.1 (List.append_eq_nil_iff.1 hempty).2)
  | case2 => exact h
  | case3 rest hrest hdata =>
    refine ⟨hdata, ?_, h⟩
    intro htext
    rw [any_head?_isPlainText_eq_false hrest] at htext
    exact Bool.noConfusion htext

theorem canonicalAll_normalizeOnto {raw : String → Prop} {ns rest : List Node} (h : Settled ns)
    (hrest : CanonicalAll raw rest) : CanonicalAll raw (normalizeOnto ns rest) := by
  induction ns using forest_induction generalizing rest with
  | nil => exact hrest
  | text data isRaw ns ih =>
    obtain ⟨⟨rfl, -, -⟩, -, h⟩ := h
    exact canonicalAll_consText (ih h hrest)
  | comment data ns ih => exact h.1.1.elim
  | element tag attrs children void ns ihc ih =>
    obtain ⟨⟨⟨htag, hattrs, hraw, hvoid, hvoidTag, -⟩, -, -⟩, hchildren, h⟩ := h
    refine ⟨⟨htag, hattrs, ?_, hvoidTag, ?_⟩, fun _ => rfl, ih h hrest⟩
    · intro hv
      rw [hvoid hv]
      rfl
    · rw [if_neg fun hr => hraw hr.2]
      exact ihc hchildren trivial
  | fragment children ns ihc ih => exact ihc h.2.1 (ih h.2.2 hrest)

/-- The normal form of settled nodes is canonical. -/
theorem canonicalAll_normalize {raw : String → Prop} {ns : List Node} (h : Settled ns) :
    CanonicalAll raw (normalize ns) :=
  canonicalAll_normalizeOnto h trivial

theorem Settled.emptyIfVoid {ns : List Node} (h : Settled ns) :
    Everywhere (fun n _ => n.EmptyIfVoid) ns := by
  refine h.imp fun n _ hn => ?_
  cases n with
  | element tag attrs children void => exact hn.1.2.2.2.1
  | text data raw => trivial
  | comment data => trivial
  | fragment children => trivial

/-- What spells settled nodes is read as their normal form. -/
theorem parse_settled {ns : List Node} {written : List Char} (h : Settled ns)
    (hw : SpellsAll ns written) : parse (String.ofList written) = .ok (normalize ns) :=
  parse_spelled (spellsAll_normalize h.emptyIfVoid hw) (canonicalAll_normalize h)

/-! ### Markup without comments -/

/-- No exclamation mark follows a left angle bracket. -/
def Calm (s : List Char) : Prop :=
  Text.cut ['<', '!'] s = none

theorem calm_append {a s : List Char} (ha : '<' ∉ a) (hs : Calm s) : Calm (a ++ s) := by
  induction a with
  | nil => exact hs
  | cons c a ih =>
    rw [List.mem_cons, not_or] at ha
    rw [Calm, List.cons_append, Text.cut, Text.dropLead?, if_neg ha.1]
    have : Text.cut ['<', '!'] (a ++ s) = none := ih ha.2
    simp only [this, Option.map_none]

theorem calm_cons {c : Char} {s : List Char} (hc : c ≠ '!') (hs : Calm (c :: s)) :
    Calm ('<' :: c :: s) := by
  have : Text.cut ['<', '!'] (c :: s) = none := hs
  rw [Calm, Text.cut, Text.dropLead?, if_pos rfl, Text.dropLead?, if_neg hc.symm]
  simp only [this, Option.map_none]

theorem lt_not_mem_writeEntries {entries : List (String × String)}
    (hnames : ∀ entry ∈ entries, isName entry.1.toList = true)
    (hvalues : ∀ entry ∈ entries, '<' ∉ entry.2.toList) : '<' ∉ writeEntries entries := by
  intro hlt
  rw [writeEntries, List.mem_flatMap] at hlt
  obtain ⟨entry, hentry, hlt⟩ := hlt
  have hname : '<' ∉ entry.1.toList := fun h =>
    (nameCharFacts (isNameChar_of_mem (hnames entry hentry) h)).ne.1 rfl
  have hvalue : '<' ∉ escapeAttr entry.2.toList := by
    intro h
    rcases mem_escapeAttr h with ⟨h, -⟩ | h
    · exact hvalues entry hentry h
    · exact absurd h (by decide)
  simp only [writeAttr] at hlt
  split at hlt
  · simp [hname] at hlt
  next heq =>
    rw [← heq] at hlt
    simp [hname, hvalue] at hlt

/-- The markup of plain nodes without directives has no mark of a comment. -/
theorem calm_writeAll {ns : List Node}
    (h : Everywhere (fun n _ => n.IsPlain ∧ n.Lacks Directive.tags) ns) {rest : List Char}
    (hrest : Calm rest) : Calm (writeAll ns ++ rest) := by
  induction ns using forest_induction generalizing rest with
  | nil => exact hrest
  | text data raw ns ih =>
    obtain ⟨⟨rfl, -⟩, -, h⟩ := h
    rw [writeAll, List.append_assoc]
    exact calm_append (lt_not_mem_escape data.toList) (ih h hrest)
  | comment data ns ih => exact h.1.1.elim
  | element tag attrs children void ns ihc ih =>
    obtain ⟨⟨⟨htag, hattrs, -, -, -, hlt⟩, hlacks⟩, hchildren, h⟩ := h
    have hname : '<' ∉ tag.toList := fun hm =>
      (nameCharFacts (isNameChar_of_mem htag hm)).ne.1 rfl
    have hentries := lt_not_mem_writeEntries hattrs (hlt hlacks)
    -- What stands behind the bracket of a tag is the first letter of its name.
    have htagged : ∀ {s : List Char}, Calm s → Calm ('<' :: (tag.toList ++ s)) := by
      intro s hs
      have hs := calm_append hname hs
      obtain ⟨c, t, hct, hc, -, -⟩ := exists_cons_of_isName htag
      rw [hct] at hs ⊢
      exact calm_cons (by rintro rfl; exact absurd hc (by decide)) hs
    rw [writeAll, List.append_assoc, write]
    split
    · have hend : '<' ∉ (if tag ∈ voidTags then ['>'] else ['/', '>']) := by
        split <;> decide
      have := htagged (calm_append hentries (calm_append hend (ih h hrest)))
      simpa [writeTag, writeAttrs, writeEntries] using this
    · have hgt : ∀ {s : List Char}, Calm s → Calm ('>' :: s) := fun hs =>
        calm_append (a := ['>']) (by decide) hs
      have hclose : Calm ('<' :: '/' :: (tag.toList ++ '>' :: (writeAll ns ++ rest))) :=
        calm_cons (by decide) (calm_append (a := ['/']) (by decide)
          (calm_append hname (hgt (ih h hrest))))
      have := htagged (calm_append hentries (hgt (ihc hchildren hclose)))
      simpa [writeTag, writeAttrs, writeEntries] using this
  | fragment children ns ihc ih =>
    rw [writeAll, List.append_assoc, write]
    exact ihc h.2.1 (ih h.2.2 hrest)

/-- A text without the first two characters of the mark of a comment has no comment. -/
theorem stripComments_of_calm {s : List Char} (h : Calm s) : stripComments s = s := by
  refine stripComments_of_no_opener ?_
  induction s with
  | nil => rfl
  | cons c s ih =>
    rw [Calm, Text.cut] at h
    split at h
    next => cases h
    next hlead =>
      have htail : Text.cut ['<', '!'] s = none := by simpa using h
      have hnone : Text.dropLead? commentOpener (c :: s) = none := by
        cases hfull : Text.dropLead? commentOpener (c :: s) with
        | none => rfl
        | some rest =>
          have := Text.append_of_dropLead? hfull
          rw [this] at hlead
          cases hlead
      rw [Text.cut, hnone]
      simp only [ih htail, Option.map_none]

end Stencil.Node
