import Mathlib.Data.List.Chain
import Stencil.Proofs.Markup.Built

/-!
# Markup that was read is read back

A text is read as nodes, and what is written of them is read again. It is read as the same nodes, empty
texts apart, and so it is written as it was (`parse_markup_of_parse`). The nodes are such that readers
build, which alone does not suffice: there are three kinds of nodes whose markup is read as something
else, and all others last (`Lasts`).

* A section that ends with two brackets is written with one bracket at its end.
* An attribute without a value is written as its name, and if the name of the next one starts with an
  equals sign, this is taken for its value.
* The name of a tag may have blanks at its end that do not end the name of an opening tag. They end that
  of a closing tag.

The proof goes over the normal form of the nodes: it is readable, its texts stand apart, and it is
written as the nodes are.
-/

namespace Stencil.Node

open Markup

/-! ### Normal forms -/

theorem readableAll_consText {raw : String → Prop}
    {tagged : String → List (String × String) → (void : Bool) → Prop} {ns : List Node}
    (h : ReadableAll raw tagged ns) (data : String) : ReadableAll raw tagged (consText data ns) := by
  fun_cases consText data ns with
  | case1 next ns => exact ⟨readable_text _, h.2⟩
  | case2 => exact h
  | case3 => exact ⟨readable_text data, h⟩

/-- Normal forms are readable as the nodes are. -/
theorem readableAll_normalizeOnto {raw : String → Prop}
    {tagged : String → List (String × String) → (void : Bool) → Prop} {ns rest : List Node}
    (h : ReadableAll raw tagged ns) (hrest : ReadableAll raw tagged rest) :
    ReadableAll raw tagged (normalizeOnto ns rest) := by
  induction ns using forest_induction generalizing rest with
  | nil => exact hrest
  | text data isRaw ns ih =>
    cases isRaw with
    | true => exact ⟨h.1, ih h.2 hrest⟩
    | false => exact readableAll_consText (ih h.2 hrest) data
  | comment data ns ih => exact ⟨h.1, ih h.2 hrest⟩
  | element tag attrs children void ns ihc ih =>
    obtain ⟨⟨htagged, hempty, hvoid, hchildren⟩, h⟩ := h
    refine ⟨⟨htagged, fun hv => ?_, hvoid, ?_⟩, ih h hrest⟩
    · rw [hempty hv]
      rfl
    · by_cases hraw : void = false ∧ tag ∈ rawTags
      · rw [if_pos hraw] at hchildren ⊢
        obtain rfl | ⟨data, rfl, hdata⟩ := hchildren
        · exact .inl rfl
        · exact .inr ⟨data, rfl, hdata⟩
      · rw [if_neg hraw] at hchildren ⊢
        exact ihc hchildren trivial
  | fragment children ns ihc ih => exact h.1.elim

theorem standsApart_consText {data : String} {ns : List Node} (h : Everywhere StandsApart ns) :
    Everywhere StandsApart (consText data ns) := by
  fun_cases consText data ns with
  | case1 next ns =>
    obtain ⟨htext, -, hns⟩ := h
    refine ⟨fun _ => ⟨fun heq => (htext rfl).1 ?_, (htext rfl).2⟩, trivial, hns⟩
    simp only [text.injEq, and_true] at heq
    rw [← String.toList_inj, String.toList_append] at heq
    have hnext : next = "" := String.toList_inj.1 (List.append_eq_nil_iff.1 heq).2
    rw [hnext]
  | case2 => exact h
  | case3 ns hns hdata =>
    exact ⟨fun _ => ⟨by simpa using hdata, any_head?_isPlainText_eq_false hns⟩, trivial, h⟩

/-- In normal forms no text is empty or stands next to another one. -/
theorem standsApart_normalizeOnto {ns rest : List Node} (hrest : Everywhere StandsApart rest) :
    Everywhere StandsApart (normalizeOnto ns rest) := by
  induction ns using forest_induction generalizing rest with
  | nil => exact hrest
  | text data isRaw ns ih =>
    cases isRaw with
    | true => exact ⟨standsApart_of_isPlainText rfl _, trivial, ih hrest⟩
    | false => exact standsApart_consText (ih hrest)
  | comment data ns ih => exact ⟨standsApart_of_isPlainText rfl _, trivial, ih hrest⟩
  | element tag attrs children void ns ihc ih =>
    exact ⟨standsApart_of_isPlainText rfl _, ihc trivial, ih hrest⟩
  | fragment children ns ihc ih => exact ihc (ih hrest)

theorem writeAll_consText (data : String) (ns : List Node) :
    writeAll (consText data ns) = escape data.toList ++ writeAll ns := by
  fun_cases consText data ns with
  | case1 next ns => simp [writeAll, write, escape_append]
  | case2 => simp [‹data = ""›, escape]
  | case3 ns => simp [writeAll, write]

/-- Normal forms are written as the nodes are. -/
theorem writeAll_normalizeOnto {ns : List Node} (h : Everywhere (fun n _ => n.EmptyIfVoid) ns)
    (rest : List Node) : writeAll (normalizeOnto ns rest) = writeAll ns ++ writeAll rest := by
  induction ns using forest_induction generalizing rest with
  | nil => rfl
  | text data isRaw ns ih =>
    rw [normalizeOnto, normalizeNodeOnto, writeAll, List.append_assoc, ← ih h.2.2]
    cases isRaw with
    | true => rfl
    | false => exact writeAll_consText data _
  | comment data ns ih =>
    rw [normalizeOnto, normalizeNodeOnto, writeAll, writeAll, ih h.2.2, List.append_assoc]
  | element tag attrs children void ns ihc ih =>
    rw [normalizeOnto, normalizeNodeOnto, writeAll, writeAll, ih h.2.2, List.append_assoc]
    refine congrArg (· ++ (writeAll ns ++ writeAll rest)) ?_
    cases void with
    | true =>
      obtain rfl := h.1 rfl
      rfl
    | false =>
      rw [write, write, ihc h.2.1, writeAll, List.append_nil]
      rfl
  | fragment children ns ihc ih =>
    rw [normalizeOnto, normalizeNodeOnto, writeAll, ihc h.2.1, ih h.2.2, List.append_assoc, write]

/-! ### Nodes that last -/

/-- A raw text is a section whose end is not written as it was read. -/
def IsSection (data : String) : Prop :=
  ∃ s, data.toList = '<' :: '!' :: '[' :: s ∧ StartsSection s

/-- The name of the next attribute is not taken for the value of an attribute. -/
def KeepsValue (entry next : String × String) : Prop :=
  entry.2 = "" → next.1.toList.head? ≠ some '='

instance : DecidableRel KeepsValue := fun entry next =>
  inferInstanceAs (Decidable (entry.2 = "" → next.1.toList.head? ≠ some '='))

mutual

/-- A node is read back as it is written. -/
def Lasts : Node → Prop
  | text data raw => raw = true → ¬IsSection data
  | comment _ => True
  | element tag attrs children void =>
    attrs.entries.IsChain KeepsValue ∧ (void = false → ¬IsPadded tag.toList) ∧
      (tag ∈ rawTags ∨ LastsAll children)
  | fragment children => LastsAll children
termination_by structural n => n

/-- Nodes in a row are read back as they are written. -/
def LastsAll : List Node → Prop
  | [] => True
  | n :: ns => Lasts n ∧ LastsAll ns
termination_by structural ns => ns

end

theorem standsAlone_of_declared {data : String} (h : Declared data) (hsection : ¬IsSection data) :
    StandsAlone data := by
  cases h with
  | standsAlone h => exact h
  | @bracketed data hname =>
    refine absurd ⟨data ++ [']', '>'], String.toList_ofList, ?_⟩ hsection
    rwa [StartsSection, takeWhile_of_bracket]

theorem legibleEntries_of_isChain {entries : List (String × String)}
    (hnames : ∀ entry ∈ entries, IsAttributeName entry.1.toList)
    (h : entries.IsChain KeepsValue) : LegibleEntries entries := by
  induction entries with
  | nil => trivial
  | cons entry entries ih =>
    obtain ⟨hname, hnames⟩ := List.forall_mem_cons.1 hnames
    obtain ⟨hnext, hentries⟩ := List.isChain_cons.1 h
    exact ⟨hname, fun hvalue next hmem => hnext next hmem (String.toList_inj.1 hvalue),
      ih hnames hentries⟩

/-- Nodes that readers build and that last are legible. -/
theorem readableAll_of_lasts {ns : List Node} (h : ∀ n ∈ ns, n.IsRead) (hlasts : LastsAll ns) :
    ReadableAll StandsAlone IsLegible ns := by
  replace h := readableAll_iff.2 h
  induction ns using forest_induction with
  | nil => trivial
  | text data raw ns ih =>
    exact ⟨fun hraw => standsAlone_of_declared (h.1 hraw) (hlasts.1 hraw), ih hlasts.2 h.2⟩
  | comment data ns ih => exact ⟨h.1, ih hlasts.2 h.2⟩
  | element tag attrs children void ns ihc ih =>
    obtain ⟨⟨hnamed, hempty, hvoid, hchildren⟩, h⟩ := h
    obtain ⟨⟨hchain, hpadded, hlast⟩, hlasts⟩ := hlasts
    refine ⟨⟨⟨hnamed.tag, legibleEntries_of_isChain hnamed.entries hchain, hpadded⟩, hempty, hvoid,
      ?_⟩, ih hlasts h⟩
    by_cases hraw : void = false ∧ tag ∈ rawTags
    · rwa [if_pos hraw] at hchildren ⊢
    · rw [if_neg hraw] at hchildren ⊢
      rcases hlast with hmem | hlast
      · -- A tag of this name that is no script closes itself.
        obtain rfl := hempty (by simpa [hmem] using hraw)
        trivial
      · exact ihc hlast hchildren
  | fragment children ns ihc ih => exact h.1.elim

theorem emptyIfVoid_of_readable {raw : String → Prop}
    {tagged : String → List (String × String) → (void : Bool) → Prop} {ns : List Node}
    (h : ReadableAll raw tagged ns) : Everywhere (fun n _ => n.EmptyIfVoid) ns := by
  induction ns using forest_induction with
  | nil => trivial
  | text data isRaw ns ih => exact ⟨trivial, trivial, ih h.2⟩
  | comment data ns ih => exact ⟨trivial, trivial, ih h.2⟩
  | element tag attrs children void ns ihc ih =>
    obtain ⟨⟨-, hempty, -, hchildren⟩, h⟩ := h
    refine ⟨hempty, ?_, ih h⟩
    by_cases hraw : void = false ∧ tag ∈ rawTags
    · rw [if_pos hraw] at hchildren
      obtain rfl | ⟨data, rfl, -⟩ := hchildren
      · trivial
      · exact ⟨trivial, trivial, trivial⟩
    · rw [if_neg hraw] at hchildren
      exact ihc hchildren
  | fragment children ns ihc ih => exact h.1.elim

/-- What is written of nodes that were read from a text is read as the same nodes, empty texts apart,
    and these are written as it was. -/
theorem parse_markup_of_parse {text : String} {ns : List Node} (h : parse text = .ok ns)
    (hlasts : LastsAll ns) : parse (fragment ns).markup = .ok (normalize ns) ∧
      (fragment (normalize ns)).markup = (fragment ns).markup := by
  have hreadable := readableAll_of_lasts (isRead_of_parse h) hlasts
  have hempty := emptyIfVoid_of_readable hreadable
  have hwritten : writeAll (normalize ns) = writeAll ns := by
    rw [normalize, writeAll_normalizeOnto hempty, writeAll, List.append_nil]
  constructor
  · rw [markup, write_fragment]
    exact parse_of_readable (spellsAll_normalize hempty (spellsAll_writeAll ns))
      (readableAll_normalizeOnto hreadable trivial) (standsApart_normalizeOnto trivial)
  · rw [markup, markup, write_fragment, write_fragment, hwritten]

/-- A comment, a tag that is never closed, a tag that closes itself, and a script that looks like a
    section. -/
theorem parse_markup_of_parse_document :
    parse (fragment [.comment "a", .element "p" (.ofList [("title", "b"), ("hidden", "")])
      [.text "c" false, .element "br" .empty [] true,
        .element "script" .empty [.text "<![CDATA[d" true] false] false]).markup =
      .ok (normalize [.comment "a", .element "p" (.ofList [("title", "b"), ("hidden", "")])
        [.text "c" false, .element "br" .empty [] true,
          .element "script" .empty [.text "<![CDATA[d" true] false] false]) ∧
    (fragment (normalize [.comment "a", .element "p" (.ofList [("title", "b"), ("hidden", "")])
      [.text "c" false, .element "br" .empty [] true,
        .element "script" .empty [.text "<![CDATA[d" true] false] false])).markup =
      (fragment [.comment "a", .element "p" (.ofList [("title", "b"), ("hidden", "")])
        [.text "c" false, .element "br" .empty [] true,
          .element "script" .empty [.text "<![CDATA[d" true] false] false]).markup := by
  have hread : parse "<!--a--><P title=b hidden>c<br><script><![CDATA[d</script>" =
      .ok [.comment "a", .element "p" (.ofList [("title", "b"), ("hidden", "")])
        [.text "c" false, .element "br" .empty [] true,
          .element "script" .empty [.text "<![CDATA[d" true] false] false] := rfl
  refine parse_markup_of_parse hread ⟨trivial, ⟨by decide, fun _ => by decide, .inr ?_⟩, trivial⟩
  exact ⟨nofun, ⟨by decide, nofun, .inr trivial⟩, ⟨by decide, fun _ => by decide, .inl (by decide)⟩,
    trivial⟩

/-- A section of character data is not read back: what is written of it has no end. -/
theorem not_parse_markup_of_parse : ¬∀ (text : String) (ns : List Node), parse text = .ok ns →
    ∃ ms, parse (fragment ns).markup = .ok ms ∧ (fragment ms).markup = (fragment ns).markup := by
  intro h
  have hread : parse "<![CDATA[a]]>" = .ok [.text "<![CDATA[a]>" true] := rfl
  have hwritten : parse (fragment [.text "<![CDATA[a]>" true]).markup =
      .ok [.text "<![CDATA[a]>" false] := rfl
  obtain ⟨ms, hms, hmarkup⟩ := h _ _ hread
  obtain rfl := Except.ok.inj (hwritten.symm.trans hms)
  exact absurd hmarkup (by decide)

end Stencil.Node
