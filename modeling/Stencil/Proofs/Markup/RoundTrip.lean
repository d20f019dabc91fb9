import Stencil.Proofs.Markup.Building
import Stencil.Proofs.Markup.Spelling

/-!
# Written trees are read as they were

A tree is *canonical* if it is as a reader would build it: names are names, what cannot have
children has none, the body of a script is one raw text without a closing tag in it, comments do not
hold the mark that ends them, and no text is empty or stands next to another one. Which raw texts
may stand outside of bodies is a parameter.

The markup of a canonical tree is read as the tree itself, provided that its raw texts outside of
bodies stand alone: each is a whole document type, instruction or conditional section
(`parse_markup`). The induction is on the tree; what it carries is that the reader passes over a
spelling of a node, whatever comes behind it, and that the events on the way build the node.

The names in a tree need not be names in the narrower sense for this, as long as every tag is read back
by itself (`IsLegible`). So the tree may be any `Readable` one with its texts apart.

* `reads_spelled`: a spelling of readable nodes in a row is passed over, and builds them;
* `parse_markup`: the markup of a canonical tree is read as the tree;
* `not_parse_markup`: raw texts of other kinds are not read back.
-/

namespace Stencil

open Markup

/-- A raw text that is read as it is outside of scripts and style sheets: a document type, an
    instruction or a conditional section. -/
inductive StandsAlone : String → Prop where
  | doctype {data : List Char} : startsDoctype data = true → '>' ∉ data →
      StandsAlone (String.ofList ('<' :: '!' :: (data ++ ['>'])))
  | instruction {data : List Char} : '>' ∉ data →
      StandsAlone (String.ofList ('<' :: '?' :: (data ++ ['>'])))
  | conditional {data : List Char} : StartsConditional data → ¬HoldsBracket data →
      StandsAlone (String.ofList ('<' :: '!' :: '[' :: (data ++ [']', '>'])))

namespace Node

/-- The body of a script or a style sheet: nothing, or a raw text without its closing tag. -/
def IsBody (tag : String) (children : List Node) : Prop :=
  children = [] ∨ ∃ data, children = [.text data true] ∧ data ≠ "" ∧
    ¬HoldsClosing tag.toList data.toList

mutual

/-- A node is as a reader would build it, where raw texts may stand outside of bodies as `raw`
    says. -/
def Canonical (raw : String → Prop) : Node → Prop
  | .text data isRaw => if isRaw then raw data else data ≠ ""
  | .comment data => ¬HoldsDashes data.toList
  | .element tag attrs children void =>
    isName tag.toList = true ∧ (∀ entry ∈ attrs.entries, isName entry.1.toList = true) ∧
      (void = true → children = []) ∧ (tag ∈ voidTags → void = true) ∧
        if void = false ∧ tag ∈ rawTags then IsBody tag children else CanonicalAll raw children
  | .fragment _ => False
termination_by structural n => n

/-- Nodes in a row are as a reader would build them: no text stands next to another one. -/
def CanonicalAll (raw : String → Prop) : List Node → Prop
  | [] => True
  | n :: ns =>
    Canonical raw n ∧
      (ns.head?.any isPlainText = true → n.isPlainText = false) ∧ CanonicalAll raw ns
termination_by structural ns => ns

end

mutual

/-- A node is of a shape that a reader builds, where raw texts may stand outside of bodies as `raw`
    says, and tags, with their attributes, are as `tagged` says. -/
def Readable (raw : String → Prop) (tagged : String → List (String × String) → (void : Bool) → Prop) :
    Node → Prop
  | .text data isRaw => isRaw = true → raw data
  | .comment data => ¬HoldsDashes data.toList
  | .element tag attrs children void =>
    tagged tag attrs.entries void ∧ (void = true → children = []) ∧ (tag ∈ voidTags → void = true) ∧
      if void = false ∧ tag ∈ rawTags then IsBody tag children else ReadableAll raw tagged children
  | .fragment _ => False
termination_by structural n => n

/-- Nodes in a row are of a shape that a reader builds. -/
def ReadableAll (raw : String → Prop)
    (tagged : String → List (String × String) → (void : Bool) → Prop) : List Node → Prop
  | [] => True
  | n :: ns => Readable raw tagged n ∧ ReadableAll raw tagged ns
termination_by structural ns => ns

end

/-- A text is not empty and stands next to no other one. -/
def StandsApart (n : Node) (ns : List Node) : Prop :=
  n.isPlainText = true → n ≠ .text "" false ∧ ns.head?.any isPlainText = false

/-- A tag, with its attributes, is read back as it is written, and so is its closing tag. -/
structure IsLegible (tag : String) (entries : List (String × String)) (void : Bool) : Prop where
  name : IsTagName tag.toList
  entries : LegibleEntries entries
  closing : void = false → ¬IsPadded tag.toList

theorem standsApart_of_isPlainText {n : Node} (h : n.isPlainText = false) (ns : List Node) :
    StandsApart n ns := fun hplain => Bool.noConfusion (h.symm.trans hplain)

theorem isLegible_of_isName {tag : String} {entries : List (String × String)}
    (htag : isName tag.toList = true) (hattrs : ∀ entry ∈ entries, isName entry.1.toList = true)
    (void : Bool) : IsLegible tag entries void := by
  refine ⟨isTagName_of_isName htag, legibleEntries_of_isName hattrs, fun _ h => h.1 ?_⟩
  rw [List.dropWhile_eq_nil_iff]
  exact fun c hc => (nameCharFacts (isNameChar_of_mem htag (List.mem_of_mem_drop hc))).endTagChar

/-- Canonical nodes are readable, and their texts are apart. -/
theorem readable_of_canonical {raw : String → Prop} {ns : List Node} (h : CanonicalAll raw ns) :
    ReadableAll raw IsLegible ns ∧ Everywhere StandsApart ns := by
  induction ns using forest_induction with
  | nil => exact ⟨trivial, trivial⟩
  | text data isRaw ns ih =>
    obtain ⟨hn, hjoin, hns⟩ := h
    refine ⟨⟨fun hraw => ?_, (ih hns).1⟩, fun hplain => ⟨?_, ?_⟩, trivial, (ih hns).2⟩
    · rwa [Canonical, if_pos hraw] at hn
    · rintro ⟨⟩
      exact hn rfl
    · by_contra hnext
      rw [hjoin (by simpa using hnext)] at hplain
      exact Bool.noConfusion hplain
  | comment data ns ih => exact ⟨⟨h.1, (ih h.2.2).1⟩, nofun, trivial, (ih h.2.2).2⟩
  | element tag attrs children void ns ihc ih =>
    obtain ⟨⟨htag, hattrs, hempty, hvoid, hchildren⟩, -, hns⟩ := h
    have hlegible := isLegible_of_isName htag hattrs void
    by_cases hraw : void = false ∧ tag ∈ rawTags
    · rw [if_pos hraw] at hchildren
      refine ⟨⟨⟨hlegible, hempty, hvoid, ?_⟩, (ih hns).1⟩, nofun, ?_, (ih hns).2⟩
      · rwa [if_pos hraw]
      · obtain rfl | ⟨data, rfl, -, -⟩ := hchildren
        · trivial
        · exact ⟨nofun, trivial, trivial⟩
    · rw [if_neg hraw] at hchildren
      refine ⟨⟨⟨hlegible, hempty, hvoid, ?_⟩, (ih hns).1⟩, nofun, (ihc hchildren).2, (ih hns).2⟩
      rw [if_neg hraw]
      exact (ihc hchildren).1
  | fragment children ns ihc ih => exact h.1.elim

/-- What does not start with a text starts with a bracket. -/
theorem atBracket_of_spells {n : Node} {written : List Char} (hw : Spells n written)
    (hn : Readable StandsAlone IsLegible n) (htext : n.isPlainText = false) (rest : List Char) :
    AtBracket (written ++ rest) := by
  cases n with
  | text data raw =>
    obtain rfl : raw = true := by simpa [isPlainText] using htext
    obtain rfl : written = data.toList := hw
    obtain ⟨-, -⟩ | - | ⟨-, -⟩ := hn rfl <;> rw [String.toList_ofList] <;> exact .cons _
  | comment data =>
    obtain rfl := hw
    exact .cons _
  | element tag attrs children void =>
    obtain ⟨entries, -, hw⟩ := hw
    split at hw
    · rw [hw]
      exact .cons _
    · obtain ⟨body, -, rfl⟩ := hw
      exact .cons _
  | fragment children => exact hn.elim

theorem atBracket_of_spellsAll {ns : List Node} {written : List Char} (hw : SpellsAll ns written)
    (hns : ReadableAll StandsAlone IsLegible ns) (htext : ns.head?.any isPlainText = false)
    {rest : List Char} (hrest : AtBracket rest) : AtBracket (written ++ rest) := by
  cases ns with
  | nil =>
    obtain rfl : written = [] := hw
    exact hrest
  | cons n ns =>
    obtain ⟨a, b, rfl, ha, -⟩ := hw
    rw [List.append_assoc]
    exact atBracket_of_spells ha hns.1 htext _

theorem flatten_eq_nil {texts : List (List Char)} (h : ∀ t ∈ texts, t ≠ [])
    (hflat : texts.flatten = []) : texts = [] := by
  cases texts with
  | nil => rfl
  | cons t texts =>
    rw [List.flatten_cons, List.append_eq_nil_iff] at hflat
    exact absurd hflat.1 (h t List.mem_cons_self)

theorem isName_of_mem_rawTags {tag : String} (h : tag ∈ rawTags) : isName tag.toList = true := by
  simp only [rawTags, List.mem_cons, List.not_mem_nil, or_false] at h
  rcases h with rfl | rfl <;> decide

/-- The body of a script is passed over up to its closing tag, and builds its text. -/
theorem reads_rawElement {tag : String} {attrs : Attributes} {children : List Node}
    {entries body : List Char} (htag : IsTagName tag.toList)
    (hentries : SpellsEntries attrs.entries entries) (hattrs : LegibleEntries attrs.entries)
    (hvoid : tag ∉ voidTags) (hraw : tag ∈ rawTags) (hbody : IsBody tag children)
    (hspelled : SpellsAll children body) (rest : List Char) :
    ∃ events, Reads none ('<' :: (tag.toList ++ (entries ++ '>' :: (body ++
        '<' :: '/' :: (tag.toList ++ '>' :: rest))))) events none rest ∧
      Builds events [.element tag attrs children false] := by
  -- Without its closing tag the body is read to the end, in one or more pieces: whatever is taken for
  -- a closing tag at first is a piece of its own.
  have hclosing : ¬HoldsClosing tag.toList body := by
    obtain rfl | ⟨data, rfl, -, h⟩ := hbody
    · obtain rfl : body = [] := hspelled
      rintro ⟨before, blanks, name, blanks', after, h, -⟩
      exact List.cons_ne_nil _ _ (List.append_eq_nil_iff.1 h.symm).2
    · obtain ⟨_, _, rfl, rfl, rfl⟩ := hspelled
      simpa using h
  obtain ⟨texts, htexts, hflat, hreads⟩ := reads_body (isName_of_mem_rawTags hraw) rest body hclosing
  have hopen := reads_startTag htag hentries hattrs
    (body ++ '<' :: '/' :: (tag.toList ++ '>' :: rest))
  rw [if_pos hraw] at hopen
  refine ⟨_, hopen.trans hreads, ?_⟩
  have hbuilds := builds_rawElement attrs hvoid hraw texts
  have hchildren :
      children = if texts = [] then [] else [.text (String.ofList texts.flatten) true] := by
    obtain rfl | ⟨data, rfl, hdata, -⟩ := hbody
    · obtain rfl : body = [] := hspelled
      rw [if_pos (flatten_eq_nil htexts hflat)]
    · obtain ⟨_, _, rfl, rfl, rfl⟩ := hspelled
      rw [hflat, if_neg]
      · simp
      · rintro rfl
        exact hdata (String.toList_inj.1 (by simpa using hflat.symm))
  rw [← hchildren] at hbuilds
  exact hbuilds

/-- An escaped text is passed over up to the bracket that follows it. -/
theorem reads_plainText {data : String} (hne : data ≠ "") {rest : List Char}
    (hrest : AtBracket rest) :
    ∃ events, Reads none (escape data.toList ++ rest) events none rest ∧
      Builds events [.text data false] := by
  have hdata : data.toList ≠ [] := fun h => hne (String.toList_inj.1 h)
  refine ⟨_, reads_text hdata hrest, ?_⟩
  rw [String.ofList_toList]
  exact builds_text data

/-- A raw text that stands alone is passed over as one event. -/
theorem reads_standsAlone {data : String} (h : StandsAlone data) (rest : List Char) :
    ∃ events, Reads none (data.toList ++ rest) events none rest ∧
      Builds events [.text data true] := by
  cases h with
  | @doctype data hdoctype hgt =>
    refine ⟨_, by simpa using reads_doctype hdoctype hgt rest, ?_⟩
    have := builds_declaration (String.ofList data)
    rwa [declaration_eq, String.toList_ofList] at this
  | @instruction data hgt =>
    refine ⟨_, by simpa using reads_instruction hgt rest, ?_⟩
    have := builds_instruction (String.ofList data)
    rwa [instruction_eq, String.toList_ofList] at this
  | @conditional data hname hbracket =>
    refine ⟨_, by simpa using reads_conditional hname hbracket rest, ?_⟩
    have := builds_marked (String.ofList data)
    rwa [marked_eq, String.toList_ofList] at this

/-- A void tag is written as a start tag, any other element without a closing tag as a tag that closes
    itself. -/
theorem reads_voidElement {tag : String} {attrs : Attributes} {entries : List Char}
    (htag : IsTagName tag.toList) (hentries : SpellsEntries attrs.entries entries)
    (hattrs : LegibleEntries attrs.entries) (rest : List Char) :
    ∃ events, Reads none (('<' :: (tag.toList ++
        (entries ++ if tag ∈ voidTags then ['>'] else ['/', '>']))) ++ rest) events none rest ∧
      Builds events [.element tag attrs [] true] := by
  by_cases hvoid : tag ∈ voidTags
  · have hraw : tag ∉ rawTags := by
      revert hvoid
      simp only [voidTags, rawTags, List.mem_cons, List.not_mem_nil, or_false]
      rintro h (rfl | rfl) <;> simp at h
    have hopen := reads_startTag htag hentries hattrs rest
    rw [if_neg hraw] at hopen
    exact ⟨_, by simpa [if_pos hvoid] using hopen, builds_voidTag hvoid⟩
  · exact ⟨_, by simpa [if_neg hvoid] using reads_selfClosing htag hentries hattrs rest,
      builds_selfClosing⟩

mutual

/-- A spelling of a readable node is passed over, and builds the node. -/
theorem reads_spelledNode {n : Node} {written : List Char} (hw : Spells n written)
    (hn : Readable StandsAlone IsLegible n) (hne : n ≠ .text "" false)
    (hbelow : EverywhereBelow StandsApart n) (rest : List Char)
    (hrest : n.isPlainText = true → AtBracket rest) :
    ∃ events, Reads none (written ++ rest) events none rest ∧ Builds events [n] := by
  match n with
  | .text data false =>
    obtain rfl : written = escape data.toList := hw
    exact reads_plainText (fun h => hne (h ▸ rfl)) (hrest rfl)
  | .text data true =>
    obtain rfl : written = data.toList := hw
    exact reads_standsAlone (hn rfl) rest
  | .comment data =>
    obtain rfl := hw
    refine ⟨[.comment data], ?_, builds_comment data⟩
    have := reads_comment hn rest
    rw [String.ofList_toList] at this
    simpa using this
  | .element tag attrs children true =>
    obtain ⟨⟨htag, hattrs, -⟩, hchildren, -, -⟩ := hn
    obtain rfl := hchildren rfl
    obtain ⟨entries, hentries, hw⟩ := hw
    obtain rfl : written = '<' :: (tag.toList ++
      (entries ++ if tag ∈ voidTags then ['>'] else ['/', '>'])) := hw
    exact reads_voidElement htag hentries hattrs rest
  | .element tag attrs children false =>
    obtain ⟨⟨htag, hattrs, hclosing⟩, -, hvoid, hchildren⟩ := hn
    have hvoid : tag ∉ voidTags := fun h => Bool.noConfusion (hvoid h)
    obtain ⟨entries, hentries, body, hbody, rfl⟩ := hw
    have happend : '<' :: (tag.toList ++ (entries ++ '>' :: (body ++
        '<' :: '/' :: (tag.toList ++ ['>'])))) ++ rest =
        '<' :: (tag.toList ++ (entries ++ '>' :: (body ++
          '<' :: '/' :: (tag.toList ++ '>' :: rest)))) := by
      simp
    rw [happend]
    by_cases hraw : tag ∈ rawTags
    · rw [if_pos ⟨rfl, hraw⟩] at hchildren
      exact reads_rawElement htag hentries hattrs hvoid hraw hchildren hbody rest
    · rw [if_neg fun h => hraw h.2] at hchildren
      obtain ⟨events, hreads, hbuilds⟩ := reads_spelled hbody hchildren hbelow (.cons _)
      have hopen := reads_startTag htag hentries hattrs
        (body ++ '<' :: '/' :: (tag.toList ++ '>' :: rest))
      rw [if_neg hraw] at hopen
      exact ⟨_, hopen.trans (hreads.trans (reads_endTag htag (hclosing rfl) rest)),
        builds_element hvoid hraw hbuilds⟩
  | .fragment children => exact hn.elim
termination_by structural n

/-- A spelling of readable nodes in a row is passed over, and builds the nodes. -/
theorem reads_spelled {ns : List Node} {written : List Char} (hw : SpellsAll ns written)
    (hns : ReadableAll StandsAlone IsLegible ns) (hapart : Everywhere StandsApart ns)
    {rest : List Char} (hrest : AtBracket rest) :
    ∃ events, Reads none (written ++ rest) events none rest ∧ Builds events ns := by
  match ns with
  | [] =>
    obtain rfl : written = [] := hw
    exact ⟨[], .refl none rest, builds_nil⟩
  | n :: ns =>
    obtain ⟨a, b, rfl, ha, hb⟩ := hw
    obtain ⟨hn, hns⟩ := hns
    obtain ⟨htext, hbelow, hapart⟩ := hapart
    have hne : n ≠ .text "" false := by
      rintro rfl
      exact (htext rfl).1 rfl
    -- What follows a text is no text, so its markup starts with a bracket, where the text ends.
    have hnext : n.isPlainText = true → AtBracket (b ++ rest) := fun hplain =>
      atBracket_of_spellsAll hb hns (htext hplain).2 hrest
    have hjoin : ns.head?.any isPlainText = true → n.isPlainText = false := by
      intro hplain
      by_contra hn
      rw [(htext (by simpa using hn)).2] at hplain
      exact Bool.noConfusion hplain
    obtain ⟨events, hreads, hbuilds⟩ := reads_spelledNode ha hn hne hbelow (b ++ rest) hnext
    obtain ⟨events', hreads', hbuilds'⟩ := reads_spelled hb hns hapart hrest
    rw [List.append_assoc]
    exact ⟨_, hreads.trans hreads', hbuilds.append hbuilds' (List.cons_ne_nil n []) hjoin⟩
termination_by structural ns

end

/-- A spelling of readable nodes is read as the nodes. -/
theorem parse_of_readable {ns : List Node} {written : List Char} (hw : SpellsAll ns written)
    (h : ReadableAll StandsAlone IsLegible ns) (hapart : Everywhere StandsApart ns) :
    parse (String.ofList written) = .ok ns := by
  obtain ⟨events, hreads, hbuilds⟩ := reads_spelled hw h hapart (.inl rfl)
  rw [List.append_nil] at hreads
  rw [parse, String.toList_ofList, read_of_reads hreads]
  exact congrArg Except.ok (ofEvents_of_builds hbuilds)

/-- A spelling of canonical nodes is read as the nodes. -/
theorem parse_spelled {ns : List Node} {written : List Char} (hw : SpellsAll ns written)
    (h : CanonicalAll StandsAlone ns) : parse (String.ofList written) = .ok ns :=
  parse_of_readable hw (readable_of_canonical h).1 (readable_of_canonical h).2

/-- The markup of a canonical tree whose raw texts outside of bodies stand alone is read as the
    tree. -/
theorem parse_markup {ns : List Node} (h : CanonicalAll StandsAlone ns) :
    parse (fragment ns).markup = .ok ns := by
  rw [markup, write_fragment]
  exact parse_spelled (spellsAll_writeAll ns) h

/-- A document with a type, an attribute that needs its escapes, a void element and a script. -/
theorem parse_markup_document :
    parse (fragment [.text "<!DOCTYPE html>" true, .comment "a",
      .element "p" (.ofList [("title", "\"&"), ("hidden", "")])
        [.text "x < y" false, .element "br" .empty [] true] false,
      .element "script" .empty [.text "if (a < b) f();" true] false]).markup =
      .ok [.text "<!DOCTYPE html>" true, .comment "a",
        .element "p" (.ofList [("title", "\"&"), ("hidden", "")])
          [.text "x < y" false, .element "br" .empty [] true] false,
        .element "script" .empty [.text "if (a < b) f();" true] false] := by
  refine parse_markup ⟨?_, by decide, ?_, by decide, ?_, by decide, ?_, by decide, trivial⟩
  · exact @StandsAlone.doctype "DOCTYPE html".toList (by decide) (by decide)
  · rintro ⟨before, blanks, after, h, -⟩
    exact absurd (h ▸ by simp : '>' ∈ "a".toList) (by decide)
  · refine ⟨by decide, by decide, by decide, by decide, ?_⟩
    rw [if_neg (by decide)]
    refine ⟨by simp [Canonical], by decide, ?_, by decide, trivial⟩
    refine ⟨by decide, by decide, by decide, by decide, ?_⟩
    rw [if_neg (by decide)]
    exact trivial
  · refine ⟨by decide, by decide, by decide, by decide, ?_⟩
    rw [if_pos (by decide)]
    refine .inr ⟨_, rfl, by decide, ?_⟩
    rintro ⟨before, blanks, name, blanks', after, h, -⟩
    exact absurd (h ▸ by simp : '>' ∈ "if (a < b) f();".toList) (by decide)

/-- A raw text of any other kind is not read as raw. -/
theorem not_parse_markup : ¬∀ ns : List Node, CanonicalAll (fun _ => True) ns →
    parse (fragment ns).markup = .ok ns := by
  intro h
  have hparse := h [.text "abc" true] ⟨by simp [Canonical], by decide, trivial⟩
  have hread : parse (fragment [.text "abc" true]).markup = .ok [.text "abc" false] := rfl
  rw [hread] at hparse
  simp at hparse

end Node

end Stencil
