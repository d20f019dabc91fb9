import Stencil.Proofs.Expansion.Rendering
import Stencil.Proofs.Markup.Building

/-!
# Markup piece by piece

The markup of nodes is put together of *pieces*: escaped texts, tags with their attributes, and closing
tags. A tag need not match a closing tag here, nor be written for an element that can have children, so
nothing is asked of elements that never close. It is all the same what the pieces are written for:
texts next to each other are read as one, a closing tag without its tag does nothing, and what is read
has only the tags, attributes and texts of the pieces (`parse_pieces`).

* `pieces_writeAll`: the markup of regular nodes without directives;
* `calm_of_pieces`: there are no comments in it;
* `pieces_of_gives_fillText`: filling the placeholders fills the pieces.
-/

namespace Stencil

open Markup

/-! ### Regular nodes -/

namespace Node

/-- A tag is a name, and its body is no script or style sheet. -/
structure IsRegularTag (tag : String) : Prop where
  name : isName tag.toList = true
  not_raw : tag ∉ rawTags

/-- The values of attributes have no left angle bracket, and `T` holds of them. -/
def HasRegularValues (T : List Char → Prop) (attrs : Attributes) : Prop :=
  ∀ entry ∈ attrs.entries, '<' ∉ entry.2.toList ∧ T entry.2.toList

/-- The names of attributes are names. -/
def HasNames (attrs : Attributes) : Prop :=
  ∀ entry ∈ attrs.entries, isName entry.1.toList = true

/-- A node is regular: it is a text that is not raw, a fragment, or an element with names for its
    names, other than a script or a style sheet. `T` holds of its text, or of the values of its
    attributes, which have no left angle bracket; the attributes of directives may hold anything. -/
def IsRegular (T : List Char → Prop) : Node → Prop
  | text data raw => raw = false ∧ T data.toList
  | comment _ => False
  | fragment _ => True
  | element tag attrs _ _ =>
    IsRegularTag tag ∧ HasNames attrs ∧ (tag ∉ Directive.tags → HasRegularValues T attrs)

/-- Regular nodes without the given tags. -/
abbrev AllRegular (T : List Char → Prop) (tags : List String) (ns : List Node) : Prop :=
  Everywhere (fun n _ => n.IsRegular T ∧ n.Lacks tags) ns

theorem HasRegularValues.imp {T T' : List Char → Prop} (h : ∀ s, T s → T' s) {attrs : Attributes}
    (hattrs : HasRegularValues T attrs) : HasRegularValues T' attrs :=
  fun entry hentry => (hattrs entry hentry).imp_right (h _)

theorem AllRegular.imp {T T' : List Char → Prop} {tags tags' : List String} {ns : List Node}
    (hns : AllRegular T tags ns) (h : ∀ s, T s → T' s) (htags : ∀ tag ∈ tags', tag ∈ tags) :
    AllRegular T' tags' ns := by
  refine Everywhere.imp (fun n _ hn => ⟨?_, hn.2.mono htags⟩) hns
  cases n with
  | text data raw => exact hn.1.imp_right (h _)
  | comment data => exact hn.1
  | fragment children => trivial
  | element tag attrs children void =>
    exact ⟨hn.1.1, hn.1.2.1, fun htag => (hn.1.2.2 htag).imp h⟩

end Node

open Node

/-! ### Pieces -/

/-- A text is put together of escaped texts, tags and closing tags. `text` holds of the texts, and
    `attrs` of what is written for attributes. -/
inductive Pieces (text attrs : List Char → Prop) : List Char → Prop
  | nil : Pieces text attrs []
  | text {s t : List Char} : text s → Pieces text attrs t → Pieces text attrs (escape s ++ t)
  | tag {tag : String} {v close t : List Char} : IsRegularTag tag → tag ∉ Directive.tags → attrs v →
      TagClose close → Pieces text attrs t →
      Pieces text attrs ('<' :: (tag.toList ++ (v ++ (close ++ t))))
  | endTag {tag : String} {t : List Char} : IsRegularTag tag → Pieces text attrs t →
      Pieces text attrs ('<' :: '/' :: (tag.toList ++ '>' :: t))

/-- Attributes are written as they are. -/
def WritesAttrs (T : List Char → Prop) (v : List Char) : Prop :=
  ∃ attrs : Attributes, HasNames attrs ∧ HasRegularValues T attrs ∧ v = writeEntries attrs.entries

/-- Attributes are spelled. -/
def SpellsAttrs (T : List Char → Prop) (v : List Char) : Prop :=
  ∃ attrs : Attributes, HasNames attrs ∧ HasRegularValues T attrs ∧ SpellsEntries attrs.entries v

section

variable {T : List Char → Prop}

/-- The markup of regular nodes without directives is put together of pieces. -/
theorem pieces_writeAll {ns : List Node} (h : AllRegular T Directive.tags ns) {rest : List Char}
    (hrest : Pieces T (WritesAttrs T) rest) : Pieces T (WritesAttrs T) (writeAll ns ++ rest) := by
  induction ns using forest_induction generalizing rest with
  | nil => exact hrest
  | text data raw ns ih =>
    obtain ⟨⟨⟨rfl, hdata⟩, -⟩, -, h⟩ := h
    rw [writeAll, List.append_assoc]
    exact .text hdata (ih h hrest)
  | comment data ns ih => exact h.1.1.elim
  | fragment children ns ihc ih =>
    rw [writeAll, List.append_assoc, write]
    exact ihc h.2.1 (ih h.2.2 hrest)
  | element tag attrs children void ns ihc ih =>
    obtain ⟨⟨⟨htag, hnames, hvalues⟩, hlacks⟩, hchildren, h⟩ := h
    have hattrs : WritesAttrs T (writeEntries attrs.entries) := ⟨attrs, hnames, hvalues hlacks, rfl⟩
    rw [writeAll, List.append_assoc]
    by_cases hempty : (void && children.isEmpty) = true
    · have hclose : TagClose (if tag ∈ voidTags then ['>'] else ['/', '>']) := by
        split
        · exact .inl rfl
        · exact .inr rfl
      have := Pieces.tag htag hlacks hattrs hclose (ih h hrest)
      simpa [Expansion.write_element_empty tag attrs hempty] using this
    · have := Pieces.tag htag hlacks hattrs (.inl rfl) (ihc hchildren (.endTag htag (ih h hrest)))
      simpa [Expansion.write_element_body tag attrs hempty] using this

/-! ### No comments -/

theorem lt_not_mem_of_isName {s : List Char} (h : isName s = true) : '<' ∉ s := fun hm =>
  (nameCharFacts (isNameChar_of_mem h hm)).ne.1 rfl

/-- There are no comments in pieces. -/
theorem calm_of_pieces {attrs : List Char → Prop} (hattrs : ∀ v, attrs v → '<' ∉ v) {s : List Char}
    (h : Pieces T attrs s) : Calm s := by
  induction h with
  | nil => rfl
  | text _ _ ih => exact calm_append (lt_not_mem_escape _) ih
  | @tag tag v close t htag _ hv hclose _ ih =>
    have hend : '<' ∉ close := by rcases hclose with rfl | rfl <;> decide
    have hrest := calm_append (lt_not_mem_of_isName htag.name)
      (calm_append (hattrs v hv) (calm_append hend ih))
    -- What stands behind the bracket of a tag is the first letter of its name.
    obtain ⟨c, u, hcu, hc, -, -⟩ := exists_cons_of_isName htag.name
    rw [hcu] at hrest ⊢
    exact calm_cons (by rintro rfl; exact absurd hc (by decide)) hrest
  | @endTag tag t htag _ ih =>
    have hgt : Calm ('>' :: t) := calm_append (a := ['>']) (by decide) ih
    exact calm_cons (by decide) (calm_append (a := ['/']) (by decide)
      (calm_append (lt_not_mem_of_isName htag.name) hgt))

theorem lt_not_mem_of_writesAttrs {v : List Char} (h : WritesAttrs T v) : '<' ∉ v := by
  obtain ⟨attrs, hnames, hvalues, rfl⟩ := h
  exact lt_not_mem_writeEntries hnames fun entry hentry => (hvalues entry hentry).1

end

/-! ### Placeholders -/

section

open Expansion

variable {host : Host} {context : Context}

theorem readyEntries_of_regular (hinert : ∀ s, FillsInert host (.map context) s)
    {attrs : Attributes} (hnames : HasNames attrs) (hvalues : HasRegularValues WellBraced attrs) :
    ReadyEntries host (.map context) attrs.entries := fun entry hentry =>
  ⟨hnames entry hentry, (hvalues entry hentry).2, hinert _⟩

theorem unopened_close {close : List Char} (h : TagClose close) : Unopened close := by
  rcases h with rfl | rfl <;> decide

/-- Pieces whose placeholders end where they begin can be filled. -/
theorem ready_of_pieces (hinert : ∀ s, FillsInert host (.map context) s) {s : List Char}
    (h : Pieces WellBraced (WritesAttrs WellBraced) s) : Ready host (.map context) s := by
  induction h with
  | nil => exact .of_unopened trivial
  | text hs _ ih =>
    have htext : Ready host (.map context) (escape _) :=
      ⟨hs.flatMap escapes_escapeChar, hinert _⟩
    exact htext.append ih
  | @tag tag v close t htag _ hv hclose _ ih =>
    obtain ⟨attrs, hnames, hvalues, rfl⟩ := hv
    have hopen : Ready host (.map context) ('<' :: tag.toList) :=
      .of_unopened (unopened_openTag htag.name)
    exact hopen.append ((ready_writeEntries (readyEntries_of_regular hinert hnames hvalues)).append
      ((Ready.of_unopened (unopened_close hclose)).append ih))
  | @endTag tag t htag _ ih =>
    have hclose : Ready host (.map context) ('<' :: '/' :: (tag.toList ++ ['>'])) :=
      .of_unopened (unopened_closeTag htag.name)
    simpa using hclose.append ih

/-- Attributes keep their names, and their values bring in nothing that could be read otherwise. -/
theorem spellsAttrs_of_filledFrom {attrs attrs' : Attributes} (hnames : HasNames attrs)
    (hvalues : HasRegularValues WellBraced attrs)
    (hfrom : List.Forall₂ (FilledFrom host context) attrs.entries attrs'.entries) {v : List Char}
    (hv : SpellsEntries attrs'.entries v) : SpellsAttrs Unopened v := by
  refine ⟨attrs', fun e he => ?_, fun e he => ?_, hv⟩
  all_goals obtain ⟨entry, hentry, hname, hfilled⟩ := exists_filledFrom hfrom he
  · exact hname ▸ hnames entry hentry
  · exact ⟨fun hmem => (hvalues entry hentry).1 (hfilled.origin _ hmem (by decide)),
      hfilled.unopened⟩

/-- What pieces are filled to is put together of pieces. -/
theorem pieces_of_gives_fillText (hinert : ∀ s, FillsInert host (.map context) s) {s t : List Char}
    (h : Pieces WellBraced (WritesAttrs WellBraced) s)
    (ht : (fillText host (.map context) s).Gives t) : Pieces Unopened (SpellsAttrs Unopened) t := by
  induction h generalizing t with
  | nil =>
    have hempty : Unopened [] := trivial
    rw [fillText_of_unopened hempty, Evaluation.gives_pure] at ht
    exact ht ▸ .nil
  | @text s rest hs hrest ih =>
    have hescaped : WellBraced (escape s) := hs.flatMap escapes_escapeChar
    rw [gives_fillText_append hescaped (ready_of_pieces hinert hrest).wellBraced] at ht
    obtain ⟨a, b, ha, hb, rfl⟩ := ht
    obtain ⟨filled, hfilled, rfl⟩ :=
      escapedFill_of_gives_fillText escapes_escapeChar hs (hinert _) ha
    exact .text hfilled.unopened (ih hb)
  | @tag tag v close rest htag hlacks hv hclose hrest ih =>
    -- Names and brackets are kept, the attributes and what follows are filled one after the other.
    obtain ⟨attrs, hnames, hvalues, rfl⟩ := hv
    have hentries := readyEntries_of_regular hinert hnames hvalues
    have hready := ready_of_pieces hinert hrest
    have hclosed : Ready host (.map context) (close ++ rest) :=
      (Ready.of_unopened (unopened_close hclose)).append hready
    have hopen : '<' :: (tag.toList ++ (writeEntries attrs.entries ++ (close ++ rest))) =
        ('<' :: tag.toList) ++ (writeEntries attrs.entries ++ (close ++ rest)) := rfl
    rw [hopen, gives_fillText_unopened_append (unopened_openTag htag.name)
      ((ready_writeEntries hentries).append hclosed)] at ht
    obtain ⟨b, hb, rfl⟩ := ht
    rw [gives_fillText_append (ready_writeEntries hentries).wellBraced hclosed.wellBraced] at hb
    obtain ⟨v, c, hv, hc, rfl⟩ := hb
    obtain ⟨d, hd, rfl⟩ := (gives_fillText_unopened_append (unopened_close hclose) hready).1 hc
    obtain ⟨attrs', hfrom, hspells⟩ := spellsAttrs_of_gives_fillText hentries hv
    exact .tag htag hlacks (spellsAttrs_of_filledFrom hnames hvalues hfrom hspells) hclose (ih hd)
  | @endTag tag rest htag hrest ih =>
    have hopen : '<' :: '/' :: (tag.toList ++ '>' :: rest) =
        '<' :: '/' :: (tag.toList ++ ['>']) ++ rest := by simp
    rw [hopen, gives_fillText_unopened_append (unopened_closeTag htag.name)
      (ready_of_pieces hinert hrest)] at ht
    obtain ⟨b, hb, rfl⟩ := ht
    have := Pieces.endTag htag (ih hb)
    simpa using this

end

/-! ### Reading -/

/-- An event is that of a piece. -/
def IsPieceEvent (T : List Char → Prop) : Event → Prop
  | .text data => T data.toList
  | .startTag tag entries | .selfClosing tag entries =>
    IsRegularTag tag ∧ tag ∉ Directive.tags ∧
      ∃ attrs : Attributes, HasNames attrs ∧ HasRegularValues T attrs ∧ entries = attrs.entries
  | .endTag _ => True
  | _ => False

section

variable {T : List Char → Prop}

/-- A text that has been read in front of a bracket or of the end. -/
theorem reads_before {a : List Char} (ha : T a) {s : List Char} (hs : AtBracket s)
    {events : List Event} (hevents : ∀ e ∈ events, IsPieceEvent T e)
    (h : Reads none s events none []) :
    ∃ events, (∀ e ∈ events, IsPieceEvent T e) ∧ Reads none (escape a ++ s) events none [] := by
  by_cases hnil : a = []
  · exact ⟨events, hevents, by rwa [hnil]⟩
  · refine ⟨_, ?_, (reads_text hnil hs).trans h⟩
    intro e he
    rcases List.mem_cons.1 he with rfl | he
    · rw [IsPieceEvent, String.toList_ofList]
      exact ha
    · exact hevents e he

/-- Pieces are read as their events. The texts next to each other are gathered until a tag or the end
    comes. -/
theorem reads_pieces (happend : ∀ a b, T a → T b → T (a ++ b)) (hnil : T []) {s : List Char}
    (h : Pieces T (SpellsAttrs T) s) {a : List Char} (ha : T a) :
    ∃ events, (∀ e ∈ events, IsPieceEvent T e) ∧ Reads none (escape a ++ s) events none [] := by
  induction h generalizing a with
  | nil => exact reads_before ha (.inl rfl) (fun e he => absurd he List.not_mem_nil) (.refl none [])
  | @text b t hb _ ih =>
    rw [← List.append_assoc, ← escape_append]
    exact ih (happend a b ha hb)
  | @tag tag v close t htag hlacks hv hclose _ ih =>
    obtain ⟨attrs, hnames, hvalues, hspells⟩ := hv
    obtain ⟨events, hevents, hreads⟩ := ih hnil
    have hname := isTagName_of_isName htag.name
    have hlegible := legibleEntries_of_isName hnames
    rcases hclose with rfl | rfl
    · have htagged := reads_startTag hname hspells hlegible t
      rw [if_neg htag.not_raw] at htagged
      refine reads_before ha (.cons _) ?_ (htagged.trans hreads)
      exact List.forall_mem_cons.2 ⟨⟨htag, hlacks, attrs, hnames, hvalues, rfl⟩, hevents⟩
    · refine reads_before ha (.cons _) ?_ ((reads_selfClosing hname hspells hlegible t).trans hreads)
      exact List.forall_mem_cons.2 ⟨⟨htag, hlacks, attrs, hnames, hvalues, rfl⟩, hevents⟩
  | @endTag tag t htag _ ih =>
    obtain ⟨events, hevents, hreads⟩ := ih hnil
    have hlegible := @isLegible_of_isName tag [] htag.name nofun false
    refine reads_before ha (.cons _) ?_
      ((reads_endTag hlegible.name (hlegible.closing rfl) t).trans hreads)
    exact List.forall_mem_cons.2 ⟨trivial, hevents⟩

end

/-! ### Building -/

/-- The tree that is being built has only regular nodes without directives. -/
structure Sprout.IsRegular (T : List Char → Prop) (b : Sprout) : Prop where
  stack : ∀ e ∈ b.stack, (IsRegularTag e.tag ∧ e.tag ∉ Directive.tags ∧ HasNames e.attrs ∧
    HasRegularValues T e.attrs) ∧ AllRegular T Directive.tags e.children
  roots : AllRegular T Directive.tags b.roots

namespace Sprout.IsRegular

variable {T : List Char → Prop} {b : Sprout}

theorem current (h : b.IsRegular T) : AllRegular T Directive.tags b.current := by
  obtain ⟨_ | ⟨e, stack⟩, roots⟩ := b
  · exact h.roots
  · exact (h.stack e List.mem_cons_self).2

theorem setCurrent (h : b.IsRegular T) {children : List Node}
    (hchildren : AllRegular T Directive.tags children) : (b.setCurrent children).IsRegular T := by
  obtain ⟨_ | ⟨e, stack⟩, roots⟩ := b
  · exact ⟨h.stack, hchildren⟩
  · obtain ⟨he, hstack⟩ := List.forall_mem_cons.1 h.stack
    exact ⟨List.forall_mem_cons.2 ⟨⟨he.1, hchildren⟩, hstack⟩, h.roots⟩

theorem inRaw (h : b.IsRegular T) : b.inRaw = false := by
  obtain ⟨_ | ⟨e, stack⟩, roots⟩ := b
  · rfl
  · exact decide_eq_false (h.stack e List.mem_cons_self).1.1.not_raw

theorem push (h : b.IsRegular T) {n : Node} (hn : n.IsRegular T ∧ n.Lacks Directive.tags)
    (hbelow : EverywhereBelow (fun n _ => n.IsRegular T ∧ n.Lacks Directive.tags) n) :
    (b.push n).IsRegular T :=
  h.setCurrent ⟨hn, hbelow, h.current⟩

/-- A text comes into the innermost open element or joins the text before it. -/
theorem pushText (happend : ∀ a b, T a → T b → T (a ++ b)) (h : b.IsRegular T) {data : String}
    (hdata : T data.toList) : (b.pushText data).IsRegular T := by
  have hcurrent := h.current
  have hpush : (b.push (.text data b.inRaw)).IsRegular T :=
    h.push ⟨⟨h.inRaw, hdata⟩, trivial⟩ trivial
  rw [Sprout.pushText]
  split
  next before raw rest heq =>
    rw [heq] at hcurrent
    obtain ⟨⟨⟨hraw, hbefore⟩, -⟩, -, hrest⟩ := hcurrent
    split_ifs
    · refine h.setCurrent ⟨⟨⟨hraw, ?_⟩, trivial⟩, trivial, hrest⟩
      rw [String.toList_append]
      exact happend _ _ hbefore hdata
    · exact hpush
  · exact hpush

theorem closeOne (h : b.IsRegular T) : b.closeOne.IsRegular T := by
  obtain ⟨_ | ⟨e, stack⟩, roots⟩ := b
  · exact h
  · obtain ⟨⟨⟨htag, hlacks, hnames, hvalues⟩, hchildren⟩, hstack⟩ := List.forall_mem_cons.1 h.stack
    have houter : (Sprout.mk stack roots).IsRegular T := ⟨hstack, h.roots⟩
    exact houter.push ⟨⟨htag, hnames, fun _ => hvalues⟩, hlacks⟩ (everywhere_reverse.2 hchildren)

theorem closeMany (h : b.IsRegular T) (count : Nat) : (b.closeMany count).IsRegular T := by
  induction count generalizing b with
  | zero => exact h
  | succ count ih => exact ih h.closeOne

/-- A further piece. -/
theorem add (happend : ∀ a b, T a → T b → T (a ++ b)) (h : b.IsRegular T) {e : Event}
    (he : IsPieceEvent T e) : (b.add e).IsRegular T := by
  cases e with
  | startTag tag entries =>
    obtain ⟨htag, hlacks, attrs, hnames, hvalues, rfl⟩ := he
    rw [Sprout.add, OrderedMap.ofList_entries]
    split_ifs
    · exact h.push ⟨⟨htag, hnames, fun _ => hvalues⟩, hlacks⟩ trivial
    · exact ⟨List.forall_mem_cons.2 ⟨⟨⟨htag, hlacks, hnames, hvalues⟩, trivial⟩, h.stack⟩, h.roots⟩
  | selfClosing tag entries =>
    obtain ⟨htag, hlacks, attrs, hnames, hvalues, rfl⟩ := he
    rw [Sprout.add, OrderedMap.ofList_entries]
    exact h.push ⟨⟨htag, hnames, fun _ => hvalues⟩, hlacks⟩ trivial
  | endTag tag =>
    rw [Sprout.add, Sprout.close]
    split
    · exact h.closeMany _
    · exact h
  | text data => exact h.pushText happend he
  | _ => exact he.elim

theorem foldl_add (happend : ∀ a b, T a → T b → T (a ++ b)) (h : b.IsRegular T)
    {events : List Event} (hevents : ∀ e ∈ events, IsPieceEvent T e) :
    (events.foldl Sprout.add b).IsRegular T := by
  induction events generalizing b with
  | nil => exact h
  | cons e events ih =>
    obtain ⟨he, hevents⟩ := List.forall_mem_cons.1 hevents
    exact ih (h.add happend he) hevents

end Sprout.IsRegular

/-- What pieces are read as are regular nodes without directives. -/
theorem parse_pieces {T : List Char → Prop} (happend : ∀ a b, T a → T b → T (a ++ b)) (hnil : T [])
    {s : List Char} (h : Pieces T (SpellsAttrs T) s) :
    ∃ ns, parse (String.ofList s) = .ok ns ∧ AllRegular T Directive.tags ns := by
  obtain ⟨events, hevents, hreads⟩ := reads_pieces happend hnil h hnil
  have hstart : Sprout.start.IsRegular T := ⟨fun _ he => absurd he List.not_mem_nil, trivial⟩
  refine ⟨ofEvents events, ?_, ?_⟩
  · have hread : Markup.read s = .ok events := read_of_reads hreads
    rw [parse, String.toList_ofList, hread]
    rfl
  · exact everywhere_reverse.2 ((hstart.foldl_add happend hevents).closeMany _).roots

end Stencil
