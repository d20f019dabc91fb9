import Stencil.Proofs.Expansion.Inserts

/-!
# Nodes filled through their markup

The last pass fills the placeholders in the markup of the nodes. Without directives, the text that it
leaves spells settled nodes (`spellsAllFilled_of_gives_fillText`): the markup of a node is made of
names, in which no placeholder begins, and of its escaped texts, in which the placeholders end that
begin there. These nodes are what the nodes themselves are filled to, if no escape changes a path. An
attribute whose value becomes empty keeps its quotes, so the text need not be the markup that they
would have.

* `parse_of_gives_interpolate`: what the last pass reads is settled, and in normal form.
-/

namespace Stencil.Expansion

open Markup Node

variable {host : Host} {context : Context}

/-! ### Texts that can be filled -/

/-- The placeholders that begin in a text end in it, and what they are filled with is inert. -/
structure Ready (host : Host) (data : Value) (s : List Char) : Prop where
  wellBraced : WellBraced s
  inert : FillsInert host data s

/-- The markup of a node without directives can be filled, that of its children apart. -/
structure Renderable (host : Host) (context : Context) (n : Node) : Prop where
  plain : n.IsPlain
  wellBraced : n.HasTexts WellBraced
  /-- The values are inert, however the texts are escaped. -/
  inert : ∀ w, Escapes w → n.HasTexts fun s => FillsInert host (.map context) (s.flatMap w)
  lacks : n.Lacks Directive.tags

theorem FillableWithout.renderable {n : Node} (h : FillableWithout Directive.tags host context n) :
    Renderable host context n := by
  refine ⟨h.plain, h.wellBraced, fun w hw => ?_, h.lacks⟩
  obtain ⟨⟨-, hwell, hpaths, hinert⟩, -⟩ := h
  cases n with
  | text data raw => exact .flatMap hw hwell hpaths hinert
  | element tag attrs children void =>
    exact fun htag entry hentry => .flatMap hw (hwell htag entry hentry) (hpaths htag entry hentry)
      (hinert htag entry hentry)
  | comment data => trivial
  | fragment children => trivial

section

variable {data : Value} {s t filled : List Char}

theorem Ready.of_unopened (h : Unopened s) : Ready host data s :=
  ⟨.plain h, .of_unopened h⟩

theorem Ready.append (hs : Ready host data s) (ht : Ready host data t) :
    Ready host data (s ++ t) :=
  ⟨hs.wellBraced.append ht.wellBraced, .append hs.wellBraced ht.wellBraced hs.inert ht.inert⟩

theorem gives_fillText_unopened_append (hs : Unopened s) (ht : Ready host data t) :
    (fillText host data (s ++ t)).Gives filled ↔
      ∃ b, (fillText host data t).Gives b ∧ filled = s ++ b := by
  rw [gives_fillText_append (.plain hs) ht.wellBraced, fillText_of_unopened hs]
  simp only [Evaluation.gives_pure]
  constructor
  · rintro ⟨_, b, rfl, hb, rfl⟩
    exact ⟨b, hb, rfl⟩
  · rintro ⟨b, hb, rfl⟩
    exact ⟨s, b, rfl, hb, rfl⟩

theorem gives_fillText_append_unopened (hs : Ready host data s) (ht : Unopened t) :
    (fillText host data (s ++ t)).Gives filled ↔
      ∃ a, (fillText host data s).Gives a ∧ filled = a ++ t := by
  rw [gives_fillText_append hs.wellBraced (.plain ht), fillText_of_unopened ht]
  simp only [Evaluation.gives_pure]
  constructor
  · rintro ⟨a, _, ha, rfl, rfl⟩
    exact ⟨a, ha, rfl⟩
  · rintro ⟨a, ha, rfl⟩
    exact ⟨a, t, ha, rfl, rfl⟩

theorem unopened_of_isName {s : List Char} (h : isName s = true) : Unopened s :=
  Text.isolated_of_not_mem fun hm => (nameCharFacts (isNameChar_of_mem h hm)).ne.2.2.2.2.2.1 rfl

end

/-! ### Attributes -/

/-- The markup of the entries of attributes can be filled. -/
def ReadyEntries (host : Host) (data : Value) (entries : List (String × String)) : Prop :=
  ∀ entry ∈ entries, isName entry.1.toList = true ∧ WellBraced entry.2.toList ∧
    FillsInert host data (escapeAttr entry.2.toList)

theorem ready_writeAttr {data : Value} {entry : String × String}
    (hname : isName entry.1.toList = true) (hvalue : Ready host data (escapeAttr entry.2.toList)) :
    Ready host data (writeAttr entry.1.toList entry.2.toList) := by
  have hname := unopened_of_isName hname
  have hspace : Unopened [' '] := by decide
  unfold writeAttr
  split
  · exact .of_unopened (hspace.append hname)
  next c cs heq =>
    have hopen : Unopened ['=', '"'] := by decide
    have hquote : Unopened ['"'] := by decide
    rw [heq] at hvalue
    have := (Ready.of_unopened (hspace.append (hname.append hopen))).append
      (hvalue.append (.of_unopened hquote))
    simpa using this

theorem writeEntries_cons (entry : String × String) (entries : List (String × String)) :
    writeEntries (entry :: entries) =
      writeAttr entry.1.toList entry.2.toList ++ writeEntries entries := rfl

theorem ready_writeEntries {data : Value} {entries : List (String × String)}
    (h : ReadyEntries host data entries) : Ready host data (writeEntries entries) := by
  induction entries with
  | nil => exact .of_unopened trivial
  | cons entry entries ih =>
    obtain ⟨hname, hwell, hinert⟩ := h entry List.mem_cons_self
    have hvalue : Ready host data (escapeAttr entry.2.toList) :=
      ⟨hwell.flatMap escapes_escapeAttrChar, hinert⟩
    rw [writeEntries_cons]
    exact (ready_writeAttr hname hvalue).append (ih fun e he => h e (List.mem_cons_of_mem entry he))

theorem spellsValue_of_gives_fillText {data : Value} {entry : String × String} {t : List Char}
    (hname : isName entry.1.toList = true) (hwell : WellBraced entry.2.toList)
    (hinert : FillsInert host data (escapeAttr entry.2.toList))
    (ht : (fillText host data (writeAttr entry.1.toList entry.2.toList)).Gives t) :
    ∃ filled v, EscapedFill host data entry.2.toList filled ∧ SpellsValue filled v ∧
      t = ' ' :: (entry.1.toList ++ v) := by
  have hname := unopened_of_isName hname
  have hspace : Unopened [' '] := by decide
  unfold writeAttr at ht
  split at ht
  next heq =>
    -- An empty value is not written, so there is nothing to fill.
    have hwritten : Unopened (' ' :: entry.1.toList) := hspace.append hname
    rw [fillText_of_unopened hwritten, Evaluation.gives_pure] at ht
    have hempty : Unopened [] := trivial
    refine ⟨[], [], ⟨hempty, fun _ hc => absurd hc List.not_mem_nil, fun _ => ?_⟩, .inr ⟨rfl, rfl⟩,
      by simp [← ht]⟩
    rw [heq, fillText_of_unopened hempty, Evaluation.gives_pure]
  next c cs heq =>
    have hopen : Unopened (' ' :: (entry.1.toList ++ ['=', '"'])) := by
      have hmarks : Unopened ['=', '"'] := by decide
      exact hspace.append (hname.append hmarks)
    have hquote : Unopened ['"'] := by decide
    have hready : Ready host data (escapeAttr (c :: cs)) :=
      heq ▸ ⟨hwell.flatMap escapes_escapeAttrChar, hinert⟩
    have hwritten : ' ' :: entry.1.toList ++ '=' :: '"' :: escapeAttr (c :: cs) ++ ['"'] =
        (' ' :: (entry.1.toList ++ ['=', '"'])) ++ (escapeAttr (c :: cs) ++ ['"']) := by simp
    rw [hwritten, gives_fillText_unopened_append hopen (hready.append (.of_unopened hquote))] at ht
    obtain ⟨b, hb, rfl⟩ := ht
    obtain ⟨a, ha, rfl⟩ := (gives_fillText_append_unopened hready hquote).1 hb
    rw [← heq] at ha
    obtain ⟨filled, hfilled, rfl⟩ :=
      escapedFill_of_gives_fillText escapes_escapeAttrChar hwell hinert ha
    exact ⟨filled, _, hfilled, .inl rfl, by simp [escapeAttr]⟩

/-- One attribute is another one whose value was filled in its markup. -/
def FilledFrom (host : Host) (context : Context) (entry filled : String × String) : Prop :=
  entry.1 = filled.1 ∧ EscapedFill host (.map context) entry.2.toList filled.2.toList

/-- The filled markup of attributes spells attributes. -/
theorem spellsEntries_of_gives_fillText {entries : List (String × String)} {t : List Char}
    (h : ReadyEntries host (.map context) entries)
    (ht : (fillText host (.map context) (writeEntries entries)).Gives t) :
    ∃ filled, List.Forall₂ (FilledFrom host context) entries filled ∧ SpellsEntries filled t := by
  induction entries generalizing t with
  | nil =>
    have hempty : Unopened [] := trivial
    rw [writeEntries, List.flatMap_nil, fillText_of_unopened hempty, Evaluation.gives_pure] at ht
    exact ⟨[], .nil, ht.symm⟩
  | cons entry entries ih =>
    obtain ⟨hname, hwell, hinert⟩ := h entry List.mem_cons_self
    have h : ReadyEntries host (.map context) entries :=
      fun e he => h e (List.mem_cons_of_mem entry he)
    have hattr : Ready host (.map context) (writeAttr entry.1.toList entry.2.toList) :=
      ready_writeAttr hname ⟨hwell.flatMap escapes_escapeAttrChar, hinert⟩
    rw [writeEntries_cons, gives_fillText_append hattr.wellBraced
      (ready_writeEntries h).wellBraced] at ht
    obtain ⟨a, b, ha, hb, rfl⟩ := ht
    obtain ⟨value, v, hfilled, hv, rfl⟩ := spellsValue_of_gives_fillText hname hwell hinert ha
    obtain ⟨filled, hall, hspells⟩ := ih h hb
    refine ⟨(entry.1, String.ofList value) :: filled, .cons ⟨rfl, ?_⟩ hall, v, b, by simp, ?_, hspells⟩
    · rwa [String.toList_ofList]
    · rwa [String.toList_ofList]

/-- Attributes with inert paths are filled to those that their markup was filled to. -/
theorem gives_fillEntries_of_filledFrom {entries filled : List (String × String)}
    (h : List.Forall₂ (FilledFrom host context) entries filled)
    (hpaths : ∀ entry ∈ entries, HasInertPaths entry.2.toList) :
    (fillEntries host context entries).Gives filled := by
  induction h with
  | nil => exact Evaluation.gives_pure.2 rfl
  | @cons entry value entries filled hfilled _ ih =>
    have hvalue := hfilled.2.fills (hpaths entry List.mem_cons_self)
    have hentries := ih fun e he => hpaths e (List.mem_cons_of_mem entry he)
    rw [fillEntries, Evaluation.gives_bind]
    refine ⟨value.2, ?_, Evaluation.gives_bind.2 ⟨filled, hentries, ?_⟩⟩
    · exact Evaluation.gives_bind.2 ⟨_, hvalue, Evaluation.gives_pure.2 String.ofList_toList⟩
    · rw [hfilled.1]
      exact Evaluation.gives_pure.2 rfl

/-- Filled attributes keep their names. -/
theorem map_fst_of_filledFrom {entries filled : List (String × String)}
    (h : List.Forall₂ (FilledFrom host context) entries filled) :
    filled.map Prod.fst = entries.map Prod.fst := by
  induction h with
  | nil => rfl
  | cons h _ ih => rw [List.map_cons, List.map_cons, ih, h.1]

theorem exists_filledFrom {entries filled : List (String × String)}
    (h : List.Forall₂ (FilledFrom host context) entries filled) {e : String × String}
    (he : e ∈ filled) : ∃ entry ∈ entries, FilledFrom host context entry e := by
  induction h with
  | nil => exact absurd he List.not_mem_nil
  | cons h _ ih =>
    rcases List.mem_cons.1 he with rfl | he
    · exact ⟨_, List.mem_cons_self, h⟩
    · obtain ⟨entry, hentry, hfrom⟩ := ih he
      exact ⟨entry, List.mem_cons_of_mem _ hentry, hfrom⟩

/-! ### Nodes -/

theorem write_element_empty (tag : String) (attrs : Attributes) {children : List Node} {void : Bool}
    (h : (void && children.isEmpty) = true) :
    write (.element tag attrs children void) = '<' :: tag.toList ++ (writeEntries attrs.entries ++
      if tag ∈ voidTags then ['>'] else ['/', '>']) := by
  rw [write, if_pos h]
  simp [writeTag, writeAttrs, writeEntries]

theorem write_element_body (tag : String) (attrs : Attributes) {children : List Node} {void : Bool}
    (h : ¬(void && children.isEmpty) = true) :
    write (.element tag attrs children void) = '<' :: tag.toList ++ (writeEntries attrs.entries ++
      (['>'] ++ (writeAll children ++ '<' :: '/' :: (tag.toList ++ ['>'])))) := by
  rw [write, if_neg h]
  simp [writeTag, writeAttrs, writeEntries]

theorem Renderable.readyEntries {tag : String} {attrs : Attributes} {children : List Node}
    {void : Bool} (h : Renderable host context (.element tag attrs children void)) :
    ReadyEntries host (.map context) attrs.entries := fun entry hentry =>
  ⟨h.plain.2.1 entry hentry, h.wellBraced h.lacks entry hentry,
    h.inert _ escapes_escapeAttrChar h.lacks entry hentry⟩

theorem unopened_voidClose (tag : String) :
    Unopened (if tag ∈ voidTags then ['>'] else ['/', '>']) := by
  split <;> decide

section

variable {tag : String} (htag : isName tag.toList = true)

include htag

theorem unopened_openTag : Unopened ('<' :: tag.toList) := by
  have : Unopened ['<'] := by decide
  exact this.append (unopened_of_isName htag)

theorem unopened_closeTag : Unopened ('<' :: '/' :: (tag.toList ++ ['>'])) := by
  have hopen : Unopened ['<', '/'] := by decide
  have hclose : Unopened ['>'] := by decide
  exact hopen.append ((unopened_of_isName htag).append hclose)

end

theorem Renderable.ready_text {data : String} {raw : Bool}
    (h : Renderable host context (.text data raw)) :
    Ready host (.map context) (write (.text data raw)) := by
  obtain rfl : raw = false := h.plain
  exact ⟨WellBraced.flatMap escapes_escapeChar h.wellBraced, h.inert _ escapes_escapeChar⟩

/-- The markup of nodes without directives can be filled. -/
theorem ready_writeAll {ns : List Node}
    (h : Everywhere (fun n _ => Renderable host context n) ns) :
    Ready host (.map context) (writeAll ns) := by
  induction ns using forest_induction with
  | nil => exact .of_unopened trivial
  | text data raw ns ih =>
    rw [writeAll]
    exact h.1.ready_text.append (ih h.2.2)
  | comment data ns ih => exact h.1.plain.elim
  | element tag attrs children void ns ihc ih =>
    obtain ⟨hn, hchildren, h⟩ := h
    have htag := hn.plain.1
    have hentries := ready_writeEntries hn.readyEntries
    have hopen : Ready host (.map context) ('<' :: tag.toList) :=
      .of_unopened (unopened_openTag htag)
    rw [writeAll]
    refine Ready.append ?_ (ih h)
    by_cases hempty : (void && children.isEmpty) = true
    · rw [write_element_empty tag attrs hempty]
      exact hopen.append (hentries.append (.of_unopened (unopened_voidClose tag)))
    · rw [write_element_body tag attrs hempty]
      have hgt : Unopened ['>'] := by decide
      exact hopen.append (hentries.append ((Ready.of_unopened hgt).append
        ((ihc hchildren).append (.of_unopened (unopened_closeTag htag)))))
  | fragment children ns ihc ih =>
    rw [writeAll, write]
    exact (ihc h.2.1).append (ih h.2.2)

theorem settled_of_filledFrom {tag : String} {attrs attrs' : Attributes} {children nodes : List Node}
    {void : Bool} (hn : Renderable host context (.element tag attrs children void))
    (hattrs : List.Forall₂ (FilledFrom host context) attrs.entries attrs'.entries)
    (hempty : children = [] → nodes = []) (hnodes : Settled nodes) :
    Settled [.element tag attrs' nodes void] := by
  obtain ⟨htag, hnames, hraw, hvoid, hvoidTag, hlt⟩ := hn.plain
  refine ⟨⟨⟨htag, fun e he => ?_, hraw, fun hv => hempty (hvoid hv), hvoidTag, fun _ e he => ?_⟩,
    fun _ e he => ?_, hn.lacks⟩, hnodes, trivial⟩
  all_goals obtain ⟨entry, hentry, hname, hfilled⟩ := exists_filledFrom hattrs he
  · exact hname ▸ hnames entry hentry
  · exact fun hmem => hlt hn.lacks entry hentry (hfilled.origin _ hmem (by decide))
  · exact hfilled.unopened

/-- No name comes twice in filled attributes. -/
theorem entries_ofList_of_filledFrom {attrs : Attributes} {filled : List (String × String)}
    (h : List.Forall₂ (FilledFrom host context) attrs.entries filled) :
    (OrderedMap.ofList filled : Attributes).entries = filled := by
  refine OrderedMap.entries_insertAll OrderedMap.empty ?_
  show (filled.map Prod.fst).Nodup
  rw [map_fst_of_filledFrom h]
  exact attrs.nodup_keys

/-- The filled markup of attributes spells attributes. -/
theorem spellsAttrs_of_gives_fillText {attrs : Attributes}
    (h : ReadyEntries host (.map context) attrs.entries) {t : List Char}
    (ht : (fillText host (.map context) (writeEntries attrs.entries)).Gives t) :
    ∃ attrs' : Attributes, List.Forall₂ (FilledFrom host context) attrs.entries attrs'.entries ∧
      SpellsEntries attrs'.entries t := by
  obtain ⟨filled, hfrom, hspells⟩ := spellsEntries_of_gives_fillText h ht
  refine ⟨OrderedMap.ofList filled, ?_, ?_⟩
  all_goals rwa [entries_ofList_of_filledFrom hfrom]

theorem gives_fillAttrs_of_filledFrom {attrs attrs' : Attributes}
    (h : List.Forall₂ (FilledFrom host context) attrs.entries attrs'.entries)
    (hpaths : ∀ entry ∈ attrs.entries, HasInertPaths entry.2.toList) :
    (fillAttrs host context attrs).Gives attrs' :=
  Evaluation.gives_bind.2 ⟨attrs'.entries, gives_fillEntries_of_filledFrom h hpaths,
    Evaluation.gives_pure.2 (OrderedMap.ofList_entries attrs')⟩

/-- No escape changes a path in nodes. -/
abbrev HaveInertPaths (ns : List Node) : Prop :=
  Everywhere (fun n _ => n.HasTexts HasInertPaths) ns

section

variable {insert : Context → String → Evaluation (List Node)}

/-- A text spells a settled node. The node is filled to it, if no escape changes a path. -/
def SpellsFilled (host : Host) (insert : Context → String → Evaluation (List Node))
    (context : Context) (n : Node) (written : List Char) : Prop :=
  ∃ m, Spells m written ∧ Settled [m] ∧
    (HaveInertPaths [n] → (fillNode host insert n context .nothing).Gives ([m], .nothing))

/-- A text spells settled nodes. The nodes are filled to them, if no escape changes a path. -/
def SpellsAllFilled (host : Host) (insert : Context → String → Evaluation (List Node))
    (context : Context) (ns : List Node) (written : List Char) : Prop :=
  ∃ f, SpellsAll f written ∧ Settled f ∧
    (HaveInertPaths ns → (fillNodes host insert ns context .nothing).Gives f)

theorem SpellsAllFilled.cons {n : Node} {ns : List Node} {a b : List Char}
    (hn : SpellsFilled host insert context n a) (hns : SpellsAllFilled host insert context ns b) :
    SpellsAllFilled host insert context (n :: ns) (a ++ b) := by
  obtain ⟨m, hspells, hsettled, hm⟩ := hn
  obtain ⟨f, hspellsAll, hsettledAll, hf⟩ := hns
  refine ⟨m :: f, ⟨a, b, rfl, hspells, hspellsAll⟩, hsettled.append hsettledAll, fun hpaths => ?_⟩
  rw [gives_fillNodes_cons, released_nothing]
  exact ⟨([m], .nothing), f, hm ⟨hpaths.1, hpaths.2.1, trivial⟩, hf hpaths.2.2, rfl⟩

theorem spellsFilled_text {data : String} (hn : Renderable host context (.text data false))
    {a : List Char} (ha : (fillText host (.map context) (write (.text data false))).Gives a) :
    SpellsFilled host insert context (.text data false) a := by
  obtain ⟨filled, hfilled, rfl⟩ := escapedFill_of_gives_fillText escapes_escapeChar hn.wellBraced
    (hn.inert _ escapes_escapeChar) ha
  refine ⟨.text (String.ofList filled) false, ?_, ⟨⟨rfl, ?_, trivial⟩, trivial, trivial⟩,
    fun hpaths => ?_⟩
  · rw [Spells, String.toList_ofList]
    rfl
  · rw [HasTexts, String.toList_ofList]
    exact hfilled.unopened
  · have hfills := hfilled.fills hpaths.1
    by_cases hblank : (Node.text data false).isBlank = true
    · -- A blank text has no placeholders.
      obtain ⟨⟨-, hdata, -⟩, -, -⟩ := settled_of_isBlank hblank
      rw [fillText_of_unopened hdata, Evaluation.gives_pure] at hfills
      rw [← hfills, String.ofList_toList]
      exact (gives_fillNode_blank hblank).2 rfl
    · refine (gives_fillNode_text (by simpa using hblank)).2 ⟨_, ?_, rfl⟩
      exact Evaluation.gives_bind.2 ⟨filled, hfills, Evaluation.gives_pure.2 rfl⟩

/-- A void element is written as one tag, in which its attributes are filled. -/
theorem spellsFilled_voidElement {tag : String} {attrs : Attributes}
    (hn : Renderable host context (.element tag attrs [] true)) {a : List Char}
    (ha : (fillText host (.map context) (write (.element tag attrs [] true))).Gives a) :
    SpellsFilled host insert context (.element tag attrs [] true) a := by
  have hempty : (true && ([] : List Node).isEmpty) = true := rfl
  have hentries := ready_writeEntries hn.readyEntries
  have hclose := unopened_voidClose tag
  rw [write_element_empty tag attrs hempty, gives_fillText_unopened_append (unopened_openTag hn.plain.1)
    (hentries.append (.of_unopened hclose))] at ha
  obtain ⟨b, hb, rfl⟩ := ha
  obtain ⟨entries, hwritten, rfl⟩ := (gives_fillText_append_unopened hentries hclose).1 hb
  obtain ⟨attrs', hfrom, hspells⟩ := spellsAttrs_of_gives_fillText hn.readyEntries hwritten
  refine ⟨.element tag attrs' [] true, ⟨entries, hspells, ?_⟩,
    settled_of_filledFrom hn hfrom (fun _ => rfl) trivial, fun hpaths => ?_⟩
  · rw [if_pos hempty]
    simp
  · have hattrs' := gives_fillAttrs_of_filledFrom hfrom (hpaths.1 hn.lacks)
    exact (gives_fillNode_element hn.lacks).2
      ⟨attrs', [], hattrs', gives_fillNodes_nil.2 rfl, rfl⟩

/-- Any other element is written as a start tag with its attributes, the body and a closing tag: names
    and brackets are kept, attributes and body are filled one after the other. -/
theorem spellsFilled_element {tag : String} {attrs : Attributes} {children : List Node}
    (hn : Renderable host context (.element tag attrs children false))
    (hready : Ready host (.map context) (writeAll children))
    (hchildren : ∀ {b : List Char}, (fillText host (.map context) (writeAll children)).Gives b →
      SpellsAllFilled host insert context children b)
    {a : List Char}
    (ha : (fillText host (.map context) (write (.element tag attrs children false))).Gives a) :
    SpellsFilled host insert context (.element tag attrs children false) a := by
  have hempty : ∀ ns : List Node, ¬(false && ns.isEmpty) = true := fun _ => Bool.false_ne_true
  have htag := hn.plain.1
  have hentries := ready_writeEntries hn.readyEntries
  have hclose := unopened_closeTag htag
  have hgt : Unopened ['>'] := by decide
  have hbody := (Ready.of_unopened hgt).append (hready.append (.of_unopened hclose))
  rw [write_element_body tag attrs (hempty children),
    gives_fillText_unopened_append (unopened_openTag htag) (hentries.append hbody)] at ha
  obtain ⟨b, hb, rfl⟩ := ha
  rw [gives_fillText_append hentries.wellBraced hbody.wellBraced] at hb
  obtain ⟨entries, c, hwritten, hc, rfl⟩ := hb
  obtain ⟨d, hd, rfl⟩ :=
    (gives_fillText_unopened_append hgt (hready.append (.of_unopened hclose))).1 hc
  obtain ⟨body, hbody, rfl⟩ := (gives_fillText_append_unopened hready hclose).1 hd
  obtain ⟨attrs', hfrom, hspells⟩ := spellsAttrs_of_gives_fillText hn.readyEntries hwritten
  obtain ⟨f, hspellsAll, hsettled, hf⟩ := hchildren hbody
  have hnil : children = [] → f = [] := by
    rintro rfl
    exact gives_fillNodes_nil.1 (hf trivial)
  refine ⟨.element tag attrs' f false, ⟨entries, hspells, ?_⟩,
    settled_of_filledFrom hn hfrom hnil hsettled, fun hpaths => ?_⟩
  · rw [if_neg (hempty f)]
    exact ⟨body, hspellsAll, by simp⟩
  · have hattrs' := gives_fillAttrs_of_filledFrom hfrom (hpaths.1 hn.lacks)
    exact (gives_fillNode_element hn.lacks).2 ⟨attrs', f, hattrs', hf hpaths.2.1, rfl⟩

/-- The filled markup of nodes without directives spells settled nodes. -/
theorem spellsAllFilled_of_gives_fillText {ns : List Node}
    (h : Everywhere (fun n _ => Renderable host context n) ns) {t : List Char}
    (ht : (fillText host (.map context) (writeAll ns)).Gives t) :
    SpellsAllFilled host insert context ns t := by
  induction ns using forest_induction generalizing t with
  | nil =>
    have hempty : Unopened [] := trivial
    rw [writeAll, fillText_of_unopened hempty, Evaluation.gives_pure] at ht
    exact ⟨[], ht.symm, trivial, fun _ => gives_fillNodes_nil.2 rfl⟩
  | text data raw ns ih =>
    obtain ⟨hn, -, h⟩ := h
    obtain rfl : raw = false := hn.plain
    rw [writeAll, gives_fillText_append hn.ready_text.wellBraced (ready_writeAll h).wellBraced] at ht
    obtain ⟨a, b, ha, hb, rfl⟩ := ht
    exact .cons (spellsFilled_text hn ha) (ih h hb)
  | comment data ns ih => exact h.1.plain.elim
  | element tag attrs children void ns ihc ih =>
    obtain ⟨hn, hchildren, h⟩ := h
    have hready : Ready host (.map context) (write (.element tag attrs children void)) := by
      have := @ready_writeAll _ _ [.element tag attrs children void] ⟨hn, hchildren, trivial⟩
      rwa [writeAll, writeAll, List.append_nil] at this
    rw [writeAll, gives_fillText_append hready.wellBraced (ready_writeAll h).wellBraced] at ht
    obtain ⟨a, b, ha, hb, rfl⟩ := ht
    refine .cons ?_ (ih h hb)
    cases void with
    | true =>
      obtain rfl := hn.plain.2.2.2.1 rfl
      exact spellsFilled_voidElement hn ha
    | false => exact spellsFilled_element hn (ready_writeAll hchildren) (ihc hchildren) ha
  | fragment children ns ihc ih =>
    obtain ⟨hn, hchildren, h⟩ := h
    rw [writeAll, write, gives_fillText_append (ready_writeAll hchildren).wellBraced
      (ready_writeAll h).wellBraced] at ht
    obtain ⟨a, b, ha, hb, rfl⟩ := ht
    obtain ⟨f, hspells, hsettled, hf⟩ := ihc hchildren ha
    refine .cons ⟨.fragment f, hspells, ⟨⟨trivial, trivial, trivial⟩, hsettled, trivial⟩,
      fun hpaths => ?_⟩ (ih h hb)
    exact gives_fillNode_fragment.2 ⟨f, hf hpaths.2.1, rfl⟩

/-- What the last pass reads is settled, and in normal form. The nodes are filled to it, if no escape
    changes a path. -/
theorem parse_of_gives_interpolate {ns : List Node}
    (h : Everywhere (fun n _ => Renderable host context n) ns) {fuel : Nat} {t : List Char}
    (ht : (interpolate host (.map context) fuel (stripComments (writeAll ns))).Gives t) :
    ∃ f, Settled f ∧ parse (String.ofList t) = .ok (normalize f) ∧
      (HaveInertPaths ns → (fillNodes host insert ns context .nothing).Gives f) := by
  have hcalm : Calm (writeAll ns) := by
    have := calm_writeAll (h.imp fun n _ hn => ⟨hn.plain, hn.lacks⟩) (show Calm [] from rfl)
    rwa [List.append_nil] at this
  have hready := ready_writeAll h
  have hempty : Unopened [] := trivial
  -- There are no comments to cut out, and the placeholders are filled in one pass.
  rw [stripComments_of_calm hcalm] at ht
  obtain ⟨filled, hfilled, rfl⟩ := fillText_of_interpolate hready.wellBraced hready.inert hempty ht
  obtain ⟨f, hspells, hsettled, hf⟩ := spellsAllFilled_of_gives_fillText h hfilled
  exact ⟨f, hsettled, parse_settled hsettled hspells, hf⟩

end

end Stencil.Expansion
