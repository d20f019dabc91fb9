import Stencil.Interpolation
import Stencil.Proofs.Markup.Built

/-!
# Comments in markup

Comments are cut out of the markup as a text. If nothing else in a document looks like the mark at the
start of a comment, this is the same as leaving out the comments of the document itself, wherever they
are (`stripComments_write_of_parse`).

The markup is made of pieces in which no comment starts, whatever stands behind them (`Quiet`), and of
comments whose end is the first one that there is from their start. What is cut out of such a text is
exactly the comments (`stripComments_of_commented`), and the markup of a document is such a text, by
induction on the document (`commented_writeAll`).
-/

namespace Stencil

open Markup

/-! ### Pieces without comments -/

/-- The mark at the start of comments occurs in a text. -/
def HoldsOpener (s : List Char) : Prop := commentOpener <:+: s

instance (s : List Char) : Decidable (HoldsOpener s) :=
  inferInstanceAs (Decidable (commentOpener <:+: s))

/-- No comment starts in a text, whatever stands behind it. -/
def Quiet (s : List Char) : Prop :=
  ∀ t, t ≠ [] → t <:+ s → ∀ rest, Text.dropLead? commentOpener (t ++ rest) = none

/-- A mark does not reach over a character that it does not have. -/
theorem holdsOpener_append_cons {d : Char} (hd : d ∉ commentOpener) {a s : List Char} :
    HoldsOpener (a ++ d :: s) ↔ HoldsOpener a ∨ HoldsOpener s := by
  rw [HoldsOpener, List.infix_append_iff, List.infix_cons_iff]
  constructor
  · rintro (ha | (hstart | hs) | ⟨l, m, heq, hl, hm⟩)
    · exact .inl ha
    · exact absurd (List.prefix_cons_iff.1 hstart) (by
        rintro (hnil | ⟨t, ht, -⟩)
        · cases hnil
        · exact hd (ht ▸ List.mem_cons_self))
    · exact .inr hs
    · rcases List.prefix_cons_iff.1 hm with rfl | ⟨t, rfl, -⟩
      · rw [List.append_nil] at heq
        rw [HoldsOpener, heq]
        exact .inl hl.isInfix
      · exact absurd (heq ▸ by simp) hd
  · rintro (ha | hs)
    · exact .inl ha
    · exact .inr (.inl (.inr hs))

/-- Neither does it reach over a left angle bracket, which is only at its start. -/
theorem holdsOpener_concat_lt {a : List Char} : HoldsOpener (a ++ ['<']) ↔ HoldsOpener a := by
  rw [HoldsOpener, List.infix_concat_iff, or_iff_right]
  · rfl
  · intro hsuffix
    obtain hnil | ⟨t, ht, -⟩ := List.suffix_concat_iff.1 hsuffix
    · cases hnil
    · have := congrArg List.getLast? ht
      simp [commentOpener] at this

theorem quiet_nil : Quiet [] := fun _ hne hsuffix => absurd (List.suffix_nil.1 hsuffix) hne

theorem Quiet.append {a b : List Char} (ha : Quiet a) (hb : Quiet b) : Quiet (a ++ b) := by
  rintro t hne ⟨before, hbefore⟩ rest
  rcases List.append_eq_append_iff.1 hbefore with ⟨m, rfl, rfl⟩ | ⟨m, -, hm⟩
  · cases m with
    | nil => exact hb _ hne (List.suffix_refl _) rest
    | cons c m =>
      rw [List.append_assoc]
      exact ha (c :: m) (List.cons_ne_nil c m) ⟨before, rfl⟩ (b ++ rest)
  · exact hb t hne ⟨m, hm.symm⟩ rest

theorem quiet_of_not_mem {s : List Char} (h : '<' ∉ s) : Quiet s := by
  intro t hne hsuffix rest
  obtain ⟨c, t, rfl⟩ := List.exists_cons_of_ne_nil hne
  have hc : '<' ≠ c := fun heq => h (hsuffix.subset (heq ▸ List.mem_cons_self))
  rw [List.cons_append, commentOpener, Text.dropLead?, if_neg hc]

/-- A text without the mark is quiet if it ends in a character that the mark does not have. -/
theorem quiet_concat {d : Char} (hd : d ∉ commentOpener) {s : List Char} (h : ¬HoldsOpener s) :
    Quiet (s ++ [d]) := by
  intro t hne hsuffix rest
  rcases List.suffix_concat_iff.1 hsuffix with rfl | ⟨u, rfl, hu⟩
  · exact absurd rfl hne
  · rw [List.append_assoc, List.singleton_append, Text.dropLead?_append_cons hd]
    cases hlead : Text.dropLead? commentOpener u with
    | none => rfl
    | some after =>
      obtain rfl := Text.append_of_dropLead? hlead
      exact absurd ((List.prefix_append _ after).isInfix.trans hu.isInfix) h

theorem cut_of_quiet {s : List Char} (h : Quiet s) (rest : List Char) :
    Text.cut commentOpener (s ++ rest) =
      (Text.cut commentOpener rest).map fun (before, after) => (s ++ before, after) := by
  induction s with
  | nil =>
    rw [List.nil_append]
    cases Text.cut commentOpener rest <;> rfl
  | cons c s ih =>
    have hc := h (c :: s) (List.cons_ne_nil c s) (List.suffix_refl _) rest
    rw [List.cons_append] at hc ⊢
    rw [Text.cut, hc, ih fun t hne hsuffix => h t hne (hsuffix.trans (List.suffix_cons c s))]
    cases Text.cut commentOpener rest <;> rfl

/-! ### Cutting comments -/

/-- A text is another one with comments put in. -/
inductive Commented : (s t : List Char) → Prop where
  | nil : Commented [] []
  | quiet {p s t : List Char} : Quiet p → Commented s t → Commented (p ++ s) (p ++ t)
  | comment {data s t : List Char} : ¬commentCloser <:+: '-' :: '-' :: data → Commented s t →
      Commented (commentOpener ++ (data ++ (commentCloser ++ s))) t

theorem Commented.append {s t u v : List Char} (hs : Commented s t) (hu : Commented u v) :
    Commented (s ++ u) (t ++ v) := by
  induction hs with
  | nil => exact hu
  | quiet hp _ ih =>
    rw [List.append_assoc, List.append_assoc]
    exact .quiet hp ih
  | comment hdata _ ih =>
    rw [List.append_assoc, List.append_assoc, List.append_assoc]
    exact .comment hdata ih

theorem commented_of_quiet {s : List Char} (h : Quiet s) : Commented s s := by
  have := Commented.quiet h .nil
  rwa [List.append_nil] at this

/-- A comment ends at the first mark from its start. -/
theorem cut_closer {data : List Char} (h : ¬commentCloser <:+: '-' :: '-' :: data)
    (rest : List Char) :
    Text.cut commentCloser (commentOpener ++ (data ++ (commentCloser ++ rest))) =
      some (commentOpener ++ data, rest) := by
  rw [Text.cut_eq_cutWhere, ← List.append_assoc]
  refine Text.cutWhere_append (fun t hne hsuffix => ?_) rfl
  rw [Option.eq_none_iff_forall_ne_some]
  intro after hlead
  have heq := Text.append_of_dropLead? hlead
  -- A mark that starts in the comment does not end behind it, as it has a bracket at its end only.
  match t with
  | [] => exact hne rfl
  | [c] => simp [commentCloser] at heq
  | [c, d] => simp [commentCloser] at heq
  | c :: d :: e :: t =>
    obtain ⟨rfl, rfl, rfl, -⟩ : c = '-' ∧ d = '-' ∧ e = '>' ∧ _ := by
      simpa [commentCloser] using heq
    rcases List.suffix_cons_iff.1 hsuffix with hall | hsuffix
    · cases hall
    · rcases List.suffix_cons_iff.1 hsuffix with hall | hsuffix
      · cases hall
      · exact h ((List.prefix_append commentCloser t).isInfix.trans hsuffix.isInfix)

theorem stripCommentsFrom_of_commented {s t : List Char} (h : Commented s t) {before : List Char}
    (hbefore : Quiet before) {fuel : Nat} (hfuel : s.length ≤ fuel) :
    stripCommentsFrom fuel (before ++ s) = before ++ t := by
  induction h generalizing before fuel with
  | nil =>
    have hnone : cutComment? before = none := by
      have := cut_of_quiet hbefore []
      rw [List.append_nil] at this
      rw [cutComment?, this]
      rfl
    rw [List.append_nil]
    cases fuel with
    | zero => rw [stripCommentsFrom]
    | succ fuel => rw [stripCommentsFrom, hnone]
  | @quiet p s t hp _ ih =>
    rw [List.length_append] at hfuel
    rw [← List.append_assoc, ih (hbefore.append hp) (by omega), List.append_assoc]
  | @comment data s t hdata _ ih =>
    have hcut : cutComment? (before ++ (commentOpener ++ (data ++ (commentCloser ++ s)))) =
        some (before ++ s) := by
      have hopener : Text.cut commentOpener (commentOpener ++ (data ++ (commentCloser ++ s))) =
          some ([], data ++ (commentCloser ++ s)) := rfl
      rw [cutComment?, cut_of_quiet hbefore, hopener, Option.map_some, Option.bind_some]
      simp only [cut_closer hdata, Option.map_some, List.append_nil]
    have hlength : s.length + 7 ≤ fuel := by
      simp only [List.length_append] at hfuel
      have : commentOpener.length = 4 := rfl
      have : commentCloser.length = 3 := rfl
      omega
    cases fuel with
    | zero => omega
    | succ fuel =>
      rw [stripCommentsFrom, hcut]
      exact ih hbefore (by omega)

/-- What is cut out of a text is the comments that were put in. -/
theorem stripComments_of_commented {s t : List Char} (h : Commented s t) : stripComments s = t :=
  stripCommentsFrom_of_commented h quiet_nil (Nat.le_refl _)

namespace Node

/-! ### Comments of a document -/

mutual

/-- A node without the comments at and below it. -/
def dropComments : Node → List Node
  | comment _ => []
  | element tag attrs children void => [element tag attrs (dropAllComments children) void]
  | fragment children => [fragment (dropAllComments children)]
  | text data raw => [text data raw]
termination_by structural n => n

/-- Nodes in a row without the comments at and below them. -/
def dropAllComments : List Node → List Node
  | [] => []
  | n :: ns => dropComments n ++ dropAllComments ns
termination_by structural ns => ns

end

/-- A node holds no mark of a comment that is not one of its own: none is in a tag or in a text that is
    written as it is, and no comment starts with what, behind its start, looks like its end. -/
def MarksNoComment : Node → Prop
  | text data raw => raw = true → ¬HoldsOpener data.toList
  | comment data => ¬['>'] <+: data.toList ∧ ¬['-', '>'] <+: data.toList
  | element tag attrs _ _ => ¬HoldsOpener tag.toList ∧
      ∀ entry ∈ attrs.entries, ¬HoldsOpener entry.1.toList ∧ ¬HoldsOpener entry.2.toList
  | fragment _ => True

/-- A comment of a document ends where it is written to end. -/
theorem not_closer_of_marks {data : List Char} (hdashes : ¬HoldsDashes data)
    (hgt : ¬['>'] <+: data) (hdash : ¬['-', '>'] <+: data) :
    ¬commentCloser <:+: '-' :: '-' :: data := by
  rintro ⟨before, after, heq⟩
  match before with
  | [] => exact hgt ⟨after, by simpa [commentCloser] using heq⟩
  | [c] => exact hdash ⟨after, by simpa [commentCloser] using (List.cons.inj heq).2⟩
  | c :: d :: before =>
    refine hdashes ⟨before, [], after, ?_, rfl⟩
    simpa [commentCloser] using (List.cons.inj (List.cons.inj heq).2).2.symm

/-- The mark of a comment that is in a value as it is written is in the value. -/
theorem holdsOpener_of_escapeAttr {a value : List Char}
    (h : HoldsOpener (a ++ escapeAttr value)) : HoldsOpener (a ++ value) := by
  induction value generalizing a with
  | nil => exact h
  | cons c value ih =>
    rw [escapeAttr, List.flatMap_cons, ← escapeAttr] at h
    -- The characters that are escaped are not in the mark, and neither is what stands for them.
    have hescaped : ∀ {w : List Char}, ¬HoldsOpener w → c ∉ commentOpener →
        HoldsOpener (a ++ ('&' :: (w ++ [';']) ++ escapeAttr value)) →
        HoldsOpener (a ++ c :: value) := by
      intro w hw hc h
      rw [holdsOpener_append_cons hc]
      rw [List.cons_append, List.append_assoc, List.singleton_append,
        holdsOpener_append_cons (by decide), holdsOpener_append_cons (by decide)] at h
      exact h.imp_right fun h => ih (a := []) (h.resolve_left hw)
    unfold escapeAttrChar at h
    split_ifs at h with hamp hquote
    · exact hescaped (w := ['a', 'm', 'p']) (by decide) (hamp ▸ by decide) h
    · exact hescaped (w := ['q', 'u', 'o', 't']) (by decide) (hquote ▸ by decide) h
    · have := ih (a := a ++ [c]) (by simpa using h)
      simpa using this

theorem not_holdsOpener_writeAttr {before name value : List Char} (hbefore : ¬HoldsOpener before)
    (hname : ¬HoldsOpener name) (hvalue : ¬HoldsOpener value) :
    ¬HoldsOpener (before ++ writeAttr name value) := by
  cases value with
  | nil =>
    rw [writeAttr, holdsOpener_append_cons (by decide)]
    exact not_or.2 ⟨hbefore, hname⟩
  | cons c cs =>
    have hwritten : before ++ writeAttr name (c :: cs) =
        before ++ ' ' :: (name ++ '=' :: ([] ++ '"' :: (escapeAttr (c :: cs) ++ '"' :: []))) := by
      simp [writeAttr]
    rw [hwritten]
    iterate 4 rw [holdsOpener_append_cons (by decide)]
    exact not_or.2 ⟨hbefore, not_or.2 ⟨hname, not_or.2 ⟨by decide, not_or.2
      ⟨fun h => hvalue (holdsOpener_of_escapeAttr (a := []) h), by decide⟩⟩⟩⟩

/-- What is written of attributes holds no mark of a comment if their names and values do not. -/
theorem not_holdsOpener_writeAttrs {entries : List (String × String)} {before : List Char}
    (hbefore : ¬HoldsOpener before)
    (h : ∀ entry ∈ entries, ¬HoldsOpener entry.1.toList ∧ ¬HoldsOpener entry.2.toList) :
    ¬HoldsOpener (before ++ writeEntries entries) := by
  induction entries generalizing before with
  | nil => rwa [writeEntries, List.flatMap_nil, List.append_nil]
  | cons entry entries ih =>
    obtain ⟨⟨hname, hvalue⟩, h⟩ := List.forall_mem_cons.1 h
    rw [writeEntries, List.flatMap_cons, ← writeEntries, ← List.append_assoc]
    exact ih (not_holdsOpener_writeAttr hbefore hname hvalue) h

/-- No comment starts in an opening tag. -/
theorem quiet_writeTag {tag : String} {attrs : Attributes} (htag : IsTagName tag.toList)
    (h : ¬HoldsOpener tag.toList ∧
      ∀ entry ∈ attrs.entries, ¬HoldsOpener entry.1.toList ∧ ¬HoldsOpener entry.2.toList)
    {close : List Char} (hclose : TagClose close) : Quiet (writeTag tag attrs close) := by
  obtain ⟨hmark, hattrs⟩ := h
  have hname : ¬HoldsOpener ('<' :: tag.toList) := by
    obtain ⟨c, t, hct, hc⟩ := htag.letter
    rw [HoldsOpener, List.infix_cons_iff]
    rintro (⟨after, hafter⟩ | h)
    · rw [hct] at hafter
      obtain rfl : '!' = c := (List.cons.inj (List.cons.inj hafter).2).1
      exact absurd hc (by decide)
    · exact hmark h
  have hentries := not_holdsOpener_writeAttrs hname hattrs
  rcases hclose with rfl | rfl
  · exact quiet_concat (by decide) hentries
  · have hwritten : writeTag tag attrs ['/', '>'] =
        ('<' :: tag.toList ++ writeEntries attrs.entries ++ '/' :: []) ++ ['>'] := by
      simp [writeTag, writeAttrs, writeEntries]
    rw [hwritten]
    refine quiet_concat (by decide) ?_
    rw [holdsOpener_append_cons (by decide)]
    exact not_or.2 ⟨hentries, by decide⟩

theorem quiet_endTag {tag : String} (h : ¬HoldsOpener tag.toList) {a : List Char}
    (ha : ¬HoldsOpener a) : Quiet (a ++ '<' :: '/' :: (tag.toList ++ ['>'])) := by
  have hsplit : a ++ '<' :: '/' :: (tag.toList ++ ['>']) =
      (a ++ ['<'] ++ '/' :: tag.toList) ++ ['>'] := by simp
  rw [hsplit]
  refine quiet_concat (by decide) ?_
  rw [holdsOpener_append_cons (by decide), holdsOpener_concat_lt]
  exact not_or.2 ⟨ha, h⟩

theorem quiet_declared {data : String} (h : Declared data) (hmarks : ¬HoldsOpener data.toList) :
    Quiet data.toList := by
  obtain ⟨s, hs⟩ : ∃ s, data.toList = s ++ ['>'] := by
    obtain (@⟨data, -, -⟩ | @⟨data, -⟩ | @⟨data, -, -⟩) | @⟨data, -⟩ := h
    · exact ⟨'<' :: '!' :: data, String.toList_ofList⟩
    · exact ⟨'<' :: '?' :: data, String.toList_ofList⟩
    · exact ⟨'<' :: '!' :: '[' :: (data ++ [']']), by simp⟩
    · exact ⟨'<' :: '!' :: '[' :: (data ++ [']']), by simp⟩
  rw [hs] at hmarks ⊢
  exact quiet_concat (by decide) fun h => hmarks (h.trans (List.prefix_append s ['>']).isInfix)

theorem write_element (tag : String) (attrs : Attributes) (children : List Node) :
    (element tag attrs children false).write = writeTag tag attrs ['>'] ++
      (writeAll children ++ '<' :: '/' :: (tag.toList ++ ['>'])) := by
  rw [write, Bool.false_and, if_neg Bool.false_ne_true]
  simp

theorem commented_voidElement {tag : String} {attrs : Attributes} (htag : IsTagName tag.toList)
    (hmark : ¬HoldsOpener tag.toList ∧
      ∀ entry ∈ attrs.entries, ¬HoldsOpener entry.1.toList ∧ ¬HoldsOpener entry.2.toList) :
    Commented (element tag attrs [] true).write (element tag attrs [] true).write := by
  have hclose : TagClose (if tag ∈ voidTags then ['>'] else ['/', '>']) := by
    split_ifs
    · exact .inl rfl
    · exact .inr rfl
  exact commented_of_quiet (quiet_writeTag htag hmark hclose)

/-- The body of a script is quiet together with the closing tag behind it, and has no comments. -/
theorem commented_body {tag : String} {children : List Node} (hmark : ¬HoldsOpener tag.toList)
    (hbody : IsBody tag children) (hmarks : Everywhere (fun n _ => n.MarksNoComment) children) :
    Commented (writeAll children ++ '<' :: '/' :: (tag.toList ++ ['>']))
      (writeAll (dropAllComments children) ++ '<' :: '/' :: (tag.toList ++ ['>'])) := by
  obtain rfl | ⟨data, rfl, -⟩ := hbody
  · exact commented_of_quiet (quiet_endTag hmark (by decide))
  · refine commented_of_quiet (quiet_endTag hmark ?_)
    rw [writeAll, writeAll, write, List.append_nil]
    exact hmarks.1 rfl

/-- The markup of nodes that readers build is that of the nodes without their comments, with the
    comments put in. -/
theorem commented_writeAll {ns : List Node} (h : ∀ n ∈ ns, n.IsRead)
    (hmarks : Everywhere (fun n _ => n.MarksNoComment) ns) :
    Commented (writeAll ns) (writeAll (dropAllComments ns)) := by
  have hread := readableAll_iff.2 h
  clear h
  induction ns using forest_induction with
  | nil => exact .nil
  | text data raw ns ih =>
    obtain ⟨hmark, -, hmarks⟩ := hmarks
    rw [writeAll, dropAllComments, dropComments, List.singleton_append, writeAll]
    refine .quiet ?_ (ih hmarks hread.2)
    cases raw with
    | true => exact quiet_declared (hread.1 rfl) (hmark rfl)
    | false => exact quiet_of_not_mem (lt_not_mem_escape data.toList)
  | comment data ns ih =>
    obtain ⟨⟨hgt, hdash⟩, -, hmarks⟩ := hmarks
    rw [writeAll, dropAllComments, dropComments, List.nil_append, write, List.append_assoc,
      List.append_assoc]
    exact .comment (not_closer_of_marks hread.1 hgt hdash) (ih hmarks hread.2)
  | element tag attrs children void ns ihc ih =>
    obtain ⟨hmark, hbelow, hmarks⟩ := hmarks
    obtain ⟨⟨hnamed, hempty, -, hchildren⟩, hns⟩ := hread
    rw [writeAll, dropAllComments, dropComments, List.singleton_append, writeAll]
    refine .append ?_ (ih hmarks hns)
    cases void with
    | true =>
      obtain rfl := hempty rfl
      exact commented_voidElement hnamed.tag hmark
    | false =>
      rw [write_element, write_element]
      refine .quiet (quiet_writeTag hnamed.tag hmark (.inl rfl)) ?_
      by_cases hraw : tag ∈ rawTags
      · rw [if_pos ⟨rfl, hraw⟩] at hchildren
        exact commented_body hmark.1 hchildren hbelow
      · rw [if_neg fun h => hraw h.2] at hchildren
        exact (ihc hbelow hchildren).append
          (commented_of_quiet (quiet_endTag (a := []) hmark.1 (by decide)))
  | fragment children ns ihc ih => exact hread.1.elim

/-- Cutting comments out of the markup of nodes that were read from a text leaves the markup of the
    nodes without their comments. -/
theorem stripComments_write_of_parse {text : String} {ns : List Node} (h : parse text = .ok ns)
    (hmarks : Everywhere (fun n _ => n.MarksNoComment) ns) :
    stripComments (fragment ns).write = (fragment (dropAllComments ns)).write := by
  rw [write_fragment, write_fragment]
  exact stripComments_of_commented (commented_writeAll (isRead_of_parse h) hmarks)

/-- Comments in a row, in an element and behind it, with dashes in the last one. -/
theorem stripComments_write_of_parse_document :
    parse "<!--a--><!--<b>--><p title='c -->'>d<!--e--></p><script>f</script><!--g---->" =
      .ok [.comment "a", .comment "<b>", .element "p" (.ofList [("title", "c -->")])
        [.text "d" false, .comment "e"] false,
        .element "script" .empty [.text "f" true] false, .comment "g--"] ∧
    stripComments (fragment [.comment "a", .comment "<b>",
      .element "p" (.ofList [("title", "c -->")]) [.text "d" false, .comment "e"] false,
      .element "script" .empty [.text "f" true] false, .comment "g--"]).write =
      (fragment (dropAllComments [.comment "a", .comment "<b>",
        .element "p" (.ofList [("title", "c -->")]) [.text "d" false, .comment "e"] false,
        .element "script" .empty [.text "f" true] false, .comment "g--"])).write := by
  have hread : parse "<!--a--><!--<b>--><p title='c -->'>d<!--e--></p><script>f</script><!--g---->" =
      .ok [.comment "a", .comment "<b>", .element "p" (.ofList [("title", "c -->")])
        [.text "d" false, .comment "e"] false,
        .element "script" .empty [.text "f" true] false, .comment "g--"] := rfl
  refine ⟨hread, stripComments_write_of_parse hread ⟨⟨by decide, by decide⟩, trivial,
    ⟨by decide, by decide⟩, trivial, ⟨by decide, by decide⟩, ?_,
    ⟨by decide, by decide⟩, ?_, ⟨by decide, by decide⟩, trivial, trivial⟩⟩
  · exact ⟨nofun, trivial, ⟨by decide, by decide⟩, trivial, trivial⟩
  · exact ⟨fun _ => by decide, trivial, trivial⟩

/-- What looks like a comment in the value of an attribute is cut out of it. -/
theorem not_stripComments_write_of_parse : ¬∀ (text : String) (ns : List Node), parse text = .ok ns →
    stripComments (fragment ns).write = (fragment (dropAllComments ns)).write := by
  intro h
  have hread : parse "<a title=\"<!--x-->\"></a>" =
      .ok [.element "a" (.ofList [("title", "<!--x-->")]) [] false] := rfl
  exact absurd (h _ _ hread) (by decide)

end Node

end Stencil
