import Stencil.Proofs.Markup.Reading

/-!
# Bodies of scripts and style sheets

The body of a script or a style sheet is read in pieces: the text before what looks like a closing tag,
and this look-alike itself if it is none. No closing tag is in the pieces put together. None starts in
the text before a look-alike, as the reader would have stopped there, none is the look-alike, and none
reaches over its end, as a right angle bracket is only at the end of a closing tag.

* `holdsClosing_append`: a closing tag does not reach over a right angle bracket;
* `bodyStep_readRawStep?`: the pieces of one step.
-/

namespace Stencil.Markup

/-! ### Closing tags in a text -/

/-- A text is the closing tag of a name, with letters of any case and blanks around the name. -/
def IsClosing (tag s : List Char) : Prop :=
  ∃ blanks name blanks', s = '<' :: '/' :: (blanks ++ (name ++ (blanks' ++ ['>']))) ∧
    Text.isBlank blanks = true ∧ Text.isBlank blanks' = true ∧ name.map Char.toLower = tag

theorem holdsClosing_iff {tag s : List Char} :
    HoldsClosing tag s ↔ ∃ before closing after, s = before ++ (closing ++ after) ∧
      IsClosing tag closing := by
  constructor
  · rintro ⟨before, blanks, name, blanks', after, rfl, h⟩
    exact ⟨before, _, after, by simp, blanks, name, blanks', rfl, h⟩
  · rintro ⟨before, closing, after, rfl, blanks, name, blanks', rfl, h⟩
    exact ⟨before, blanks, name, blanks', after, by simp, h⟩

/-- What may stand in letters of any case for a character of a name. -/
theorem of_toLower {c : Char} (h : isNameChar c.toLower = true) :
    foldLetter c = c.toLower ∧ isEndTagChar c = true := by
  have hascii : c.toNat < 128 := by
    by_cases hupper : c.val ≥ 'A'.val ∧ c.val ≤ 'Z'.val
    · have : c.toNat ≤ 'Z'.toNat := hupper.2
      have : 'Z'.toNat = 90 := rfl
      omega
    · have hlower : c.toLower = c := dif_neg hupper
      exact toNat_lt_of_isNameChar (hlower ▸ h)
  have hend : isEndTagChar c = true :=
    Text.forall_ascii (P := fun c => isNameChar c.toLower = true → isEndTagChar c = true)
      (by decide) hascii h
  exact ⟨foldLetter_of_isEndTagChar hend, hend⟩

theorem isEndTagChar_of_isSpace {c : Char} (h : Text.isSpace c = true) : isEndTagChar c = false := by
  by_contra hnot
  have hascii := toNat_lt_of_isEndTagChar (by simpa using hnot)
  exact hnot (Text.forall_ascii (P := fun c => Text.isSpace c = true → isEndTagChar c = false)
    (by decide) hascii h)

theorem exactEndTag?_blanks {blanks : List Char} (hb : Text.isBlank blanks = true) {c : Char}
    (hc : isLetter c = true) (s : List Char) :
    exactEndTag? (blanks ++ c :: s) = exactEndTag? (c :: s) := by
  have hstops := Text.stops_cons (isSpace_of_isLetter hc) s
  rw [exactEndTag?, exactEndTag?, Text.dropWhile_append_of_stops (List.all_eq_true.1 hb) hstops,
    Text.dropWhile_of_stops hstops]

section

variable {tag closing : List Char} (htag : isName tag = true) (h : IsClosing tag closing)

include htag h

/-- A closing tag is found where it stands. -/
theorem afterRawTag?_of_isClosing (rest : List Char) :
    afterRawTag? tag (closing ++ rest) = some rest := by
  obtain ⟨blanks, name, blanks', rfl, hb, hb', hname⟩ := h
  have hfold : name.map foldLetter = tag := by
    rw [← hname]
    exact List.map_congr_left fun c hc =>
      (of_toLower (isNameChar_of_mem htag (hname ▸ List.mem_map_of_mem hc))).1
  have := afterRawTag?_eq_some htag hb hb' hfold rest
  simpa using this

/-- A closing tag holds nothing else than its name. -/
theorem exactEndTag?_of_isClosing : exactEndTag? (closing.drop 2) ≠ none := by
  obtain ⟨blanks, name, blanks', rfl, hb, hb', hname⟩ := h
  have hchar : ∀ c ∈ name, isNameChar c.toLower = true := fun c hc =>
    isNameChar_of_mem htag (hname ▸ List.mem_map_of_mem hc)
  cases name with
  | nil =>
    subst hname
    simp [isName] at htag
  | cons c name =>
    have hletter : isLetter c = true := by
      subst hname
      simp only [List.map_cons, isName, Bool.and_eq_true] at htag
      have hascii := toNat_lt_of_isEndTagChar (of_toLower (hchar c List.mem_cons_self)).2
      exact Text.forall_ascii (P := fun c => ('a' ≤ c.toLower && c.toLower ≤ 'z') = true →
        isLetter c = true) (by decide) hascii (by simpa using htag.1)
    have hend : ∀ d ∈ name, isEndTagChar d = true := fun d hd =>
      (of_toLower (hchar d (List.mem_cons_of_mem c hd))).2
    have hstops : Text.Stops isEndTagChar blanks' := fun d hd =>
      isEndTagChar_of_isSpace (List.all_eq_true.1 hb' d (List.mem_of_mem_head? hd))
    have hgt : Text.Stops Text.isSpace ('>' :: ([] : List Char)) := Text.stops_cons (by decide) []
    have hcons := exactEndTag?_cons hletter (name ++ blanks') []
    rw [Text.dropWhile_append_of_stops hend hstops,
      Text.dropWhile_append_of_stops (List.all_eq_true.1 hb') hgt, List.append_assoc] at hcons
    have hblanks := exactEndTag?_blanks hb hletter (name ++ (blanks' ++ ['>']))
    rw [hcons] at hblanks
    rw [List.drop_succ_cons, List.drop_succ_cons, List.drop_zero, List.cons_append, hblanks]
    exact Option.some_ne_none _

end

/-- What looks like a closing tag starts and ends with angle brackets, and has none between them. -/
theorem exists_of_afterRawTag?_brackets {tag s rest : List Char} (htag : isName tag = true)
    (h : afterRawTag? tag s = some rest) :
    ∃ inside, s = '<' :: (inside ++ '>' :: rest) ∧ '<' ∉ inside ∧ '>' ∉ inside := by
  obtain ⟨blanks, name, blanks', rfl, hb, hb', hname⟩ := exists_of_afterRawTag? h
  have hchar : ∀ c ∈ name, c ≠ '<' ∧ c ≠ '>' := fun c hc =>
    (of_foldLetter (isNameChar_of_mem htag (hname ▸ List.mem_map_of_mem hc))).2
  have hblank : ∀ {a : List Char}, Text.isBlank a = true → '<' ∉ a ∧ '>' ∉ a := fun ha =>
    ⟨fun hm => absurd (List.all_eq_true.1 ha '<' hm) (by decide),
      fun hm => absurd (List.all_eq_true.1 ha '>' hm) (by decide)⟩
  refine ⟨'/' :: (blanks ++ (name ++ blanks')), by simp, ?_, ?_⟩
  · simp only [List.mem_cons, List.mem_append, not_or]
    exact ⟨by decide, (hblank hb).1, fun hm => (hchar _ hm).1 rfl, (hblank hb').1⟩
  · simp only [List.mem_cons, List.mem_append, not_or]
    exact ⟨by decide, (hblank hb).2, fun hm => (hchar _ hm).2 rfl, (hblank hb').2⟩

theorem exists_of_isClosing {tag closing : List Char} (htag : isName tag = true)
    (h : IsClosing tag closing) :
    ∃ inside, closing = '<' :: (inside ++ ['>']) ∧ '<' ∉ inside ∧ '>' ∉ inside := by
  have := afterRawTag?_of_isClosing htag h []
  rw [List.append_nil] at this
  exact exists_of_afterRawTag?_brackets htag this

/-- A closing tag does not reach over a right angle bracket. -/
theorem holdsClosing_append {tag a s : List Char} (htag : isName tag = true)
    (ha : a = [] ∨ ∃ b, a = b ++ ['>']) (h : HoldsClosing tag (a ++ s)) :
    HoldsClosing tag a ∨ HoldsClosing tag s := by
  obtain ⟨before, closing, after, hsplit, hclosing⟩ := holdsClosing_iff.1 h
  rcases List.append_eq_append_iff.1 hsplit with ⟨m, rfl, rfl⟩ | ⟨m, hm, hsplit⟩
  · exact .inr (holdsClosing_iff.2 ⟨m, closing, after, rfl, hclosing⟩)
  · rcases List.append_eq_append_iff.1 hsplit with ⟨m', rfl, rfl⟩ | ⟨m', hclose, rfl⟩
    · exact .inl (holdsClosing_iff.2 ⟨before, closing, m', hm, hclosing⟩)
    · -- The tag starts in the first text, at whose end is a bracket, so this is its end.
      obtain ⟨inside, heq, -, hgt⟩ := exists_of_isClosing htag hclosing
      rcases List.eq_nil_or_concat m with rfl | ⟨m, c, rfl⟩
      · refine .inr (holdsClosing_iff.2 ⟨[], closing, after, ?_, hclosing⟩)
        rw [hclose, List.nil_append, List.nil_append]
      · rw [List.concat_eq_append] at hm hclose
        obtain rfl : c = '>' := by
          rw [← List.append_assoc] at hm
          obtain rfl | ⟨b, rfl⟩ := ha
          · exact absurd hm (List.append_ne_nil_of_right_ne_nil _ (List.cons_ne_nil c [])).symm
          · exact (List.cons.inj (List.append_inj' hm rfl).2).1.symm
        have hends : m ++ '>' :: m' = '<' :: inside ++ ['>'] := by
          rw [← List.cons_append] at heq
          rw [← heq, hclose, List.append_assoc]
          rfl
        obtain ⟨t, -, ht⟩ := Text.exists_of_append_eq (by simp [hgt]) hends
        obtain rfl : m' = [] := by
          cases t with
          | nil => exact (List.cons.inj ht).2.symm
          | cons d t => simp at ht
        exact .inl (holdsClosing_iff.2 ⟨before, closing, [], by rw [hm, hclose, List.append_nil,
          List.append_nil], hclosing⟩)

/-! ### Steps in a body -/

/-- The events of one step in the body of a script or a style sheet: texts without a closing tag, and
    the closing tag, or else a right angle bracket at the end of the texts. -/
inductive BodyStep (tag : String) : (events : List Event) → (raw : Option String) → Prop where
  | closed {texts : List (List Char)} : (∀ t ∈ texts, t ≠ []) →
      ¬HoldsClosing tag.toList texts.flatten → BodyStep tag (textEvents texts ++ [.endTag tag]) none
  | goesOn {texts : List (List Char)} : (∀ t ∈ texts, t ≠ []) →
      ¬HoldsClosing tag.toList texts.flatten → (∃ s, texts.flatten = s ++ ['>']) →
        BodyStep tag (textEvents texts) (some tag)

/-- No closing tag starts before the first place of what looks like one. -/
theorem ne_of_first {tag before t : List Char} (htag : isName tag = true)
    (hfirst : ∀ u, u ≠ [] → u <:+ before → afterRawTag? tag (u ++ t) = none) {u closing : List Char}
    (hu : u ≠ []) (hsuffix : u <:+ before) (hclosing : IsClosing tag closing) (after : List Char) :
    u ++ t ≠ closing ++ after := by
  intro heq
  have := hfirst u hu hsuffix
  rw [heq, afterRawTag?_of_isClosing htag hclosing] at this
  cases this

theorem not_holdsClosing_of_first {tag before t : List Char} (htag : isName tag = true)
    (hfirst : ∀ u, u ≠ [] → u <:+ before → afterRawTag? tag (u ++ t) = none) :
    ¬HoldsClosing tag before := by
  intro h
  obtain ⟨b, closing, after, rfl, hclosing⟩ := holdsClosing_iff.1 h
  obtain ⟨inside, rfl, -⟩ := exists_of_isClosing htag hclosing
  exact ne_of_first htag hfirst (List.cons_ne_nil _ _) ⟨b, rfl⟩ hclosing (after ++ t) (by simp)

/-- A look-alike has its left bracket at its start and its right one at its end only, so no closing tag
    is a part of it. -/
theorem not_holdsClosing_brackets {tag inside : List Char} (htag : isName tag = true)
    (hlt : '<' ∉ inside) (hgt : '>' ∉ inside) (hend : exactEndTag? ((inside ++ ['>']).drop 1) = none) :
    ¬HoldsClosing tag ('<' :: (inside ++ ['>'])) := by
  intro h
  obtain ⟨before, closing, after, hsplit, hclosing⟩ := holdsClosing_iff.1 h
  obtain ⟨inside', hbrackets, -, hgt'⟩ := exists_of_isClosing htag hclosing
  cases before with
  | nil =>
    rw [List.nil_append, hbrackets, List.cons_append, List.append_assoc] at hsplit
    obtain ⟨t, rfl, ht⟩ := Text.exists_of_append_eq hgt' (List.cons.inj hsplit).2
    obtain rfl : t = [] := by
      cases t with
      | nil => rfl
      | cons c t =>
        obtain rfl := (List.cons.inj ht).1
        simp at hgt
    rw [List.append_nil] at hend
    exact exactEndTag?_of_isClosing htag hclosing (by rw [hbrackets]; exact hend)
  | cons c before =>
    have hmem : '<' ∈ inside ++ ['>'] := by
      rw [(List.cons.inj hsplit).2, hbrackets]
      simp
    simp [hlt] at hmem

/-- No closing tag starts in the text before the first look-alike, and none is the look-alike. -/
theorem not_holdsClosing_lookalike {tag before inside rest : List Char} (htag : isName tag = true)
    (hfirst : ∀ u, u ≠ [] → u <:+ before →
      afterRawTag? tag (u ++ '<' :: (inside ++ '>' :: rest)) = none)
    (hlt : '<' ∉ inside) (hgt : '>' ∉ inside) (hend : exactEndTag? ((inside ++ ['>']).drop 1) = none) :
    ¬HoldsClosing tag (before ++ '<' :: (inside ++ ['>'])) := by
  intro h
  obtain ⟨b, closing, after, hsplit, hclosing⟩ := holdsClosing_iff.1 h
  have hlook := not_holdsClosing_brackets htag hlt hgt hend
  rcases List.append_eq_append_iff.1 hsplit with ⟨m, -, hm⟩ | ⟨m, rfl, hm⟩
  · exact hlook (holdsClosing_iff.2 ⟨m, closing, after, hm, hclosing⟩)
  · cases m with
    | nil => exact hlook (holdsClosing_iff.2 ⟨[], closing, after, hm.symm, hclosing⟩)
    | cons c m =>
      refine ne_of_first htag hfirst (List.cons_ne_nil c m) ⟨b, rfl⟩ hclosing (after ++ rest) ?_
      rw [← List.append_assoc closing, hm]
      simp

/-- A step in a body passes over text without a closing tag. -/
theorem bodyStep_readRawStep? {tag : String} (htag : isName tag.toList = true) {s : List Char}
    {step : Step} (h : readRawStep? tag s = some step) : BodyStep tag step.events step.raw := by
  obtain ⟨⟨before, rest⟩, hcut, hstep⟩ := Option.map_eq_some_iff.1 h
  obtain ⟨t, rfl, ht, hfirst⟩ := Text.first_of_cutWhere hcut
  obtain ⟨inside, rfl, hlt, hgt⟩ := exists_of_afterRawTag?_brackets htag ht
  have hclosing := Text.take_drop_append before ('<' :: (inside ++ ['>'])) rest
  simp only [List.cons_append, List.append_assoc, List.nil_append] at hclosing
  simp only [hclosing, ← textEvents_piece] at hstep
  have hne : ∀ t ∈ piece before, t ≠ [] := fun t => ne_nil_of_mem_piece
  split at hstep
  next =>
    subst hstep
    refine .closed hne ?_
    rw [flatten_piece]
    exact not_holdsClosing_of_first htag hfirst
  next hend =>
    subst hstep
    have hlook : (piece before ++ ['<' :: (inside ++ ['>'])]).flatten =
        before ++ '<' :: (inside ++ ['>']) := by
      rw [List.flatten_append, flatten_piece, List.flatten_singleton]
    have hevents : textEvents (piece before) ++ [.text (String.ofList ('<' :: (inside ++ ['>'])))] =
        textEvents (piece before ++ ['<' :: (inside ++ ['>'])]) := by
      rw [textEvents_append]
      rfl
    simp only [hevents]
    refine .goesOn (List.forall_mem_append.2 ⟨hne, List.forall_mem_singleton.2
      (List.cons_ne_nil _ _)⟩) ?_ ⟨before ++ '<' :: inside, by rw [hlook]; simp⟩
    rw [hlook]
    exact not_holdsClosing_lookalike htag hfirst hlt hgt hend

end Stencil.Markup
