import Stencil.Proofs.Markup.Delimited

/-!
# Events of a text

Whatever text it is given, a reader only makes events that are *sound*: the names of tags and
attributes are in lower case and of the characters that such names may have, and no text between two
marks has the mark at its end inside. A section that ends with two brackets is the one exception, as
what it ends with is not kept.

One step of the reader makes sound events, and starts the body of a script or a style sheet with its
last event or not at all (`StepSound`).

* `isSound_of_readDeclaration?`, `isSound_of_readInstruction?`, `isSound_of_readEndTag?`: what stands
  between two marks;
* `stepSound_readOpening`: opening tags;
* `stepSound_readStep`: a step outside of the bodies of scripts and style sheets.
-/

namespace Stencil.Markup

/-- A text starts with the name of a section that ends with two brackets. -/
def StartsSection (s : List Char) : Prop :=
  String.ofList ((s.takeWhile isSectionChar).map Char.toLower) ∈ sectionNames

/-- The names of a tag and of its attributes are such as readers make them. -/
structure IsNamed (tag : String) (entries : List (String × String)) : Prop where
  tag : IsTagName tag.toList
  entries : ∀ entry ∈ entries, IsAttributeName entry.1.toList

/-- An event outside of the bodies of scripts and style sheets is such as readers make it. -/
def Event.IsSound : Event → Prop
  | .startTag tag attrs => IsNamed tag attrs ∧ tag ∉ Node.rawTags
  | .selfClosing tag attrs => IsNamed tag attrs
  | .comment data => ¬HoldsDashes data.toList
  | .declaration data => startsDoctype data.toList = true ∧ '>' ∉ data.toList
  | .instruction data => '>' ∉ data.toList
  | .marked data =>
    StartsConditional data.toList ∧ ¬HoldsBracket data.toList ∨ StartsSection data.toList
  | .endTag _ => True
  | .text _ => True

/-- The events of a step are sound, or the last one starts the body of a script or a style sheet. -/
inductive StepSound : (events : List Event) → (raw : Option String) → Prop where
  | outside {events : List Event} : (∀ e ∈ events, e.IsSound) → StepSound events none
  | entering {events : List Event} {tag : String} {attrs : List (String × String)} :
      (∀ e ∈ events, e.IsSound) → IsNamed tag attrs → tag ∈ Node.rawTags →
        StepSound (events ++ [.startTag tag attrs]) (some tag)

/-- What comes first when nothing fails: the first computation has a result, and the second one goes on
    from it. -/
theorem exists_of_bind {ε α β : Type} {x : Except ε α} {f : α → Except ε β} {b : β}
    (h : x >>= f = .ok b) : ∃ a, x = .ok a ∧ f a = .ok b := by
  cases x with
  | error fault => cases h
  | ok a => exact ⟨a, rfl, h⟩

/-! ### What stands between two marks -/

theorem not_holdsDashes_of_not_mem {s : List Char} (h : '>' ∉ s) : ¬HoldsDashes s := by
  rintro ⟨before, blanks, after, rfl, -⟩
  simp at h

theorem afterDashes?_of_isBlank {blanks : List Char} (h : Text.isBlank blanks = true)
    (rest : List Char) : afterDashes? ('-' :: '-' :: (blanks ++ '>' :: rest)) = some rest := by
  have hgt : Text.Stops Text.isSpace ('>' :: rest) := Text.stops_cons (by decide) rest
  simp only [afterDashes?, Text.dropWhile_append_of_stops (List.all_eq_true.1 h) hgt]

theorem afterBracket?_of_isBlank {blanks : List Char} (h : Text.isBlank blanks = true)
    (rest : List Char) : afterBracket? (']' :: (blanks ++ '>' :: rest)) = some rest := by
  have hgt : Text.Stops Text.isSpace ('>' :: rest) := Text.stops_cons (by decide) rest
  simp only [afterBracket?, Text.dropWhile_append_of_stops (List.all_eq_true.1 h) hgt]

/-- The data of a comment does not hold the mark that ends it: the comment would have ended there. -/
theorem isSound_of_readComment? {s rest : List Char} {e : Event}
    (h : readComment? s = some (e, rest)) : e.IsSound := by
  obtain ⟨⟨data, rest'⟩, hcut, he⟩ := Option.map_eq_some_iff.1 h
  obtain ⟨rfl, rfl⟩ := Prod.mk.inj he
  obtain ⟨t, -, -, hfirst⟩ := Text.first_of_cutWhere hcut
  rw [Event.IsSound, String.toList_ofList]
  rintro ⟨before, blanks, after, rfl, hb⟩
  have := hfirst ('-' :: '-' :: (blanks ++ '>' :: after)) (List.cons_ne_nil _ _) ⟨before, rfl⟩
  rw [List.cons_append, List.cons_append, List.append_assoc, List.cons_append,
    afterDashes?_of_isBlank hb] at this
  cases this

theorem isSound_of_readInstruction? {s rest : List Char} {e : Event}
    (h : readInstruction? s = some (e, rest)) : e.IsSound := by
  obtain ⟨⟨data, rest'⟩, hcut, he⟩ := Option.map_eq_some_iff.1 h
  obtain ⟨rfl, rfl⟩ := Prod.mk.inj he
  rw [Event.IsSound, String.toList_ofList]
  exact Text.not_mem_of_cutAt hcut

/-- A text that starts as a document type does so up to the mark that ends it. -/
theorem startsDoctype_of_append {data rest : List Char}
    (h : startsDoctype (data ++ '>' :: rest) = true) : startsDoctype data = true := by
  have htake := eq_of_beq h
  by_cases hlength : 7 ≤ data.length
  · rwa [startsDoctype, List.take_append_of_le_length hlength] at h
  · have hmem : '>' ∈ ((data ++ '>' :: rest).take 7).map Char.toLower := by
      obtain ⟨n, hn⟩ : ∃ n, 7 = data.length + (n + 1) := ⟨6 - data.length, by omega⟩
      rw [hn, List.take_length_add_append, List.take_succ_cons, List.map_append]
      exact List.mem_append_right _ List.mem_cons_self
    rw [htake] at hmem
    exact absurd hmem (by decide)

/-- The name that a section starts with ends before its first bracket. -/
theorem takeWhile_of_bracket {data t : List Char} :
    (data ++ ']' :: t).takeWhile isSectionChar = data.takeWhile isSectionChar :=
  Text.takeWhile_append_cons (by decide) data t

theorem exists_of_afterBracket? {t rest : List Char} (h : afterBracket? t = some rest) :
    ∃ u, t = ']' :: u := by
  unfold afterBracket? at h
  split at h
  next u => exact ⟨u, rfl⟩
  next => cases h

theorem exists_of_afterBrackets? {t rest : List Char} (h : afterBrackets? t = some rest) :
    ∃ u, t = ']' :: u := by
  unfold afterBrackets? at h
  split at h
  next u => exact ⟨u, rfl⟩
  next => cases h

/-- Both kinds of sections end at a bracket, and start with the name that the whole text starts with. -/
theorem exists_of_map_marked {mark? : List Char → Option (List Char)}
    (hmark? : ∀ {t rest}, mark? t = some rest → ∃ u, t = ']' :: u) {s rest : List Char} {e : Event}
    (h : ((Text.cutWhere mark? s).map fun (data, rest) => (Event.marked (String.ofList data), rest)) =
      some (e, rest)) :
    ∃ data t, e = .marked (String.ofList data) ∧
      (∀ u, u ≠ [] → u <:+ data → mark? (u ++ t) = none) ∧
        s.takeWhile isSectionChar = data.takeWhile isSectionChar := by
  obtain ⟨⟨data, rest'⟩, hcut, he⟩ := Option.map_eq_some_iff.1 h
  obtain ⟨rfl, rfl⟩ := Prod.mk.inj he
  obtain ⟨t, rfl, hmark, hfirst⟩ := Text.first_of_cutWhere hcut
  obtain ⟨u, rfl⟩ := hmark? hmark
  exact ⟨data, _, rfl, hfirst, takeWhile_of_bracket⟩

theorem isSound_of_readMarked? {s rest : List Char} {e : Event}
    (h : readMarked? s = .ok (some (e, rest))) : e.IsSound := by
  unfold readMarked? at h
  cases s with
  | nil => cases h
  | cons c s =>
    simp only at h
    split_ifs at h with hletter hend hsection hconditional
    · cases h
    · obtain ⟨data, t, rfl, -, hname⟩ :=
        exists_of_map_marked exists_of_afterBrackets? (Except.ok.inj h)
      rw [Event.IsSound, String.toList_ofList, StartsSection, ← hname]
      exact .inr hsection
    · obtain ⟨data, t, rfl, hfirst, hname⟩ :=
        exists_of_map_marked exists_of_afterBracket? (Except.ok.inj h)
      rw [Event.IsSound, String.toList_ofList, StartsConditional, ← hname]
      refine .inl ⟨hconditional, ?_⟩
      rintro ⟨before, blanks, after, rfl, hb⟩
      have := hfirst (']' :: (blanks ++ '>' :: after)) (List.cons_ne_nil _ _) ⟨before, rfl⟩
      rw [List.cons_append, List.append_assoc, List.cons_append, afterBracket?_of_isBlank hb] at this
      cases this

theorem isSound_of_readDeclaration? {s rest : List Char} {e : Event}
    (h : readDeclaration? s = .ok (some (e, rest))) : e.IsSound := by
  unfold readDeclaration? at h
  split at h
  next => exact isSound_of_readComment? (Except.ok.inj h)
  next => exact isSound_of_readMarked? h
  next =>
    obtain ⟨⟨data, rest'⟩, hcut, he⟩ := Option.map_eq_some_iff.1 (Except.ok.inj h)
    obtain ⟨rfl, rfl⟩ := Prod.mk.inj he
    have hgt := Text.not_mem_of_cutAt hcut
    split_ifs with hdoctype
    · rw [Event.IsSound, String.toList_ofList]
      rw [Text.append_of_cutAt hcut] at hdoctype
      exact ⟨startsDoctype_of_append hdoctype, hgt⟩
    · rw [Event.IsSound, String.toList_ofList]
      exact not_holdsDashes_of_not_mem hgt

/-- What a closing tag is read as: a closing tag, or a comment of what it holds. -/
theorem isSound_of_readEndTag? {s rest : List Char} {e : Event}
    (h : readEndTag? s = some (some e, rest)) : e.IsSound := by
  unfold readEndTag? at h
  split at h
  next => cases h
  next inside after hcut =>
    split at h
    next => cases h; trivial
    next =>
      split at h
      next =>
        split_ifs at h
        · cases h
          trivial
        · cases h
        · cases h
          rw [Event.IsSound, String.toList_ofList]
          exact not_holdsDashes_of_not_mem (Text.not_mem_of_cutAt hcut)
      next => cases h

/-! ### Opening tags -/

/-- The name of an attribute as it stands in a tag, in letters of any case. -/
def IsRawName (s : List Char) : Prop :=
  ∃ c t, s = c :: t ∧ (c = '=' ∨ isAttributeChar c = true) ∧ ∀ d ∈ t, isAttributeChar d = true

/-- What lower case may bring in is neither a blank nor one of the marks that end names. -/
theorem of_isLowered {c : Char} (h : Text.IsLowered c) :
    isTagChar c = true ∧ isAttributeChar c = true := by
  have hne : ∀ d : Char, d.toNat < 0x61 → c ≠ d := by
    rintro d hd rfl
    rcases h.letter with ⟨ha, -⟩ | hc
    · have : 'a'.toNat ≤ c.toNat := ha
      have : 'a'.toNat = 0x61 := rfl
      omega
    · omega
  constructor
  · simp [isTagChar, hne]
  · simp [isAttributeChar, h.not_space, hne]

theorem isLetter_lowerChar {c : Char} (h : isLetter c = true) : isLetter (Text.lowerChar c) = true :=
  Text.forall_ascii (P := fun c => isLetter c = true → isLetter (Text.lowerChar c) = true)
    (by decide) (toNat_lt_of_isLetter h) h

/-- The lower case of what is taken for the name of a tag is a name. -/
theorem isTagName_lowerCase {c : Char} {s : List Char} (hc : isLetter c = true)
    (hs : ∀ d ∈ c :: s, isTagChar d = true) : IsTagName (Text.lowerCase (c :: s)) := by
  have hascii := toNat_lt_of_isLetter hc
  refine ⟨⟨_, _, Text.lowerCase_cons (by omega) (by omega) s, isLetter_lowerChar hc⟩, ?_,
    Text.lowerCase_lowerCase _⟩
  exact Text.forall_mem_lowerCaseAfter hs (fun d hd => (of_isLowered hd).1) []

/-- The lower case of what is taken for the name of an attribute is a name. -/
theorem isAttributeName_lowerCase {s : List Char} (h : IsRawName s) :
    IsAttributeName (Text.lowerCase s) := by
  refine ⟨?_, Text.lowerCase_lowerCase s⟩
  have hall : ∀ {t : List Char} (before : List Char), (∀ d ∈ t, isAttributeChar d = true) →
      ∀ d ∈ Text.lowerCaseAfter before t, isAttributeChar d = true := fun before ht =>
    Text.forall_mem_lowerCaseAfter ht (fun d hd => (of_isLowered hd).2) before
  obtain ⟨c, t, rfl, rfl | hc, ht⟩ := h
  · exact ⟨_, _, Text.lowerCase_cons (by decide) (by decide) t, .inl (by decide), hall _ ht⟩
  · -- Lower case makes one character or two of the first one.
    have hlower := hall (t := c :: t) [] (List.forall_mem_cons.2 ⟨hc, ht⟩)
    cases heq : Text.lowerCase (c :: t) with
    | nil =>
      rw [Text.lowerCase, Text.lowerCaseAfter] at heq
      split_ifs at heq <;> cases heq
    | cons d u =>
      rw [Text.lowerCase] at heq
      rw [heq, List.forall_mem_cons] at hlower
      exact ⟨d, u, rfl, .inr hlower.1, hlower.2⟩

theorem isRawName_of_readAttribute? {before last : Char} {s name value rest : List Char}
    (h : readAttribute? before s = some ((name, value), last, rest)) : IsRawName name := by
  cases s with
  | nil => cases h
  | cons c s =>
    rw [readAttribute?] at h
    split_ifs at h with hstart
    simp only [Option.some.injEq, Prod.mk.injEq] at h
    obtain ⟨⟨rfl, -⟩, -⟩ := h
    refine ⟨c, _, rfl, ?_, fun d hd => List.mem_takeWhile_imp hd⟩
    simp only [startsAttribute, Bool.and_eq_true, Bool.not_eq_true', Bool.or_eq_false_iff] at hstart
    obtain ⟨-, ⟨hspace, hslash⟩, hgt⟩ := hstart
    by_cases hequals : c = '='
    · exact .inl hequals
    · simp [isAttributeChar, hspace, hslash, hgt, hequals]

theorem isRawName_of_readAttributes {fuel : Nat} {before : Char} {s : List Char} :
    ∀ attr ∈ (readAttributes fuel before s).1, IsRawName attr.1 := by
  induction fuel generalizing before s with
  | zero => exact fun attr hattr => absurd hattr List.not_mem_nil
  | succ fuel ih =>
    rw [readAttributes]
    split
    next => exact fun attr hattr => absurd hattr List.not_mem_nil
    next attr last rest hread =>
      obtain ⟨name, value⟩ := attr
      exact List.forall_mem_cons.2 ⟨isRawName_of_readAttribute? hread, ih⟩

theorem isAttributeName_of_mapM {attrs : List (List Char × List Char)}
    {entries : List (String × String)} (hattrs : ∀ attr ∈ attrs, IsRawName attr.1)
    (h : attrs.mapM finishAttribute = .ok entries) :
    ∀ entry ∈ entries, IsAttributeName entry.1.toList := by
  induction attrs generalizing entries with
  | nil =>
    cases h
    exact fun entry hentry => absurd hentry List.not_mem_nil
  | cons attr attrs ih =>
    obtain ⟨hattr, hattrs⟩ := List.forall_mem_cons.1 hattrs
    rw [List.mapM_cons, finishAttribute] at h
    obtain ⟨entry, hentry, h⟩ := exists_of_bind h
    obtain ⟨rest, hrest, h⟩ := exists_of_bind h
    obtain ⟨value, -, hvalue⟩ := exists_of_bind hentry
    cases hvalue
    cases h
    refine List.forall_mem_cons.2 ⟨?_, ih hattrs hrest⟩
    rw [String.toList_ofList]
    exact isAttributeName_lowerCase hattr

/-- A tag that starts with a letter is named, and so are its attributes. -/
theorem isNamed_of_readTag {c : Char} (hc : isLetter c = true) {s : List Char}
    {entries : List (String × String)}
    (hentries : (readTag (c :: s)).2.1.mapM finishAttribute = .ok entries) :
    IsNamed (String.ofList (Text.lowerCase (readTag (c :: s)).1)) entries := by
  have hname : isTagChar c = true :=
    Text.forall_ascii (P := fun c => isLetter c = true → isTagChar c = true) (by decide)
      (toNat_lt_of_isLetter hc) hc
  have htag : IsTagName (Text.lowerCase ((c :: s).takeWhile isTagChar)) := by
    rw [List.takeWhile_cons, if_pos hname]
    exact isTagName_lowerCase hc
      (List.forall_mem_cons.2 ⟨hname, fun d hd => List.mem_takeWhile_imp hd⟩)
  have hattrs : ∀ attr ∈ (readTag (c :: s)).2.1, IsRawName attr.1 := by
    rw [readTag]
    exact isRawName_of_readAttributes
  refine ⟨?_, isAttributeName_of_mapM hattrs hentries⟩
  rw [String.toList_ofList]
  exact htag

/-- An opening tag makes one sound event, and may start the body of a script or a style sheet. -/
theorem stepSound_readOpening {c : Char} (hc : isLetter c = true) {s : List Char} {step : Step}
    (h : readOpening (c :: s) = .ok (some step)) : StepSound step.events step.raw := by
  unfold readOpening at h
  simp only at h
  split at h
  next rest hend =>
    split at h
    next entries hentries =>
      cases h
      have hnamed := isNamed_of_readTag hc hentries
      simp only
      split_ifs with hraw
      · exact @StepSound.entering [] _ _ (fun e he => absurd he List.not_mem_nil) hnamed hraw
      · exact .outside (List.forall_mem_singleton.2 ⟨hnamed, hraw⟩)
    next => cases h
  next rest hend =>
    split at h
    next entries hentries =>
      cases h
      exact .outside (List.forall_mem_singleton.2 (isNamed_of_readTag hc hentries))
    next => cases h
  next => cases h
  next rest hend =>
    split at h
    next entries hentries =>
      cases h
      exact .outside (List.forall_mem_singleton.2 trivial)
    next => cases h

/-! ### Steps -/

theorem stepSound_single {e : Event} (h : e.IsSound) : StepSound [e] none :=
  .outside (List.forall_mem_singleton.2 h)

/-- A construct makes sound events. -/
theorem stepSound_readConstruct {s : List Char} {step : Step}
    (h : readConstruct s = .ok (some step)) : StepSound step.events step.raw := by
  unfold readConstruct at h
  simp only at h
  split at h
  next => cases h; exact stepSound_single trivial
  next rest =>
    obtain ⟨⟨found, rest'⟩, hread, rfl⟩ := Option.map_eq_some_iff.1 (Except.ok.inj h)
    cases found with
    | none => exact .outside fun e he => absurd he List.not_mem_nil
    | some e => exact stepSound_single (isSound_of_readEndTag? hread)
  next rest =>
    obtain ⟨found, hread, h⟩ := exists_of_bind (h : readDeclaration? rest >>= _ = .ok (some step))
    obtain ⟨⟨e, rest'⟩, rfl, rfl⟩ := Option.map_eq_some_iff.1 (Except.ok.inj h)
    exact stepSound_single (isSound_of_readDeclaration? hread)
  next rest =>
    obtain ⟨⟨e, rest'⟩, hread, rfl⟩ := Option.map_eq_some_iff.1 (Except.ok.inj h)
    exact stepSound_single (isSound_of_readInstruction? hread)
  next c rest =>
    split_ifs at h with hc
    · exact stepSound_readOpening hc h
    · cases h
      exact stepSound_single trivial

theorem isSound_of_textEvent {s : List Char} {e : Event} (h : textEvent s = .ok e) : e.IsSound := by
  unfold textEvent at h
  split at h
  next => cases h; trivial
  next => cases h

theorem StepSound.append {texts events : List Event} {raw : Option String}
    (htexts : ∀ e ∈ texts, e.IsSound) (h : StepSound events raw) : StepSound (texts ++ events) raw := by
  cases h with
  | outside hevents => exact .outside (List.forall_mem_append.2 ⟨htexts, hevents⟩)
  | entering hevents hnamed hraw =>
    rw [← List.append_assoc]
    exact .entering (List.forall_mem_append.2 ⟨htexts, hevents⟩) hnamed hraw

/-- A construct, or the text that it is if it is incomplete, makes sound events behind those of the text
    before it. -/
theorem stepSound_construct {inside : List Char} {texts : List Event}
    (htexts : ∀ e ∈ texts, e.IsSound) {step : Step}
    (h : (readConstruct inside >>= fun found =>
      match found with
      | some step => pure { step with events := texts ++ step.events }
      | none => textEvent (incompleteText inside).1 >>= fun e =>
        pure ⟨texts ++ [e], none, (incompleteText inside).2⟩) = Except.ok step) :
    StepSound step.events step.raw := by
  obtain ⟨found, hread, h⟩ := exists_of_bind h
  cases found with
  | some construct =>
    cases h
    exact (stepSound_readConstruct hread).append htexts
  | none =>
    obtain ⟨e, hincomplete, h⟩ := exists_of_bind h
    cases h
    exact (stepSound_single (isSound_of_textEvent hincomplete)).append htexts

/-- A step outside of the bodies of scripts and style sheets makes sound events. -/
theorem stepSound_readStep {s : List Char} {step : Step} (h : readStep s = .ok step) :
    StepSound step.events step.raw := by
  unfold readStep at h
  simp only at h
  split at h
  next =>
    obtain ⟨e, hbefore, h⟩ := exists_of_bind h
    cases h
    exact stepSound_single (isSound_of_textEvent hbefore)
  next c inside hdrop =>
    -- The text before the construct makes an event of its own, if there is one.
    split_ifs at h with hnil
    · exact stepSound_construct (fun e he => absurd he List.not_mem_nil) h
    · obtain ⟨e, he, h⟩ := exists_of_bind h
      exact stepSound_construct (List.forall_mem_singleton.2 (isSound_of_textEvent he)) h

end Stencil.Markup
