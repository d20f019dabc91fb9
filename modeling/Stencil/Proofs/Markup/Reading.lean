import Stencil.Proofs.Markup.Delimited

/-!
# Reading markup piece by piece

Markup is read in steps whose number is bounded by its length. What a text is read as does not
depend on the bound, so the reading of a text can be put together from the readings of its pieces:
`Reads raw s events raw' rest` says that the reader, in the body of a script or outside of one
(`raw`), comes from `s` to `rest` over the given events, with as many steps left as `rest` can take.

* `Reads.trans`: two readings in a row;
* `read_of_reads`: a reading that leaves nothing gives the events of the whole text;
* `reads_text`, `reads_startTag`, `reads_selfClosing`, `reads_endTag`, `reads_comment`, `reads_body`
  and so on: every piece that is written is read as the event it was written for.
-/

namespace Stencil.Markup

/-- The reader comes from `s` to `rest` over `events`. -/
def Reads (raw : Option String) (s : List Char) (events : List Event) (raw' : Option String)
    (rest : List Char) : Prop :=
  ∀ fuel, s.length ≤ fuel → ∃ fuel', rest.length ≤ fuel' ∧
    readFrom fuel raw s = (readFrom fuel' raw' rest).map (events ++ ·)

theorem Reads.refl (raw : Option String) (s : List Char) : Reads raw s [] raw s := by
  intro fuel hfuel
  refine ⟨fuel, hfuel, ?_⟩
  cases readFrom fuel raw s <;> rfl

theorem Reads.trans {raw raw' raw'' : Option String} {s t u : List Char} {a b : List Event}
    (hs : Reads raw s a raw' t) (ht : Reads raw' t b raw'' u) : Reads raw s (a ++ b) raw'' u := by
  intro fuel hfuel
  obtain ⟨fuel', hfuel', h₁⟩ := hs fuel hfuel
  obtain ⟨fuel'', hfuel'', h₂⟩ := ht fuel' hfuel'
  refine ⟨fuel'', hfuel'', ?_⟩
  rw [h₁, h₂]
  cases readFrom fuel'' raw'' u with
  | error fault => rfl
  | ok events => exact congrArg Except.ok (List.append_assoc a b events).symm

theorem read_of_reads {s : List Char} {events : List Event} (h : Reads none s events none []) :
    read s = .ok events := by
  obtain ⟨fuel, -, hread⟩ := h s.length (Nat.le_refl _)
  have hnil : readFrom fuel none [] = .ok [] := by cases fuel <;> rfl
  rw [read, hread, hnil]
  exact congrArg Except.ok (List.append_nil events)

/-! ### Single steps -/

/-- A step that takes at least one character leaves fuel for what is left. -/
theorem reads_of_readFrom {raw : Option String} {s : List Char} {step : Step}
    (hlt : step.rest.length < s.length)
    (h : ∀ fuel, readFrom (fuel + 1) raw s =
      (readFrom fuel step.raw step.rest).map (step.events ++ ·)) :
    Reads raw s step.events step.raw step.rest := by
  intro fuel hfuel
  obtain ⟨fuel, rfl⟩ : ∃ n, fuel = n + 1 := ⟨fuel - 1, by omega⟩
  exact ⟨fuel, by omega, h fuel⟩

theorem reads_step {s : List Char} {step : Step} (hs : s ≠ []) (h : readStep s = .ok step)
    (hlt : step.rest.length < s.length) : Reads none s step.events step.raw step.rest := by
  obtain ⟨c, t, rfl⟩ := List.exists_cons_of_ne_nil hs
  refine reads_of_readFrom hlt fun fuel => ?_
  rw [readFrom, h]
  cases hrest : readFrom fuel step.raw step.rest <;> simp [bind, Except.bind, pure, Except.pure,
    Except.map, hrest]

theorem reads_rawStep {tag : String} {s : List Char} {step : Step} (hs : s ≠ [])
    (h : readRawStep? tag s = some step) (hlt : step.rest.length < s.length) :
    Reads (some tag) s step.events step.raw step.rest := by
  obtain ⟨c, t, rfl⟩ := List.exists_cons_of_ne_nil hs
  refine reads_of_readFrom hlt fun fuel => ?_
  rw [readFrom, h]
  cases hrest : readFrom fuel step.raw step.rest <;> simp [bind, Except.bind, pure, Except.pure,
    Except.map, hrest]

/-- What starts with a left angle bracket is read as a construct. -/
theorem readStep_construct {inside : List Char} {step : Step}
    (h : readConstruct inside = .ok (some step)) : readStep ('<' :: inside) = .ok step := by
  rw [readStep]
  simp [h, bind, Except.bind, pure, Except.pure]

theorem reads_construct {inside : List Char} {step : Step}
    (h : readConstruct inside = .ok (some step)) (hle : step.rest.length ≤ inside.length) :
    Reads none ('<' :: inside) step.events step.raw step.rest :=
  reads_step (List.cons_ne_nil _ _) (readStep_construct h)
    (by rw [List.length_cons]; exact Nat.lt_succ_of_le hle)

/-! ### Texts -/

/-- A text up to the next left angle bracket or to the end. -/
def AtBracket (rest : List Char) : Prop := rest = [] ∨ ∃ t, rest = '<' :: t

theorem AtBracket.cons (t : List Char) : AtBracket ('<' :: t) := .inr ⟨t, rfl⟩

theorem textEvent_escape (s : List Char) :
    textEvent (escape s) = .ok (.text (String.ofList s)) := by
  rw [textEvent, expandReferences_escape]

theorem takeWhile_escape (s : List Char) : (escape s).takeWhile (· != '<') = escape s :=
  takeWhile_of_forall fun _ hc => bne_iff_ne.2 fun h => lt_not_mem_escape s (h ▸ hc)

theorem readStep_text (s : List Char) :
    readStep (escape s) = .ok ⟨[.text (String.ofList s)], none, []⟩ := by
  rw [readStep]
  simp [takeWhile_escape, textEvent_escape, bind, Except.bind, pure, Except.pure]

/-- A text and the construct behind it are read in one step. -/
theorem readStep_text_append {s : List Char} (hs : s ≠ []) (t : List Char) :
    readStep (escape s ++ '<' :: t) = (readStep ('<' :: t)).map fun step =>
      { step with events := .text (String.ofList s) :: step.events } := by
  have htake : (escape s ++ '<' :: t).takeWhile (· != '<') = escape s :=
    Text.takeWhile_append_of_stops
      (fun c hc => bne_iff_ne.2 fun h => lt_not_mem_escape s (h ▸ hc))
      (Text.stops_cons (by decide) t)
  have htake' : ('<' :: t).takeWhile (· != '<') = [] :=
    Text.takeWhile_of_stops (Text.stops_cons (by decide) t)
  have hne : escape s ≠ [] := fun h => hs (escape_eq_nil.1 h)
  rw [readStep, readStep]
  simp only [htake, htake', List.drop_left, List.length_nil, List.drop_zero, textEvent_escape, hne,
    if_true, if_false, bind, Except.bind, pure, Except.pure]
  cases readConstruct t with
  | error fault => rfl
  | ok found =>
    cases found with
    | some step => rfl
    | none => cases textEvent (incompleteText t).1 <;> rfl

/-- A text is read up to the next bracket. -/
theorem reads_text {s : List Char} (hs : s ≠ []) {rest : List Char} (hrest : AtBracket rest) :
    Reads none (escape s ++ rest) [.text (String.ofList s)] none rest := by
  have hne : escape s ≠ [] := fun h => hs (escape_eq_nil.1 h)
  obtain rfl | ⟨t, rfl⟩ := hrest
  · rw [List.append_nil]
    exact reads_step hne (readStep_text s) (List.length_pos_iff.2 hne)
  · -- The reader takes the text and what starts behind it in one step.
    intro fuel hfuel
    obtain ⟨fuel, rfl⟩ : ∃ n, fuel = n + 1 :=
      ⟨fuel - 1, by rw [List.length_append, List.length_cons] at hfuel; omega⟩
    have hlength := List.length_pos_iff.2 hne
    refine ⟨fuel + 1, by rw [List.length_append] at hfuel; omega, ?_⟩
    obtain ⟨c, u, hcu⟩ := List.exists_cons_of_ne_nil hne
    have hstep := readStep_text_append hs t
    rw [hcu, List.cons_append] at hstep ⊢
    rw [readFrom, readFrom, hstep]
    cases readStep ('<' :: t) with
    | error fault => rfl
    | ok step =>
      cases hfrom : readFrom fuel step.raw step.rest <;>
        simp [bind, Except.bind, pure, Except.pure, Except.map, hfrom]

/-! ### Tags -/

theorem readConstruct_letter {c : Char} (hc : isLetter c = true) (s : List Char) :
    readConstruct (c :: s) = readOpening (c :: s) := by
  have hne : c ≠ '/' ∧ c ≠ '!' ∧ c ≠ '?' := by
    refine ⟨?_, ?_, ?_⟩ <;> rintro rfl <;> exact absurd hc (by decide)
  unfold readConstruct
  split
  · rename_i heq
    cases heq
  · rename_i heq
    exact absurd (List.cons.inj heq).1 hne.1
  · rename_i heq
    exact absurd (List.cons.inj heq).1 hne.2.1
  · rename_i heq
    exact absurd (List.cons.inj heq).1 hne.2.2
  · rename_i heq
    obtain ⟨rfl, rfl⟩ := List.cons.inj heq
    rw [if_pos hc]

section

variable {tag : String} (htag : IsTagName tag.toList) {entries : List (String × String)}
  {written : List Char} (hwritten : SpellsEntries entries written) (hentries : LegibleEntries entries)

include htag hwritten hentries

/-- A tag that is written is read as an opening tag or as one that ends with a slash. -/
theorem readConstruct_tag {close : List Char} (hclose : TagClose close) (rest : List Char) :
    readConstruct (tag.toList ++ (written ++ (close ++ rest))) =
      .ok (some (if close = ['>'] then
          ⟨[.startTag tag entries], if tag ∈ Node.rawTags then some tag else none, rest⟩
        else ⟨[.selfClosing tag entries], none, rest⟩)) := by
  obtain ⟨c, t, hct, hc⟩ := htag.letter
  have hread := readTag_append htag hwritten hentries hclose rest
  have hopen : readConstruct (tag.toList ++ (written ++ (close ++ rest))) =
      readOpening (tag.toList ++ (written ++ (close ++ rest))) := by
    rw [hct, List.cons_append, readConstruct_letter hc]
  rw [hopen, readOpening]
  simp only [hread, htag.lower, mapM_finishAttribute hentries.isAttributeName, String.ofList_toList]
  by_cases h : close = ['>']
  · simp only [if_pos h]
  · simp only [if_neg h]

theorem reads_startTag (rest : List Char) :
    Reads none ('<' :: (tag.toList ++ (written ++ '>' :: rest))) [.startTag tag entries]
      (if tag ∈ Node.rawTags then some tag else none) rest := by
  have h := readConstruct_tag htag hwritten hentries (.inl rfl) rest
  rw [if_pos rfl] at h
  exact reads_construct h (by simp only [List.length_append]; omega)

theorem reads_selfClosing (rest : List Char) :
    Reads none ('<' :: (tag.toList ++ (written ++ '/' :: '>' :: rest))) [.selfClosing tag entries]
      none rest := by
  have h := readConstruct_tag htag hwritten hentries (.inr rfl) rest
  rw [if_neg (by decide)] at h
  exact reads_construct h (by simp only [List.length_append]; omega)

omit hwritten hentries in
theorem reads_endTag (hpadded : ¬IsPadded tag.toList) (rest : List Char) :
    Reads none ('<' :: '/' :: (tag.toList ++ '>' :: rest)) [.endTag tag] none rest := by
  have hread : readConstruct ('/' :: (tag.toList ++ '>' :: rest)) =
      .ok (some ⟨[.endTag tag], none, rest⟩) := by
    simp only [readConstruct, readEndTag?_append htag hpadded, String.ofList_toList]
    rfl
  exact reads_construct hread (by simp only [List.length_cons, List.length_append]; omega)

end

/-! ### Texts that are written as they are -/

theorem reads_comment {data : List Char} (h : ¬HoldsDashes data) (rest : List Char) :
    Reads none ('<' :: '!' :: '-' :: '-' :: (data ++ '-' :: '-' :: '>' :: rest))
      [.comment (String.ofList data)] none rest := by
  have hread : readConstruct ('!' :: '-' :: '-' :: (data ++ '-' :: '-' :: '>' :: rest)) =
      .ok (some ⟨[.comment (String.ofList data)], none, rest⟩) := by
    simp only [readConstruct, readDeclaration?, readComment?_append h]
    rfl
  exact reads_construct hread (by simp only [List.length_cons, List.length_append]; omega)

theorem reads_doctype {data : List Char} (hdoctype : startsDoctype data = true) (h : '>' ∉ data)
    (rest : List Char) :
    Reads none ('<' :: '!' :: (data ++ '>' :: rest)) [.declaration (String.ofList data)] none
      rest := by
  have hread : readConstruct ('!' :: (data ++ '>' :: rest)) =
      .ok (some ⟨[.declaration (String.ofList data)], none, rest⟩) := by
    simp only [readConstruct, readDoctype_append hdoctype h]
    rfl
  exact reads_construct hread (by simp only [List.length_cons, List.length_append]; omega)

theorem reads_instruction {data : List Char} (h : '>' ∉ data) (rest : List Char) :
    Reads none ('<' :: '?' :: (data ++ '>' :: rest)) [.instruction (String.ofList data)] none
      rest := by
  have hread : readConstruct ('?' :: (data ++ '>' :: rest)) =
      .ok (some ⟨[.instruction (String.ofList data)], none, rest⟩) := by
    simp only [readConstruct, readInstruction?_append h]
    rfl
  exact reads_construct hread (by simp only [List.length_cons, List.length_append]; omega)

theorem reads_conditional {data : List Char} (hname : StartsConditional data)
    (h : ¬HoldsBracket data) (rest : List Char) :
    Reads none ('<' :: '!' :: '[' :: (data ++ ']' :: '>' :: rest))
      [.marked (String.ofList data)] none rest := by
  have hread : readConstruct ('!' :: '[' :: (data ++ ']' :: '>' :: rest)) =
      .ok (some ⟨[.marked (String.ofList data)], none, rest⟩) := by
    simp only [readConstruct, readDeclaration?, readConditional_append hname h]
    rfl
  exact reads_construct hread (by simp only [List.length_cons, List.length_append]; omega)

/-! ### Bodies -/

/-- The events of a text that is read in pieces. -/
def textEvents (texts : List (List Char)) : List Event :=
  texts.map fun t => .text (String.ofList t)

/-- A text as one piece, or as none if it is empty. -/
def piece (s : List Char) : List (List Char) := if s = [] then [] else [s]

theorem ne_nil_of_mem_piece {s t : List Char} (ht : t ∈ piece s) : t ≠ [] := by
  rw [piece] at ht
  split_ifs at ht with hs
  · exact absurd ht List.not_mem_nil
  · exact List.mem_singleton.1 ht ▸ hs

theorem flatten_piece (s : List Char) : (piece s).flatten = s := by
  rw [piece]
  split_ifs with hs
  · exact hs.symm
  · simp

theorem textEvents_append (as bs : List (List Char)) :
    textEvents (as ++ bs) = textEvents as ++ textEvents bs :=
  List.map_append

theorem textEvents_piece (s : List Char) :
    textEvents (piece s) = if s = [] then [] else [.text (String.ofList s)] := by
  rw [piece]
  split_ifs <;> rfl

/-- A body is read as texts that put together are the body, up to its closing tag. The induction is
    on the length of the body: what looks like a closing tag and is none cuts it. -/
theorem reads_body {tag : String} (htag : isName tag.toList = true) (rest : List Char)
    (body : List Char) (hbody : ¬HoldsClosing tag.toList body) :
    ∃ texts : List (List Char), (∀ t ∈ texts, t ≠ []) ∧ texts.flatten = body ∧
      Reads (some tag) (body ++ '<' :: '/' :: (tag.toList ++ '>' :: rest))
        (textEvents texts ++ [.endTag tag]) none rest := by
  induction hn : body.length using Nat.strongRecOn generalizing body with
  | ind n ih =>
    have hne : body ++ '<' :: '/' :: (tag.toList ++ '>' :: rest) ≠ [] := by simp
    cases hcut : Text.cutWhere (afterRawTag? tag.toList) body with
    | none =>
      -- Nothing in the body looks like its closing tag.
      have hlength : rest.length < (body ++ '<' :: '/' :: (tag.toList ++ '>' :: rest)).length := by
        simp only [List.length_cons, List.length_append]
        omega
      have hstep := readRawStep?_closing htag hcut rest
      rw [String.ofList_toList, ← textEvents_piece] at hstep
      exact ⟨piece body, fun t => ne_nil_of_mem_piece, flatten_piece body,
        by simpa using reads_rawStep hne hstep hlength⟩
    | some cut =>
      -- What looks like a closing tag is a piece between the text before it and what is left.
      obtain ⟨before, after⟩ := cut
      obtain ⟨middle, hmiddle, hsplit, hstep⟩ :=
        readRawStep?_lookalike htag hcut hbody ('/' :: (tag.toList ++ '>' :: rest))
      rw [String.ofList_toList, ← textEvents_piece] at hstep
      have hpos := List.length_pos_iff.2 hmiddle
      have hlt : after.length < body.length := by
        rw [hsplit]
        simp only [List.length_append]
        omega
      have hsuffix : after <:+ body := ⟨before ++ middle, by rw [hsplit, List.append_assoc]⟩
      obtain ⟨texts, htexts, hflat, hreads⟩ :=
        ih after.length (hn ▸ hlt) after (fun h => hbody (h.of_suffix hsuffix)) rfl
      have hfirst := reads_rawStep hne hstep (by simp only [List.length_append]; omega)
      refine ⟨piece before ++ middle :: texts, fun t ht => ?_, ?_, ?_⟩
      · rcases List.mem_append.1 ht with ht | ht
        · exact ne_nil_of_mem_piece ht
        · rcases List.mem_cons.1 ht with rfl | ht
          · exact hmiddle
          · exact htexts t ht
      · rw [List.flatten_append, flatten_piece, List.flatten_cons, hflat, hsplit]
      · rw [textEvents_append]
        simpa [textEvents] using hfirst.trans hreads

end Stencil.Markup
