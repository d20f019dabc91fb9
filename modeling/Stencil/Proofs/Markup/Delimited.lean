import Stencil.Proofs.Markup.Tag

/-!
# Delimited texts are read as they were

Comments, declarations, instructions and the bodies of scripts and style sheets are written as they
are, between two marks. Such a text is read back if the closing mark does not occur in it: no
occurrence of the mark can start in the text and end behind it, as no mark overlaps itself.

A body of a script may hold what looks like its closing tag but for letters outside of ASCII that
count as the same without regard to case. The reader stops there, finds no closing tag, and goes on
(`readRawStep?_append`).

* `readComment?_append`, `readInstruction?_append`, `readDoctype_append`, `readConditional_append`:
  the texts that stand outside of bodies;
* `readRawStep?_closing`: a body up to its closing tag.
-/

namespace Stencil.Markup

/-! ### Marks -/

/-- Two dashes, blanks and a right angle bracket occur in a text. -/
def HoldsDashes (s : List Char) : Prop :=
  ∃ before blanks after, s = before ++ '-' :: '-' :: (blanks ++ '>' :: after) ∧
    Text.isBlank blanks = true

/-- A right square bracket, blanks and a right angle bracket occur in a text. -/
def HoldsBracket (s : List Char) : Prop :=
  ∃ before blanks after, s = before ++ ']' :: (blanks ++ '>' :: after) ∧
    Text.isBlank blanks = true

/-- A closing tag of a name occurs in a text, in letters of any case. -/
def HoldsClosing (tag : List Char) (s : List Char) : Prop :=
  ∃ before blanks name blanks' after,
    s = before ++ '<' :: '/' :: (blanks ++ (name ++ (blanks' ++ '>' :: after))) ∧
      Text.isBlank blanks = true ∧ Text.isBlank blanks' = true ∧ name.map Char.toLower = tag

theorem isBlank_takeWhile (s : List Char) : Text.isBlank (s.takeWhile Text.isSpace) = true :=
  List.all_takeWhile

/-- A text that reaches a right angle bracket over blanks, split before a character that is neither,
    reaches it before the split. -/
theorem exists_of_dropWhile_append {t s rest : List Char} {d : Char} (hd : Text.isSpace d = false)
    (hne : d ≠ '>') (h : (t ++ d :: s).dropWhile Text.isSpace = '>' :: rest) :
    ∃ blanks after, t = blanks ++ '>' :: after ∧ Text.isBlank blanks = true := by
  induction t with
  | nil =>
    rw [List.nil_append, List.dropWhile_cons, hd] at h
    exact absurd (List.cons.inj h).1 hne
  | cons c t ih =>
    rw [List.cons_append, List.dropWhile_cons] at h
    split at h
    next hc =>
      obtain ⟨blanks, after, rfl, hb⟩ := ih h
      exact ⟨c :: blanks, after, rfl, by simpa [Text.isBlank, hc] using hb⟩
    next => exact ⟨[], t, by rw [(List.cons.inj h).1, List.nil_append], rfl⟩

theorem HoldsDashes.of_suffix {s t : List Char} (h : HoldsDashes t) (hs : t <:+ s) :
    HoldsDashes s := by
  obtain ⟨u, rfl⟩ := hs
  obtain ⟨before, blanks, after, rfl, hb⟩ := h
  exact ⟨u ++ before, blanks, after, by rw [List.append_assoc], hb⟩

theorem HoldsBracket.of_suffix {s t : List Char} (h : HoldsBracket t) (hs : t <:+ s) :
    HoldsBracket s := by
  obtain ⟨u, rfl⟩ := hs
  obtain ⟨before, blanks, after, rfl, hb⟩ := h
  exact ⟨u ++ before, blanks, after, by rw [List.append_assoc], hb⟩

theorem HoldsClosing.of_suffix {tag s t : List Char} (h : HoldsClosing tag t) (hs : t <:+ s) :
    HoldsClosing tag s := by
  obtain ⟨u, rfl⟩ := hs
  obtain ⟨before, blanks, name, blanks', after, rfl, h⟩ := h
  exact ⟨u ++ before, blanks, name, blanks', after, by rw [List.append_assoc], h⟩

/-! ### Comments -/

theorem afterDashes?_append {t : List Char} (hne : t ≠ []) (ht : ¬HoldsDashes t) (s : List Char) :
    afterDashes? (t ++ '-' :: '-' :: s) = none := by
  rw [Option.eq_none_iff_forall_ne_some]
  intro rest h
  match t with
  | [] => exact hne rfl
  | [c] =>
    have hd : Text.isSpace '-' = false := by decide
    by_cases hc : c = '-' <;> simp [afterDashes?, hc, hd] at h
  | c :: d :: t =>
    by_cases hcd : c = '-' ∧ d = '-'
    · obtain ⟨rfl, rfl⟩ := hcd
      simp only [List.cons_append, afterDashes?] at h
      split at h
      next rest' hdrop =>
        obtain ⟨blanks, after, rfl, hb⟩ := exists_of_dropWhile_append (by decide) (by decide) hdrop
        exact ht ⟨[], blanks, after, rfl, hb⟩
      next => simp at h
    · simp only [List.cons_append] at h
      rw [afterDashes?] at h
      · simp at h
      · rintro s' hs
        simp only [List.cons.injEq] at hs
        exact hcd ⟨hs.1, hs.2.1⟩

/-- A comment is read up to its end. -/
theorem readComment?_append {data : List Char} (h : ¬HoldsDashes data) (rest : List Char) :
    readComment? (data ++ '-' :: '-' :: '>' :: rest) =
      some (.comment (String.ofList data), rest) := by
  have hclose : afterDashes? ('-' :: '-' :: '>' :: rest) = some rest := by
    have hgt : Text.isSpace '>' = false := by decide
    simp [afterDashes?, hgt]
  have hcut := Text.cutWhere_append
    (fun t hne ht => afterDashes?_append hne (fun hd => h (hd.of_suffix ht)) ('>' :: rest)) hclose
  rw [readComment?, hcut]
  rfl

/-! ### Declarations and instructions -/

theorem readInstruction?_append {data : List Char} (h : '>' ∉ data) (rest : List Char) :
    readInstruction? (data ++ '>' :: rest) = some (.instruction (String.ofList data), rest) := by
  rw [readInstruction?, Text.cutAt_append h]
  rfl

theorem startsDoctype_append {data : List Char} (h : startsDoctype data = true) (s : List Char) :
    startsDoctype (data ++ s) = true := by
  have hlen : 7 ≤ data.length := by
    have := congrArg List.length (eq_of_beq h)
    simp only [List.length_map, List.length_take, List.length_cons, List.length_nil] at this
    omega
  rwa [startsDoctype, List.take_append_of_le_length hlen]

/-- A document type is read up to its end. -/
theorem readDoctype_append {data : List Char} (hdoctype : startsDoctype data = true)
    (h : '>' ∉ data) (rest : List Char) :
    readDeclaration? (data ++ '>' :: rest) =
      .ok (some (.declaration (String.ofList data), rest)) := by
  have hstart := startsDoctype_append hdoctype ('>' :: rest)
  have hcut := Text.cutAt_append h rest
  have hhead : ∀ d s, data ++ '>' :: rest = d :: s → d ≠ '-' ∧ d ≠ '[' := by
    intro d s hs
    rw [hs] at hstart
    have := congrArg List.head? (eq_of_beq hstart)
    simp only [List.take_succ_cons, List.map_cons, List.head?_cons, Option.some.injEq] at this
    constructor <;> rintro rfl <;> exact absurd this (by decide)
  rw [readDeclaration?]
  · rw [hcut, hstart]
    rfl
  · exact fun s hs => (hhead _ _ hs).1 rfl
  · exact fun s hs => (hhead _ _ hs).2 rfl

theorem afterBracket?_append {t : List Char} (hne : t ≠ []) (ht : ¬HoldsBracket t)
    (s : List Char) : afterBracket? (t ++ ']' :: s) = none := by
  rw [Option.eq_none_iff_forall_ne_some]
  intro rest h
  obtain ⟨c, t, rfl⟩ := List.exists_cons_of_ne_nil hne
  by_cases hc : c = ']'
  · subst hc
    simp only [List.cons_append, afterBracket?] at h
    split at h
    next rest' hdrop =>
      obtain ⟨blanks, after, rfl, hb⟩ := exists_of_dropWhile_append (by decide) (by decide) hdrop
      exact ht ⟨[], blanks, after, rfl, hb⟩
    next => simp at h
  · rw [List.cons_append, afterBracket?] at h
    · simp at h
    · rintro s' hs
      exact hc (List.cons.inj hs).1

/-- A text starts with the name of a section that ends with one bracket. -/
def StartsConditional (s : List Char) : Prop :=
  String.ofList ((s.takeWhile isSectionChar).map Char.toLower) ∈ conditionalNames

theorem exists_letter_of_startsConditional {s : List Char} (h : StartsConditional s) :
    ∃ c t, s = c :: t ∧ isLetter c = true := by
  cases s with
  | nil => exact absurd (show String.ofList [] ∈ conditionalNames from h) (by decide)
  | cons c t =>
    refine ⟨c, t, rfl, ?_⟩
    rw [StartsConditional, List.takeWhile_cons] at h
    split at h
    next hc =>
      have hle {a b : Char} (hab : a ≤ b) : a.toNat ≤ b.toNat := hab
      have hascii : c.toNat < 128 := by
        simp only [isSectionChar, isLetter, Bool.or_eq_true, Bool.and_eq_true, decide_eq_true_eq,
          beq_iff_eq] at hc
        rcases hc with ((((⟨-, h⟩ | ⟨-, h⟩) | ⟨-, h⟩) | rfl) | rfl) | rfl
        iterate 3 exact Nat.lt_of_le_of_lt (hle h) (by decide)
        all_goals decide
      have hfirst : c.toLower = 'i' ∨ c.toLower = 'e' := by
        rw [List.map_cons] at h
        simp only [conditionalNames, List.mem_cons, List.not_mem_nil, or_false] at h
        rcases h with h | h | h <;> rw [← String.toList_inj, String.toList_ofList] at h
        · exact .inl (List.cons.inj h).1
        · exact .inr (List.cons.inj h).1
        · exact .inr (List.cons.inj h).1
      exact Text.forall_ascii (P := fun c => (c.toLower = 'i' ∨ c.toLower = 'e') → isLetter c = true)
        (by decide) hascii hfirst
    next => exact absurd h (by decide)

/-- A conditional section is read up to its end. -/
theorem readConditional_append {data : List Char} (hname : StartsConditional data)
    (h : ¬HoldsBracket data) (rest : List Char) :
    readMarked? (data ++ ']' :: '>' :: rest) =
      .ok (some (.marked (String.ofList data), rest)) := by
  have hclose : afterBracket? (']' :: '>' :: rest) = some rest := by
    have hgt : Text.isSpace '>' = false := by decide
    simp [afterBracket?, hgt]
  have hcut := Text.cutWhere_append
    (fun t hne ht => afterBracket?_append hne (fun hb => h (hb.of_suffix ht)) ('>' :: rest)) hclose
  obtain ⟨c, t, hct, hletter⟩ := exists_letter_of_startsConditional hname
  have htake := Text.takeWhile_append_cons (p := isSectionChar) (d := ']') (by decide) data
    ('>' :: rest)
  -- The text goes on behind the name and the blanks after it.
  have hlength : (data ++ ']' :: '>' :: rest).length ≠ (data.takeWhile isSectionChar).length +
      (((data ++ ']' :: '>' :: rest).drop (data.takeWhile isSectionChar).length).takeWhile
        Text.isSpace).length := by
    have hle := (List.takeWhile_prefix (p := isSectionChar) (l := data)).length_le
    have hsub := (List.takeWhile_prefix (p := Text.isSpace)
      (l := data.drop (data.takeWhile isSectionChar).length)).length_le
    rw [List.drop_append_of_le_length hle, Text.takeWhile_append_cons (by decide)]
    simp only [List.length_append, List.length_cons, List.length_drop] at hsub ⊢
    omega
  have hnot : String.ofList ((data.takeWhile isSectionChar).map Char.toLower) ∉ sectionNames := by
    intro hs
    rw [StartsConditional] at hname
    revert hs hname
    generalize String.ofList ((data.takeWhile isSectionChar).map Char.toLower) = name
    intro hname hs
    simp only [conditionalNames, sectionNames, List.mem_cons, List.not_mem_nil, or_false] at hname hs
    rcases hname with rfl | rfl | rfl <;> simp at hs
  rw [StartsConditional] at hname
  subst hct
  rw [List.cons_append] at htake hcut hlength ⊢
  simp only [readMarked?, htake, hcut, hletter, Bool.not_true, Bool.false_eq_true, if_false,
    if_neg hlength, if_neg hnot, if_pos hname]
  rfl

/-! ### Bodies -/

theorem toNat_lt_of_isEndTagChar {c : Char} (h : isEndTagChar c = true) : c.toNat < 128 := by
  have hle {a b : Char} (hab : a ≤ b) : a.toNat ≤ b.toNat := hab
  simp only [isEndTagChar, isLetter, Bool.or_eq_true, Bool.and_eq_true, decide_eq_true_eq,
    beq_iff_eq] at h
  rcases h with (((((⟨-, h⟩ | ⟨-, h⟩) | ⟨-, h⟩) | rfl) | rfl) | rfl) | rfl
  iterate 3 exact Nat.lt_of_le_of_lt (hle h) (by decide)
  all_goals decide

theorem foldLetter_of_isEndTagChar {c : Char} (h : isEndTagChar c = true) :
    foldLetter c = c.toLower := by
  have := toNat_lt_of_isEndTagChar h
  rw [foldLetter, if_neg (by omega), if_neg (by omega)]

/-- A character that counts as a character of a name is neither a blank nor a bracket. -/
theorem of_foldLetter {c : Char} (h : isNameChar (foldLetter c) = true) :
    Text.isSpace c = false ∧ c ≠ '<' ∧ c ≠ '>' := by
  by_cases hc : c.toNat < 128
  · have hfold : foldLetter c = c.toLower := by
      rw [foldLetter, if_neg (by omega), if_neg (by omega)]
    rw [hfold] at h
    exact Text.forall_ascii (P := fun c => isNameChar c.toLower = true →
      Text.isSpace c = false ∧ c ≠ '<' ∧ c ≠ '>') (by decide) hc h
  · -- Beyond ASCII only the three letters that are folded count as one of a name.
    have hne : c ≠ '<' ∧ c ≠ '>' := by
      constructor <;> rintro rfl <;> exact hc (by decide)
    refine ⟨?_, hne⟩
    rw [foldLetter] at h
    split_ifs at h with h₁ h₂
    · simp [Text.isSpace, h₁]
    · rcases h₂ with h₂ | h₂ <;> simp [Text.isSpace, h₂]
    · have hlower : c.toLower = c := dif_neg fun hupper => by
        have : c.toNat ≤ 'Z'.toNat := hupper.2
        have : 'Z'.toNat = 90 := rfl
        omega
      rw [hlower] at h
      exact absurd (toNat_lt_of_isNameChar h) hc

/-- What a closing tag of a body is read from. -/
theorem exists_of_afterRawTag? {tag s rest : List Char} (h : afterRawTag? tag s = some rest) :
    ∃ blanks name blanks',
      s = '<' :: '/' :: (blanks ++ (name ++ (blanks' ++ '>' :: rest))) ∧
        Text.isBlank blanks = true ∧ Text.isBlank blanks' = true ∧ name.map foldLetter = tag := by
  unfold afterRawTag? at h
  split at h
  next s =>
    simp only at h
    split at h
    next hname =>
      split at h
      next rest' hdrop =>
        obtain rfl := Option.some.inj h
        refine ⟨s.takeWhile Text.isSpace, (s.dropWhile Text.isSpace).take tag.length,
          ((s.dropWhile Text.isSpace).drop tag.length).takeWhile Text.isSpace, ?_,
          isBlank_takeWhile _, isBlank_takeWhile _, hname⟩
        rw [← hdrop, List.takeWhile_append_dropWhile, List.take_append_drop,
          List.takeWhile_append_dropWhile]
      next => simp at h
    next => simp at h
  next => simp at h

theorem afterRawTag?_eq_some {blanks name blanks' : List Char} {tag : List Char}
    (htag : isName tag = true) (hb : Text.isBlank blanks = true) (hb' : Text.isBlank blanks' = true)
    (hname : name.map foldLetter = tag) (rest : List Char) :
    afterRawTag? tag ('<' :: '/' :: (blanks ++ (name ++ (blanks' ++ '>' :: rest)))) = some rest := by
  have hlength : tag.length = name.length := by rw [← hname, List.length_map]
  have hgt : Text.Stops Text.isSpace ('>' :: rest) := Text.stops_cons (by decide) rest
  have hstops : Text.Stops Text.isSpace (name ++ (blanks' ++ '>' :: rest)) := by
    cases name with
    | nil =>
      subst hname
      simp [isName] at htag
    | cons c name =>
      refine Text.stops_cons (of_foldLetter ?_).1 _
      exact isNameChar_of_mem htag (hname ▸ List.mem_cons_self)
  have h₁ := Text.dropWhile_append_of_stops (List.all_eq_true.1 hb) hstops
  have h₂ := Text.dropWhile_append_of_stops (List.all_eq_true.1 hb') hgt
  simp only [afterRawTag?, h₁, hlength, List.take_left, List.drop_left, hname, if_true, h₂]

/-- The closing tag of a body is looked for before the next left angle bracket. -/
theorem afterRawTag?_append {tag t : List Char} (htag : isName tag = true) (hne : t ≠ [])
    (s : List Char) :
    afterRawTag? tag (t ++ '<' :: s) = (afterRawTag? tag t).map (· ++ '<' :: s) := by
  cases ht : afterRawTag? tag t with
  | some rest =>
    obtain ⟨blanks, name, blanks', rfl, hb, hb', hname⟩ := exists_of_afterRawTag? ht
    have := afterRawTag?_eq_some htag hb hb' hname (rest ++ '<' :: s)
    simpa using this
  | none =>
    rw [Option.map_none, Option.eq_none_iff_forall_ne_some]
    intro rest h
    -- A closing tag in the longer text has one bracket only, its first, so it ends before the second
    -- one, and would have been found in the shorter text.
    obtain ⟨blanks, name, blanks', hs, hb, hb', hname⟩ := exists_of_afterRawTag? h
    obtain ⟨c, t, rfl⟩ := List.exists_cons_of_ne_nil hne
    obtain ⟨rfl, hs⟩ := List.cons.inj hs
    have hblank {a : List Char} (ha : Text.isBlank a = true) : '<' ∉ a := fun hm =>
      absurd (List.all_eq_true.1 ha '<' hm) (by decide)
    have hnot : '<' ∉ '/' :: (blanks ++ (name ++ (blanks' ++ ['>']))) := by
      simp only [List.mem_cons, List.mem_append, List.not_mem_nil, or_false, not_or]
      refine ⟨by decide, hblank hb, fun hm => ?_, hblank hb', by decide⟩
      exact (of_foldLetter (isNameChar_of_mem htag (hname ▸ List.mem_map_of_mem hm))).2.1 rfl
    obtain ⟨u, rfl, -⟩ := Text.exists_of_append_eq hnot (by simpa using hs)
    have := afterRawTag?_eq_some htag hb hb' hname u
    rw [List.cons_append] at ht
    simp only [List.append_assoc, List.singleton_append] at ht
    rw [this] at ht
    simp at ht

/-- The run of a reader over a name takes all of it: what would stop it is no bracket. -/
theorem isEndTagChar_of_exactEndTag? {c : Char} {name blanks : List Char}
    (hname : ∀ d ∈ c :: name, isNameChar (foldLetter d) = true) {found : List Char × List Char}
    (h : exactEndTag? (c :: (name ++ (blanks ++ ['>']))) = some found) :
    ∀ d ∈ c :: name, isEndTagChar d = true := by
  have hspace := (of_foldLetter (hname c List.mem_cons_self)).1
  rw [exactEndTag?, Text.dropWhile_of_stops (Text.stops_cons hspace _)] at h
  simp only at h
  split_ifs at h with hletter
  refine List.forall_mem_cons.2 ⟨by simp [isEndTagChar, hletter], ?_⟩
  by_contra hnot
  have hrest : name.dropWhile isEndTagChar ≠ [] := fun hnil =>
    hnot (List.dropWhile_eq_nil_iff.1 hnil)
  obtain ⟨d, v, hdv⟩ := List.exists_cons_of_ne_nil hrest
  have hd : isEndTagChar d = false := by
    have := List.head_dropWhile_not isEndTagChar hrest
    simpa [hdv] using this
  have hsplit : name = name.takeWhile isEndTagChar ++ d :: v := by
    rw [← hdv, List.takeWhile_append_dropWhile]
  have hchar := of_foldLetter (hname d (List.mem_cons_of_mem c (hsplit ▸ by simp)))
  have htake : (name ++ (blanks ++ ['>'])).takeWhile isEndTagChar = name.takeWhile isEndTagChar := by
    rw [hsplit, List.append_assoc, List.cons_append, Text.takeWhile_append_cons hd,
      Text.takeWhile_append_cons hd]
  have hdrop : (name ++ (blanks ++ ['>'])).drop (name.takeWhile isEndTagChar).length =
      d :: (v ++ (blanks ++ ['>'])) := by
    conv_lhs => rw [hsplit, List.append_assoc]
    rw [← hsplit, List.drop_left]
    rfl
  rw [htake, hdrop, Text.dropWhile_of_stops (Text.stops_cons hchar.1 _)] at h
  split at h
  next heq => exact hchar.2.2 (List.cons.inj heq).1
  next => simp at h

/-- What looks like a closing tag of a body and is read as one is written in ASCII. -/
theorem map_toLower_of_exactEndTag? {blanks name blanks' : List Char}
    (hname : ∀ c ∈ name, isNameChar (foldLetter c) = true) (hne : name ≠ [])
    (hb : Text.isBlank blanks = true) {found : List Char × List Char}
    (h : exactEndTag? (blanks ++ (name ++ (blanks' ++ ['>']))) = some found) :
    name.map Char.toLower = name.map foldLetter := by
  obtain ⟨c, name, rfl⟩ := List.exists_cons_of_ne_nil hne
  have hstops : Text.Stops Text.isSpace (c :: (name ++ (blanks' ++ ['>']))) :=
    Text.stops_cons (of_foldLetter (hname c List.mem_cons_self)).1 _
  have hblanks : exactEndTag? (blanks ++ (c :: name ++ (blanks' ++ ['>']))) =
      exactEndTag? (c :: (name ++ (blanks' ++ ['>']))) := by
    rw [exactEndTag?, exactEndTag?, Text.dropWhile_of_stops hstops, List.cons_append,
      Text.dropWhile_append_of_stops (List.all_eq_true.1 hb) hstops]
  rw [hblanks] at h
  exact List.map_congr_left fun d hd =>
    (foldLetter_of_isEndTagChar (isEndTagChar_of_exactEndTag? hname h d hd)).symm

/-- A body is read up to its closing tag. -/
theorem readRawStep?_closing {tag body : List Char} (htag : isName tag = true)
    (hbody : Text.cutWhere (afterRawTag? tag) body = none) (rest : List Char) :
    readRawStep? (String.ofList tag) (body ++ '<' :: '/' :: (tag ++ '>' :: rest)) =
      some ⟨(if body = [] then [] else [.text (String.ofList body)]) ++
        [.endTag (String.ofList tag)], none, rest⟩ := by
  have hcut : Text.cutWhere (afterRawTag? tag) (body ++ '<' :: '/' :: (tag ++ '>' :: rest)) =
      some (body, rest) := by
    rw [Text.cutWhere_append_of_local rfl fun t hne _ => afterRawTag?_append htag hne _, hbody]
    have hself : afterRawTag? tag ('<' :: '/' :: (tag ++ '>' :: rest)) = some rest := by
      have hfold : tag.map foldLetter = tag := by
        refine (List.map_congr_left fun c hc => ?_).trans (List.map_id tag)
        have hf := nameCharFacts (isNameChar_of_mem htag hc)
        rw [foldLetter_of_isEndTagChar hf.endTagChar, hf.toLower, id]
      have hblank : Text.isBlank [] = true := rfl
      exact afterRawTag?_eq_some htag hblank hblank hfold rest
    rw [Text.cutWhere, hself]
    simp
  have hclosing := Text.take_drop_append body ('<' :: '/' :: (tag ++ ['>'])) rest
  have hsplit : body ++ ('<' :: '/' :: (tag ++ ['>']) ++ rest) =
      body ++ '<' :: '/' :: (tag ++ '>' :: rest) := by simp
  rw [hsplit] at hclosing
  rw [readRawStep?, String.toList_ofList, hcut]
  simp only [Option.map_some, hclosing]
  rw [List.drop_succ_cons, List.drop_succ_cons, List.drop_zero, exactEndTag?_append htag]

/-- A text that is read as the closing tag of a body but is none is part of the body. -/
theorem readRawStep?_lookalike {tag body before rest : List Char} (htag : isName tag = true)
    (hcut : Text.cutWhere (afterRawTag? tag) body = some (before, rest))
    (hbody : ¬HoldsClosing tag body) (s : List Char) :
    ∃ middle, middle ≠ [] ∧ body = before ++ (middle ++ rest) ∧
      readRawStep? (String.ofList tag) (body ++ '<' :: s) =
        some ⟨(if before = [] then [] else [.text (String.ofList before)]) ++
          [.text (String.ofList middle)], some (String.ofList tag), rest ++ '<' :: s⟩ := by
  obtain ⟨t, hbt, ht⟩ := Text.exists_of_cutWhere hcut
  obtain ⟨blanks, name, blanks', rfl, hb, hb', hname⟩ := exists_of_afterRawTag? ht
  have hcut' : Text.cutWhere (afterRawTag? tag) (body ++ '<' :: s) =
      some (before, rest ++ '<' :: s) := by
    rw [Text.cutWhere_append_of_local rfl fun t hne _ => afterRawTag?_append htag hne _, hcut]
  have hsplit : body = before ++ ('<' :: '/' :: (blanks ++ (name ++ (blanks' ++ ['>']))) ++ rest) := by
    rw [hbt]
    simp
  refine ⟨'<' :: '/' :: (blanks ++ (name ++ (blanks' ++ ['>']))), List.cons_ne_nil _ _, hsplit, ?_⟩
  have hclosing := Text.take_drop_append before
    ('<' :: '/' :: (blanks ++ (name ++ (blanks' ++ ['>'])))) (rest ++ '<' :: s)
  rw [← List.append_assoc _ rest, ← List.append_assoc before, ← hsplit] at hclosing
  have hnone : exactEndTag? (blanks ++ (name ++ (blanks' ++ ['>']))) = none := by
    rw [Option.eq_none_iff_forall_ne_some]
    intro found hfound
    have hne : name ≠ [] := by
      rintro rfl
      subst hname
      simp [isName] at htag
    have hlower := map_toLower_of_exactEndTag?
      (fun c hc => isNameChar_of_mem htag (hname ▸ List.mem_map_of_mem hc)) hne hb hfound
    exact hbody ⟨before, blanks, name, blanks', rest, hbt, hb, hb', hlower.trans hname⟩
  rw [readRawStep?, String.toList_ofList, hcut']
  simp only [Option.map_some, hclosing]
  rw [List.drop_succ_cons, List.drop_succ_cons, List.drop_zero, hnone]

end Stencil.Markup
