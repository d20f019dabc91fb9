import Stencil.Markup.Event.Read
import Stencil.Proofs.Markup.Escape
import Stencil.Proofs.Text.LowerCase

/-!
# Written tags are read as they were

The readers of tags take nearly any characters for a name. A tag that is written with names that they
have taken before (`IsTagName`, `IsAttributeName`), its values escaped between double quotes, is read as
the same name with the same attributes, and the reading stops right behind it.

An attribute with the empty value is read the same if it is written as its name alone and if it has
quotes with nothing in them, so `SpellsEntries` leaves open which of the two it is. But a name alone
takes an equals sign that follows it for its own, even if it is the first character of the next name;
in `LegibleEntries` this does not happen. A closing tag is read with less tolerance: blanks at the end
of its name are lost if all before them are letters, digits and a few marks (`IsPadded`).

Most tags and attributes have *names* in a narrower sense (`isName`): a lower-case ASCII letter,
followed by lower-case letters, digits and a few marks. None of these is told apart by any reader.

* `readTag_append`: an opening tag, with or without a slash at its end;
* `mapM_finishAttribute`: the attributes that are read are those that were written;
* `readEndTag?_append`: a closing tag.
-/

namespace Stencil.Markup

/-! ### Names -/

/-- Whether a character goes on a name. -/
def isNameChar (c : Char) : Bool :=
  ('a' ≤ c && c ≤ 'z') || ('0' ≤ c && c ≤ '9') || c == '-' || c == '.' || c == ':' || c == '_'

/-- Whether a text is a name. -/
def isName : List Char → Bool
  | [] => false
  | c :: s => ('a' ≤ c && c ≤ 'z') && s.all isNameChar

theorem toNat_lt_of_isNameChar {c : Char} (h : isNameChar c = true) : c.toNat < 128 := by
  have hle {a b : Char} (hab : a ≤ b) : a.toNat ≤ b.toNat := hab
  simp only [isNameChar, Bool.or_eq_true, Bool.and_eq_true, decide_eq_true_eq, beq_iff_eq] at h
  rcases h with ((((⟨-, h⟩ | ⟨-, h⟩) | rfl) | rfl) | rfl) | rfl
  · exact Nat.lt_of_le_of_lt (hle h) (by decide)
  · exact Nat.lt_of_le_of_lt (hle h) (by decide)
  all_goals decide

/-- What the readers of tags make of the characters of names. -/
structure NameCharFacts (c : Char) : Prop where
  tagChar : isTagChar c = true
  attributeChar : isAttributeChar c = true
  endTagChar : isEndTagChar c = true
  toLower : c.toLower = c
  ne : c ≠ '<' ∧ c ≠ '>' ∧ c ≠ '/' ∧ c ≠ '=' ∧ c ≠ '"' ∧ c ≠ '{' ∧ c ≠ '}'

theorem nameCharFacts {c : Char} (h : isNameChar c = true) : NameCharFacts c := by
  have := Text.forall_ascii (P := fun c => isNameChar c = true → isTagChar c = true ∧
    isAttributeChar c = true ∧ isEndTagChar c = true ∧ c.toLower = c ∧
    (c ≠ '<' ∧ c ≠ '>' ∧ c ≠ '/' ∧ c ≠ '=' ∧ c ≠ '"' ∧ c ≠ '{' ∧ c ≠ '}'))
    (by decide) (toNat_lt_of_isNameChar h) h
  obtain ⟨h₁, h₂, h₃, h₄, h₅⟩ := this
  exact ⟨h₁, h₂, h₃, h₄, h₅⟩

theorem exists_cons_of_isName {s : List Char} (h : isName s = true) :
    ∃ c t, s = c :: t ∧ isLetter c = true ∧ isNameChar c = true ∧ ∀ d ∈ t, isNameChar d = true := by
  cases s with
  | nil => simp [isName] at h
  | cons c t =>
    simp only [isName, Bool.and_eq_true, List.all_eq_true] at h
    exact ⟨c, t, rfl, by simp [isLetter, h.1], by simp [isNameChar, h.1], h.2⟩

theorem isNameChar_of_mem {s : List Char} (h : isName s = true) {c : Char} (hc : c ∈ s) :
    isNameChar c = true := by
  obtain ⟨d, t, rfl, -, hd, ht⟩ := exists_cons_of_isName h
  rcases List.mem_cons.1 hc with rfl | hc
  · exact hd
  · exact ht c hc

theorem lowerCase_of_isName {s : List Char} (h : isName s = true) : Text.lowerCase s = s := by
  rw [Text.lowerCase_of_ascii fun c hc => toNat_lt_of_isNameChar (isNameChar_of_mem h hc)]
  exact (List.map_congr_left fun c hc => (nameCharFacts (isNameChar_of_mem h hc)).toLower).trans
    (List.map_id s)

/-- A text that is read as the name of a tag: a letter, and behind it anything that does not end such a
    name. -/
structure IsTagName (s : List Char) : Prop where
  letter : ∃ c t, s = c :: t ∧ isLetter c = true
  tagChar : ∀ c ∈ s, isTagChar c = true
  lower : Text.lowerCase s = s

/-- A text that is read as the name of an attribute: an equals sign may stand at its start only. -/
structure IsAttributeName (s : List Char) : Prop where
  parts : ∃ c t, s = c :: t ∧ (c = '=' ∨ isAttributeChar c = true) ∧ ∀ d ∈ t, isAttributeChar d = true
  lower : Text.lowerCase s = s

theorem isTagName_of_isName {s : List Char} (h : isName s = true) : IsTagName s := by
  obtain ⟨c, t, hct, hc, -, -⟩ := exists_cons_of_isName h
  exact ⟨⟨c, t, hct, hc⟩, fun d hd => (nameCharFacts (isNameChar_of_mem h hd)).tagChar,
    lowerCase_of_isName h⟩

theorem isAttributeName_of_isName {s : List Char} (h : isName s = true) : IsAttributeName s := by
  obtain ⟨c, t, hct, -, hc, ht⟩ := exists_cons_of_isName h
  exact ⟨⟨c, t, hct, .inr (nameCharFacts hc).attributeChar,
    fun d hd => (nameCharFacts (ht d hd)).attributeChar⟩, lowerCase_of_isName h⟩

theorem of_isAttributeChar {c : Char} (h : isAttributeChar c = true) :
    Text.isSpace c = false ∧ c ≠ '/' ∧ c ≠ '=' ∧ c ≠ '>' := by
  simpa [isAttributeChar, and_assoc] using h

theorem IsAttributeName.exists_cons {s : List Char} (h : IsAttributeName s) :
    ∃ c t, s = c :: t ∧ Text.isSpace c = false ∧ c ≠ '/' ∧ c ≠ '>' ∧
      ∀ d ∈ t, isAttributeChar d = true := by
  obtain ⟨c, t, hct, rfl | hc, ht⟩ := h.parts
  · exact ⟨'=', t, hct, by decide, by decide, by decide, ht⟩
  · obtain ⟨hspace, hslash, -, hgt⟩ := of_isAttributeChar hc
    exact ⟨c, t, hct, hspace, hslash, hgt, ht⟩

/-! ### Attributes -/

/-- The attributes of a tag as they are written. -/
def writeEntries (entries : List (String × String)) : List Char :=
  entries.flatMap fun (name, value) => writeAttr name.toList value.toList

/-- What may stand behind the name of an attribute: its value between quotes, or nothing if the
    value is empty. -/
def SpellsValue (value written : List Char) : Prop :=
  written = '=' :: '"' :: (escapeAttr value ++ ['"']) ∨ value = [] ∧ written = []

/-- How attributes may be written. -/
def SpellsEntries : (entries : List (String × String)) → (written : List Char) → Prop
  | [], written => written = []
  | (name, value) :: entries, written =>
    ∃ v t, written = ' ' :: (name.toList ++ (v ++ t)) ∧ SpellsValue value.toList v ∧
      SpellsEntries entries t

/-- Attributes are read as they are written: no name of the next attribute is taken for a value. -/
def LegibleEntries : List (String × String) → Prop
  | [] => True
  | (name, value) :: entries =>
    IsAttributeName name.toList ∧
      (value.toList = [] → ∀ next ∈ entries.head?, next.1.toList.head? ≠ some '=') ∧
        LegibleEntries entries

/-- The two ends of an opening tag. -/
def TagClose (close : List Char) : Prop :=
  close = ['>'] ∨ close = ['/', '>']

/-- An attribute as it stands in its tag, the value still escaped. -/
def rawAttribute (entry : String × String) : List Char × List Char :=
  (entry.1.toList, escapeAttr entry.2.toList)

theorem legibleEntries_of_isName {entries : List (String × String)}
    (h : ∀ entry ∈ entries, isName entry.1.toList = true) : LegibleEntries entries := by
  induction entries with
  | nil => trivial
  | cons entry entries ih =>
    refine ⟨isAttributeName_of_isName (h entry List.mem_cons_self), fun _ next hnext heq => ?_,
      ih fun e he => h e (List.mem_cons_of_mem entry he)⟩
    obtain ⟨c, t, hct, -, hc, -⟩ :=
      exists_cons_of_isName (h next (List.mem_cons_of_mem entry (List.mem_of_mem_head? hnext)))
    rw [hct, List.head?_cons, Option.some_inj] at heq
    exact (nameCharFacts hc).ne.2.2.2.1 heq

theorem LegibleEntries.isAttributeName {entries : List (String × String)} (h : LegibleEntries entries) :
    ∀ entry ∈ entries, IsAttributeName entry.1.toList := by
  induction entries with
  | nil => exact fun entry hentry => absurd hentry List.not_mem_nil
  | cons entry entries ih => exact List.forall_mem_cons.2 ⟨h.1, ih h.2.2⟩

theorem spellsEntries_writeEntries (entries : List (String × String)) :
    SpellsEntries entries (writeEntries entries) := by
  induction entries with
  | nil => rfl
  | cons entry entries ih =>
    obtain ⟨name, value⟩ := entry
    cases hvalue : value.toList with
    | nil => exact ⟨[], writeEntries entries, by simp [writeEntries, writeAttr, hvalue],
        .inr ⟨hvalue, rfl⟩, ih⟩
    | cons c cs =>
      refine ⟨'=' :: '"' :: (escapeAttr value.toList ++ ['"']), writeEntries entries, ?_,
        .inl rfl, ih⟩
      simp [writeEntries, writeAttr, hvalue]

theorem length_le_of_spellsEntries {entries : List (String × String)} {written : List Char}
    (h : SpellsEntries entries written) : entries.length ≤ written.length := by
  induction entries generalizing written with
  | nil => exact Nat.zero_le _
  | cons entry entries ih =>
    obtain ⟨v, t, rfl, -, ht⟩ := h
    have := ih ht
    simp only [List.length_cons, List.length_append]
    omega

section

variable {entries : List (String × String)} {written close : List Char}
  (hwritten : SpellsEntries entries written) (hclose : TagClose close) (rest : List Char)

include hclose

theorem skipBlanks_close (before : Char) :
    skipBlanks before (close ++ rest) = (before, close ++ rest) := by
  have h₁ : Text.isSpace '>' = false := by decide
  have h₂ : Text.isSpace '/' = false := by decide
  rcases hclose with rfl | rfl <;> simp [skipBlanks, h₁, h₂]

theorem stops_close {p : Char → Bool} (h₁ : p '>' = false) (h₂ : p '/' = false) :
    Text.Stops p (close ++ rest) := by
  rcases hclose with rfl | rfl
  · exact Text.stops_cons h₁ rest
  · exact Text.stops_cons h₂ ('>' :: rest)

include hwritten

theorem stops_entries {p : Char → Bool} (h₀ : p ' ' = false) (h₁ : p '>' = false)
    (h₂ : p '/' = false) : Text.Stops p (written ++ (close ++ rest)) := by
  cases entries with
  | nil =>
    obtain rfl : written = [] := hwritten
    exact stops_close hclose rest h₁ h₂
  | cons entry entries =>
    obtain ⟨v, t, rfl, -, -⟩ := hwritten
    exact Text.stops_cons h₀ _

omit hwritten hclose in
theorem skipBlanks_name (before : Char) {name : List Char} (h : IsAttributeName name) :
    skipBlanks before (' ' :: (name ++ rest)) = (' ', name ++ rest) := by
  obtain ⟨c, t, rfl, hspace, hslash, -, -⟩ := h.exists_cons
  have hs : Text.isSpace ' ' = true := by decide
  rw [skipBlanks, if_pos hs, List.cons_append, skipBlanks, if_neg (by simp [hspace]),
    if_neg fun h => hslash h.1]

/-- No equals sign follows a name that has no value. -/
theorem readValue_nil (hentries : LegibleEntries entries)
    (hequals : ∀ next ∈ entries.head?, next.1.toList.head? ≠ some '=') (before : Char) :
    readValue before (written ++ (close ++ rest)) = ([], before, written ++ (close ++ rest)) := by
  have hstops : Text.Stops (· == '=') ((written ++ (close ++ rest)).dropWhile Text.isSpace) := by
    cases entries with
    | nil =>
      obtain rfl : written = [] := hwritten
      rw [List.nil_append, Text.dropWhile_of_stops (stops_close hclose rest (by decide) (by decide))]
      exact stops_close hclose rest (by decide) (by decide)
    | cons entry entries =>
      obtain ⟨v, t, rfl, -, -⟩ := hwritten
      obtain ⟨c, u, hcu, hspace, -, -, -⟩ := hentries.1.exists_cons
      have hne := hequals entry rfl
      have hs : Text.isSpace ' ' = true := by decide
      rw [hcu, List.head?_cons, ne_eq, Option.some_inj] at hne
      rw [hcu, List.cons_append, List.dropWhile_cons, if_pos hs, List.cons_append, List.cons_append,
        Text.dropWhile_of_stops (Text.stops_cons hspace _)]
      exact Text.stops_cons (p := (· == '=')) (beq_eq_false_iff_ne.2 hne) _
  rw [readValue]
  simp only [Text.takeWhile_of_stops hstops]

omit hwritten hclose in
theorem readValue_quoted (before : Char) (value : List Char) :
    readValue before ('=' :: '"' :: (escapeAttr value ++ '"' :: rest)) =
      (escapeAttr value, '"', rest) := by
  have h₁ : Text.isSpace '=' = false := by decide
  have h₂ : Text.isSpace '"' = false := by decide
  simp [readValue, h₁, h₂, Text.cutAt_append (quote_not_mem_escapeAttr value)]

theorem readValue_of_spellsValue (hentries : LegibleEntries entries) (before : Char)
    {value v : List Char}
    (hequals : value = [] → ∀ next ∈ entries.head?, next.1.toList.head? ≠ some '=')
    (hv : SpellsValue value v) :
    ∃ last, readValue before (v ++ (written ++ (close ++ rest))) =
      (escapeAttr value, last, written ++ (close ++ rest)) := by
  obtain rfl | ⟨rfl, rfl⟩ := hv
  · refine ⟨'"', ?_⟩
    have := readValue_quoted (written ++ (close ++ rest)) before value
    simpa using this
  · exact ⟨before, readValue_nil hwritten hclose rest hentries (hequals rfl) before⟩

/-- The attributes that are written are read, up to the end of the tag. -/
theorem readAttributes_of_spellsEntries (hentries : LegibleEntries entries) {fuel : Nat}
    (hfuel : entries.length ≤ fuel) (before : Char) :
    readAttributes fuel (skipBlanks before (written ++ (close ++ rest))).1
        (skipBlanks before (written ++ (close ++ rest))).2 =
      (entries.map rawAttribute, close ++ rest) := by
  -- By induction on the attributes: each is read in one step, which leaves the blanks before the next.
  induction entries generalizing written fuel before with
  | nil =>
    obtain rfl : written = [] := hwritten
    rw [List.nil_append, skipBlanks_close hclose]
    have hnone : readAttribute? before (close ++ rest) = none := by
      rcases hclose with rfl | rfl <;> simp [readAttribute?, startsAttribute]
    cases fuel with
    | zero => rfl
    | succ fuel => rw [readAttributes, hnone]; rfl
  | cons entry entries ih =>
    obtain ⟨v, written, rfl, hv, hwritten⟩ := hwritten
    obtain ⟨hname, hequals, hentries⟩ := hentries
    obtain ⟨fuel, rfl⟩ : ∃ n, fuel = n + 1 := ⟨fuel - 1, by rw [List.length_cons] at hfuel; omega⟩
    obtain ⟨c, t, hct, hspace, hslash, hgt, ht⟩ := hname.exists_cons
    have hstart : startsAttribute ' ' c = true := by
      have hs : Text.isSpace ' ' = true := by decide
      simp [startsAttribute, hs, hspace, hslash, hgt]
    -- The name ends where its value or the next attribute starts.
    have hstops : Text.Stops isAttributeChar (v ++ (written ++ (close ++ rest))) := by
      obtain rfl | ⟨-, rfl⟩ := hv
      · exact Text.stops_cons (by decide) _
      · exact stops_entries hwritten hclose rest (by decide) (by decide) (by decide)
    have htake := Text.takeWhile_append_of_stops ht hstops
    obtain ⟨last, hvalue⟩ := readValue_of_spellsValue hwritten hclose rest hentries (lastChar c t)
      hequals hv
    have hattr : readAttribute? ' ' (c :: (t ++ (v ++ (written ++ (close ++ rest))))) =
        some (rawAttribute entry, skipBlanks last (written ++ (close ++ rest))) := by
      rw [readAttribute?, if_pos hstart]
      simp only [htake, List.drop_left, hvalue, rawAttribute, hct]
    rw [List.cons_append, List.append_assoc, skipBlanks_name _ _ hname, List.append_assoc, hct,
      List.cons_append, readAttributes, hattr]
    simp only
    rw [ih hwritten hentries (by rw [List.length_cons] at hfuel; omega) last]
    rfl

end

/-- The attributes that are read are those that were written. -/
theorem mapM_finishAttribute {entries : List (String × String)}
    (hentries : ∀ entry ∈ entries, IsAttributeName entry.1.toList) :
    (entries.map rawAttribute).mapM finishAttribute = .ok entries := by
  induction entries with
  | nil => rfl
  | cons entry entries ih =>
    have hname := (hentries entry List.mem_cons_self).lower
    have hfinish : finishAttribute (rawAttribute entry) = .ok entry := by
      rw [finishAttribute, rawAttribute, expandReferences_escapeAttr, hname,
        String.ofList_toList]
      exact congrArg Except.ok (by rw [String.ofList_toList])
    rw [List.map_cons, List.mapM_cons, hfinish, ih fun e he => hentries e (List.mem_cons_of_mem _ he)]
    rfl

/-! ### Tags -/

theorem tagEnd_close {close : List Char} (hclose : TagClose close) (rest : List Char) :
    TagEnd.of (close ++ rest) = if close = ['>'] then .opening rest else .closed rest := by
  rcases hclose with rfl | rfl <;> rfl

/-- A tag with names for its name and its attributes is read as it was written. -/
theorem readTag_append {tag : String} (htag : IsTagName tag.toList)
    {entries : List (String × String)} {written : List Char}
    (hwritten : SpellsEntries entries written) (hentries : LegibleEntries entries)
    {close : List Char} (hclose : TagClose close) (rest : List Char) :
    readTag (tag.toList ++ (written ++ (close ++ rest))) =
      (tag.toList, entries.map rawAttribute,
        if close = ['>'] then .opening rest else .closed rest) := by
  have htake : (tag.toList ++ (written ++ (close ++ rest))).takeWhile isTagChar = tag.toList :=
    Text.takeWhile_append_of_stops htag.tagChar
      (stops_entries hwritten hclose rest (by decide) (by decide) (by decide))
  have hfuel : entries.length ≤ (tag.toList ++ (written ++ (close ++ rest))).length := by
    have := length_le_of_spellsEntries hwritten
    simp only [List.length_append]
    omega
  have hattrs := readAttributes_of_spellsEntries hwritten hclose rest hentries hfuel
    (lastChar '<' tag.toList)
  rw [readTag]
  simp only [htake, List.drop_left, hattrs, tagEnd_close hclose]

/-! ### Closing tags -/

/-- A name ends in blanks, and what is before them goes on the name of a closing tag. -/
def IsPadded (s : List Char) : Prop :=
  (s.drop 1).dropWhile isEndTagChar ≠ [] ∧ Text.isBlank ((s.drop 1).dropWhile isEndTagChar) = true

instance (s : List Char) : Decidable (IsPadded s) :=
  inferInstanceAs (Decidable (_ ∧ _))

theorem toNat_lt_of_isLetter {c : Char} (h : isLetter c = true) : c.toNat < 128 := by
  have hle {a b : Char} (hab : a ≤ b) : a.toNat ≤ b.toNat := hab
  simp only [isLetter, Bool.or_eq_true, Bool.and_eq_true, decide_eq_true_eq] at h
  rcases h with ⟨-, h⟩ | ⟨-, h⟩ <;> exact Nat.lt_of_le_of_lt (hle h) (by decide)

theorem isSpace_of_isLetter {c : Char} (h : isLetter c = true) : Text.isSpace c = false :=
  Text.forall_ascii (P := fun c => isLetter c = true → Text.isSpace c = false) (by decide)
    (toNat_lt_of_isLetter h) h

/-- A closing tag that starts with a letter holds nothing else if what ends its name is followed by its
    end, blanks apart. -/
theorem exactEndTag?_cons {c : Char} (hc : isLetter c = true) (t rest : List Char) :
    exactEndTag? (c :: (t ++ '>' :: rest)) =
      match (t.dropWhile isEndTagChar ++ '>' :: rest).dropWhile Text.isSpace with
      | '>' :: rest => some (c :: t.takeWhile isEndTagChar, rest)
      | _ => none := by
  have htake := Text.takeWhile_append_cons (p := isEndTagChar) (d := '>') (by decide) t rest
  have hdrop : (t ++ '>' :: rest).drop (t.takeWhile isEndTagChar).length =
      t.dropWhile isEndTagChar ++ '>' :: rest := by
    rw [List.drop_append_of_le_length (List.takeWhile_prefix isEndTagChar).length_le,
      Text.drop_length_takeWhile]
  rw [exactEndTag?, Text.dropWhile_of_stops (Text.stops_cons (isSpace_of_isLetter hc) _)]
  simp only [hc, if_true, htake]
  exact congrArg (fun s => match s.dropWhile Text.isSpace with
    | '>' :: rest => some (c :: t.takeWhile isEndTagChar, rest)
    | _ => none) hdrop

/-- A closing tag of a name in the narrower sense is read as it was written. -/
theorem exactEndTag?_append {tag : List Char} (htag : isName tag = true) (rest : List Char) :
    exactEndTag? (tag ++ '>' :: rest) = some (tag, rest) := by
  obtain ⟨c, t, rfl, hl, -, ht⟩ := exists_cons_of_isName htag
  have hgt : Text.isSpace '>' = false := by decide
  have hall := fun d hd => (nameCharFacts (ht d hd)).endTagChar
  rw [List.cons_append, exactEndTag?_cons hl, List.dropWhile_eq_nil_iff.2 hall,
    takeWhile_of_forall hall, List.nil_append, Text.dropWhile_of_stops (Text.stops_cons hgt rest)]
  rfl

/-- A closing tag is read as it was written, if its name is not padded: either all of the name is what a
    closing tag that holds nothing else has, or something else follows and the tag is no such one. -/
theorem readEndTag?_append {tag : List Char} (htag : IsTagName tag) (hpadded : ¬IsPadded tag)
    (rest : List Char) :
    readEndTag? (tag ++ '>' :: rest) = some (some (.endTag (String.ofList tag)), rest) := by
  have hgt : '>' ∉ tag := fun h => absurd (htag.tagChar '>' h) (by decide)
  have htake := Text.takeWhile_append_of_stops htag.tagChar
    (Text.stops_cons (c := '>') (by decide) rest)
  obtain ⟨⟨c, t, rfl, hc⟩, -, hlower⟩ := htag
  rw [readEndTag?, Text.cutAt_append hgt]
  simp only [List.cons_append]
  rw [exactEndTag?_cons hc]
  cases hrest : t.dropWhile isEndTagChar with
  | nil =>
    have hgt : Text.isSpace '>' = false := by decide
    have hall := takeWhile_of_forall (List.dropWhile_eq_nil_iff.1 hrest)
    rw [List.nil_append, Text.dropWhile_of_stops (Text.stops_cons hgt rest), hall]
    simp only [hlower]
  | cons d u =>
    -- What follows the blanks is in the name, so it does not end the tag.
    have hblank : Text.isBlank (d :: u) = false := by
      have hdrop : ((c :: t).drop 1).dropWhile isEndTagChar = d :: u := hrest
      rw [IsPadded, hdrop, not_and, Bool.not_eq_true] at hpadded
      exact hpadded (List.cons_ne_nil d u)
    cases hword : (d :: u).dropWhile Text.isSpace with
    | nil =>
      rw [Text.isBlank, List.all_eq_true.2 (List.dropWhile_eq_nil_iff.1 hword)] at hblank
      exact Bool.noConfusion hblank
    | cons e v =>
      have hmem : e ∈ c :: t := by
        have hu : e ∈ d :: u :=
          (List.dropWhile_sublist Text.isSpace).subset (hword ▸ List.mem_cons_self)
        exact List.mem_cons_of_mem c ((List.dropWhile_sublist isEndTagChar).subset (hrest ▸ hu))
      have hne : e ≠ '>' := fun h => hgt (h ▸ hmem)
      rw [List.cons_append] at htake
      rw [List.dropWhile_append, hword]
      simp only [List.isEmpty_cons, Bool.false_eq_true, if_false, List.cons_append, hc, if_true, htake,
        hlower]
      split
      next heq =>
        split at heq
        next hcons => exact absurd (List.cons.inj hcons).1 hne
        next => cases heq
      next => rfl

end Stencil.Markup
