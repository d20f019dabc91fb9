import Mathlib.Data.List.DropRight
import Mathlib.Data.List.TakeWhile
import Mathlib.Tactic.Common
import Stencil.Text.Search
import Stencil.Text.Space

/-!
# Cuts of texts in two parts

A reader that cuts a text at a mark stops at the first mark. These lemmas say where that is when the
text is known to be one part after another: the first part is passed over if no mark starts in it,
and the cut falls where the second part lets it.

* `takeWhile_append_of_stops`: a run ends where the next part starts with another character;
* `cutAt_append`, `cutWhere_append`: the first mark is the one after the first part;
* `cut_append_of_isolated`: so is a doubled mark, if no two in a row are in the first part;
* `trim_padded`, `trim_append_word`: what is trimmed of texts in a row;
* `fields_append_left`, `fields_append_right`: what stands around a text goes to its first and its last
  piece;
* `isInfix_trim`, `isInfix_of_cut`, `subset_of_mem_fields`: the parts are cut out of the text, and have
  no other characters.
-/

namespace Stencil.Text

/-- What holds of every character of a text. It is decided for these characters, as there are too many to
    look at all of them. -/
theorem forall_mem_of_all {p : Char → Prop} [DecidablePred p] {s : List Char}
    (h : (s.all fun c => decide (p c)) = true) : ∀ c ∈ s, p c :=
  fun c hc => of_decide_eq_true (List.all_eq_true.1 h c hc)

/-- A text does not start with a character of a class. -/
def Stops (p : Char → Bool) (s : List Char) : Prop :=
  ∀ c ∈ s.head?, p c = false

theorem stops_cons {p : Char → Bool} {c : Char} (h : p c = false) (s : List Char) :
    Stops p (c :: s) := by
  intro d hd
  rw [List.head?_cons, Option.mem_some_iff] at hd
  exact hd ▸ h

theorem takeWhile_of_stops {p : Char → Bool} {s : List Char} (h : Stops p s) :
    s.takeWhile p = [] := by
  cases s with
  | nil => rfl
  | cons c s => rw [List.takeWhile_cons, h c rfl, if_neg Bool.false_ne_true]

theorem dropWhile_of_stops {p : Char → Bool} {s : List Char} (h : Stops p s) :
    s.dropWhile p = s := by
  cases s with
  | nil => rfl
  | cons c s => rw [List.dropWhile_cons, h c rfl, if_neg Bool.false_ne_true]

theorem takeWhile_append_of_stops {p : Char → Bool} {a s : List Char} (ha : ∀ c ∈ a, p c = true)
    (hs : Stops p s) : (a ++ s).takeWhile p = a := by
  rw [List.takeWhile_append_of_pos ha, takeWhile_of_stops hs, List.append_nil]

theorem dropWhile_append_of_stops {p : Char → Bool} {a s : List Char} (ha : ∀ c ∈ a, p c = true)
    (hs : Stops p s) : (a ++ s).dropWhile p = s := by
  rw [List.dropWhile_append_of_pos ha, dropWhile_of_stops hs]

theorem drop_length_takeWhile (p : Char → Bool) (s : List Char) :
    s.drop (s.takeWhile p).length = s.dropWhile p :=
  (congrArg (List.drop _) (List.takeWhile_append_dropWhile (p := p)).symm).trans List.drop_left

theorem takeWhile_append_cons {p : Char → Bool} {d : Char} (hd : p d = false) (a s : List Char) :
    (a ++ d :: s).takeWhile p = a.takeWhile p := by
  induction a with
  | nil => exact takeWhile_of_stops (stops_cons hd s)
  | cons c a ih => rw [List.cons_append, List.takeWhile_cons, List.takeWhile_cons, ih]

/-- A word without a character ends before the first place of that character. -/
theorem exists_of_append_eq {d : Char} {word a s rest : List Char} (hd : d ∉ word)
    (h : a ++ d :: s = word ++ rest) : ∃ t, a = word ++ t ∧ rest = t ++ d :: s := by
  induction word generalizing a with
  | nil => exact ⟨a, rfl, h.symm⟩
  | cons w word ih =>
    rw [List.mem_cons, not_or] at hd
    cases a with
    | nil => exact absurd (List.cons.inj h).1 hd.1
    | cons c a =>
      obtain ⟨hcw, h⟩ := List.cons.inj h
      obtain ⟨t, rfl, ht⟩ := ih hd.2 h
      exact ⟨t, by rw [hcw, List.cons_append], ht⟩

theorem cutAt_append {mark : Char} {a : List Char} (h : mark ∉ a) (s : List Char) :
    cutAt mark (a ++ mark :: s) = some (a, s) := by
  induction a with
  | nil => simp [cutAt]
  | cons c a ih =>
    rw [List.mem_cons, not_or] at h
    rw [List.cons_append, cutAt, if_neg fun hc => h.1 hc.symm, ih h.2]
    rfl

theorem cutAt_eq_none_iff {mark : Char} {s : List Char} : cutAt mark s = none ↔ mark ∉ s := by
  induction s with
  | nil => simp [cutAt]
  | cons c s ih =>
    rw [cutAt]
    split_ifs with hc
    · simp [hc]
    · rw [Option.map_eq_none_iff, ih, List.mem_cons, not_or]
      exact ⟨fun h => ⟨Ne.symm hc, h⟩, fun h => h.2⟩

/-- The first field of a text ends at the first mark. -/
theorem fields_append {mark : Char} {a : List Char} (h : mark ∉ a) (s : List Char) :
    fields mark (a ++ mark :: s) = a :: fields mark s := by
  induction a with
  | nil => rw [List.nil_append, fields, if_pos rfl]
  | cons c a ih =>
    rw [List.mem_cons, not_or] at h
    rw [List.cons_append, fields, if_neg fun hc => h.1 hc.symm, ih h.2]

/-- Texts without a mark are the fields of what they are joined to by it. -/
theorem fields_join {mark : Char} {words : List (List Char)} (hne : words ≠ [])
    (h : ∀ word ∈ words, mark ∉ word) : fields mark (join [mark] words) = words := by
  induction words with
  | nil => exact absurd rfl hne
  | cons word words ih =>
    rw [List.forall_mem_cons] at h
    cases words with
    | nil => rw [join, fields_of_not_mem h.1]
    | cons next words =>
      rw [join, List.append_assoc, List.singleton_append, fields_append h.1,
        ih (List.cons_ne_nil next words) h.2]

/-- If no mark can be read at a place of the first part, the cut is that of the second part. -/
theorem cutWhere_append {mark? : List Char → Option (List Char)} {a s rest : List Char}
    (ha : ∀ t, t ≠ [] → t <:+ a → mark? (t ++ s) = none) (hs : mark? s = some rest) :
    cutWhere mark? (a ++ s) = some (a, rest) := by
  induction a with
  | nil => cases s <;> simp [cutWhere, hs]
  | cons c a ih =>
    have hc : mark? (c :: (a ++ s)) = none :=
      ha (c :: a) (List.cons_ne_nil c a) (List.suffix_refl _)
    rw [List.cons_append, cutWhere, hc]
    simp only
    rw [ih fun t ht hta => ha t ht (hta.trans (List.suffix_cons c a))]
    rfl

/-- What a cut at a mark leaves out is what the mark was read from. -/
theorem exists_of_cutWhere {mark? : List Char → Option (List Char)} {s before rest : List Char}
    (h : cutWhere mark? s = some (before, rest)) : ∃ t, s = before ++ t ∧ mark? t = some rest := by
  induction s generalizing before with
  | nil =>
    obtain ⟨rest', hr, he⟩ := Option.map_eq_some_iff.1 h
    obtain ⟨rfl, rfl⟩ := Prod.mk.inj he
    exact ⟨[], rfl, hr⟩
  | cons c s ih =>
    rw [cutWhere] at h
    split at h
    next rest' hr =>
      obtain ⟨rfl, rfl⟩ := Prod.mk.inj (Option.some.inj h)
      exact ⟨c :: s, rfl, hr⟩
    next =>
      obtain ⟨⟨b, r⟩, hc, he⟩ := Option.map_eq_some_iff.1 h
      obtain ⟨rfl, rfl⟩ := Prod.mk.inj he
      obtain ⟨t, rfl, ht⟩ := ih hc
      exact ⟨t, rfl, ht⟩

/-- A cut is at the first place where the mark can be read. -/
theorem first_of_cutWhere {mark? : List Char → Option (List Char)} {s before rest : List Char}
    (h : cutWhere mark? s = some (before, rest)) :
    ∃ t, s = before ++ t ∧ mark? t = some rest ∧
      ∀ u, u ≠ [] → u <:+ before → mark? (u ++ t) = none := by
  induction s generalizing before with
  | nil =>
    obtain ⟨rest', hr, he⟩ := Option.map_eq_some_iff.1 h
    obtain ⟨rfl, rfl⟩ := Prod.mk.inj he
    exact ⟨[], rfl, hr, fun u hu hsuffix => absurd (List.suffix_nil.1 hsuffix) hu⟩
  | cons c s ih =>
    rw [cutWhere] at h
    split at h
    next rest' hr =>
      obtain ⟨rfl, rfl⟩ := Prod.mk.inj (Option.some.inj h)
      exact ⟨c :: s, rfl, hr, fun u hu hsuffix => absurd (List.suffix_nil.1 hsuffix) hu⟩
    next hnone =>
      obtain ⟨⟨b, r⟩, hc, he⟩ := Option.map_eq_some_iff.1 h
      obtain ⟨rfl, rfl⟩ := Prod.mk.inj he
      obtain ⟨t, rfl, ht, hfirst⟩ := ih hc
      refine ⟨t, rfl, ht, fun u hu hsuffix => ?_⟩
      rcases List.suffix_cons_iff.1 hsuffix with rfl | hsuffix
      · exact hnone
      · exact hfirst u hu hsuffix

theorem not_mem_of_cutAt {mark : Char} {s before rest : List Char}
    (h : cutAt mark s = some (before, rest)) : mark ∉ before := by
  induction s generalizing before with
  | nil => cases h
  | cons c s ih =>
    rw [cutAt] at h
    split at h
    next => obtain ⟨rfl, rfl⟩ := Prod.mk.inj (Option.some.inj h); exact List.not_mem_nil
    next hc =>
      obtain ⟨⟨b, r⟩, hcut, he⟩ := Option.map_eq_some_iff.1 h
      obtain ⟨rfl, rfl⟩ := Prod.mk.inj he
      exact List.not_mem_cons_of_ne_of_not_mem (fun he => hc he.symm) (ih hcut)

/-- If a mark is read at the places of the first part whatever the second part is, the cut is that
    of the first part, and that of the second part if there is none. -/
theorem cutWhere_append_of_local {mark? : List Char → Option (List Char)} {a s : List Char}
    (hnil : mark? [] = none)
    (ha : ∀ t, t ≠ [] → t <:+ a → mark? (t ++ s) = (mark? t).map (· ++ s)) :
    cutWhere mark? (a ++ s) = match cutWhere mark? a with
      | some (before, rest) => some (before, rest ++ s)
      | none => (cutWhere mark? s).map fun (before, rest) => (a ++ before, rest) := by
  induction a with
  | nil =>
    rw [cutWhere, hnil]
    simp
  | cons c a ih =>
    have hc := ha (c :: a) (List.cons_ne_nil c a) (List.suffix_refl _)
    have ih := ih fun t ht hta => ha t ht (hta.trans (List.suffix_cons c a))
    rw [List.cons_append] at hc ⊢
    rw [cutWhere, cutWhere, hc, ih]
    cases mark? (c :: a) with
    | some rest => rfl
    | none =>
      cases cutWhere mark? a with
      | some cut => rfl
      | none => cases cutWhere mark? s <;> rfl

/-! ### Words -/

/-- A word without a character is not read over a place of that character. -/
theorem dropLead?_append_cons {d : Char} {word : List Char} (hd : d ∉ word) (a s : List Char) :
    dropLead? word (a ++ d :: s) = (dropLead? word a).map (· ++ d :: s) := by
  induction word generalizing a with
  | nil => rfl
  | cons w word ih =>
    rw [List.mem_cons, not_or] at hd
    cases a with
    | nil =>
      have hw : w ≠ d := fun h => hd.1 h.symm
      rw [List.nil_append, dropLead?, dropLead?, if_neg hw]
      rfl
    | cons c a =>
      rw [List.cons_append, dropLead?, dropLead?]
      split_ifs
      · exact ih hd.2 a
      · rfl

theorem cut_eq_cutWhere (word s : List Char) : cut word s = cutWhere (dropLead? word) s := by
  induction s with
  | nil => rfl
  | cons c s ih => rw [cut, cutWhere, ih]

theorem dropLead?_of_not_mem {w : Char} {s : List Char} (h : w ∉ s) (word : List Char) :
    dropLead? (w :: word) s = none := by
  cases s with
  | nil => rfl
  | cons c s =>
    rw [List.mem_cons, not_or] at h
    rw [dropLead?, if_neg h.1]

theorem cut_eq_none_of_not_mem {w : Char} {s : List Char} (h : w ∉ s) (word : List Char) :
    cut (w :: word) s = none := by
  rw [Option.eq_none_iff_forall_ne_some]
  rintro ⟨before, rest⟩ hcut
  rw [append_of_cut hcut] at h
  simp at h

/-- A word is not found before its first character comes. -/
theorem cut_append_of_not_mem {w : Char} {a : List Char} (h : w ∉ a) (word s : List Char) :
    cut (w :: word) (a ++ s) =
      (cut (w :: word) s).map fun (before, rest) => (a ++ before, rest) := by
  induction a with
  | nil => cases hcut : cut (w :: word) s <;> simp [hcut]
  | cons c a ih =>
    rw [List.mem_cons, not_or] at h
    rw [List.cons_append, cut, dropLead?, if_neg h.1, ih h.2, Option.map_map]
    rfl

/-- The first place of a word without a character is before or behind a place of that character. -/
theorem cut_append_cons {d : Char} {word : List Char} (hne : word ≠ []) (hd : d ∉ word)
    (a s : List Char) :
    cut word (a ++ d :: s) = match cut word a with
      | some (before, rest) => some (before, rest ++ d :: s)
      | none => (cut word s).map fun (before, rest) => (a ++ d :: before, rest) := by
  obtain ⟨w, word, rfl⟩ := List.exists_cons_of_ne_nil hne
  have hlead : dropLead? (w :: word) (d :: s) = none :=
    dropLead?_append_cons hd [] s
  have hcons : cut (w :: word) (d :: s) =
      (cut (w :: word) s).map fun (before, rest) => (d :: before, rest) := by
    rw [cut, hlead]
  rw [cut_eq_cutWhere, cutWhere_append_of_local rfl fun t _ _ => dropLead?_append_cons hd t s,
    ← cut_eq_cutWhere, ← cut_eq_cutWhere, hcons]
  cases cut (w :: word) a with
  | some cut => rfl
  | none => cases cut (w :: word) s <;> rfl

/-! ### Doubled marks -/

/-- Behind every place of a character in a text there is another character: it does not come twice in
    a row, and not at the end. -/
def Isolated (mark : Char) : List Char → Prop
  | [] => True
  | c :: s => (c = mark → ∃ d ∈ s.head?, d ≠ mark) ∧ Isolated mark s

instance decidableIsolated (mark : Char) : (s : List Char) → Decidable (Isolated mark s)
  | [] => .isTrue trivial
  | c :: s =>
    have := decidableIsolated mark s
    inferInstanceAs (Decidable ((c = mark → ∃ d ∈ s.head?, d ≠ mark) ∧ Isolated mark s))

theorem Isolated.exists_cons {mark : Char} {s : List Char} (h : Isolated mark (mark :: s)) :
    ∃ d t, s = d :: t ∧ d ≠ mark := by
  obtain ⟨d, hd, hne⟩ := h.1 rfl
  cases s with
  | nil => simp at hd
  | cons c s => exact ⟨d, s, by simpa using hd, hne⟩

theorem isolated_of_not_mem {mark : Char} {s : List Char} (h : mark ∉ s) : Isolated mark s := by
  induction s with
  | nil => trivial
  | cons c s ih =>
    rw [List.mem_cons, not_or] at h
    exact ⟨fun hc => absurd hc.symm h.1, ih h.2⟩

theorem Isolated.append {mark : Char} {s t : List Char} (hs : Isolated mark s)
    (ht : Isolated mark t) : Isolated mark (s ++ t) := by
  induction s with
  | nil => exact ht
  | cons c s ih =>
    refine ⟨fun hc => ?_, ih hs.2⟩
    subst hc
    obtain ⟨d, u, rfl, hd⟩ := hs.exists_cons
    exact ⟨d, rfl, hd⟩

/-- At a character that is not doubled there is no doubled mark, whatever stands behind the text. -/
theorem Isolated.dropLead? {mark c : Char} {s : List Char} (h : Isolated mark (c :: s))
    (t : List Char) : dropLead? [mark, mark] (c :: s ++ t) = none := by
  rw [List.cons_append, Text.dropLead?]
  split_ifs with hc
  · subst hc
    obtain ⟨d, u, rfl, hd⟩ := h.exists_cons
    rw [List.cons_append, Text.dropLead?, if_neg hd.symm]
  · rfl

theorem cut_eq_none_of_isolated {mark : Char} {s : List Char} (h : Isolated mark s) :
    cut [mark, mark] s = none := by
  induction s with
  | nil => rfl
  | cons c s ih =>
    have hlead := h.dropLead? []
    rw [List.append_nil] at hlead
    rw [cut, hlead, ih h.2]
    rfl

/-- Behind a text in which the mark is not doubled a doubled mark is found as if the text were not
    there. -/
theorem cut_isolated_append {mark : Char} {s : List Char} (h : Isolated mark s) (t : List Char) :
    cut [mark, mark] (s ++ t) =
      (cut [mark, mark] t).map fun (before, rest) => (s ++ before, rest) := by
  induction s with
  | nil => cases hcut : cut [mark, mark] t <;> simp [hcut]
  | cons c s ih =>
    have hlead := h.dropLead? t
    rw [List.cons_append] at hlead ⊢
    rw [cut, hlead, ih h.2, Option.map_map]
    rfl

theorem cut_append_of_isolated {mark : Char} {s : List Char} (h : Isolated mark s) (t : List Char) :
    cut [mark, mark] (s ++ mark :: mark :: t) = some (s, t) := by
  have hcut : cut [mark, mark] (mark :: mark :: t) = some ([], t) := by
    rw [cut, dropLead?, if_pos rfl, dropLead?, if_pos rfl, dropLead?]
  simp [cut_isolated_append h, hcut]

/-- Before the first doubled mark the mark is not doubled. -/
theorem isolated_of_cut {mark : Char} {s before after : List Char}
    (h : cut [mark, mark] s = some (before, after)) : Isolated mark before := by
  induction s generalizing before with
  | nil => cases h
  | cons c s ih =>
    rw [cut] at h
    split at h
    next => obtain ⟨rfl, rfl⟩ := Prod.mk.inj (Option.some.inj h); trivial
    next hlead =>
      obtain ⟨⟨b, r⟩, hcut, he⟩ := Option.map_eq_some_iff.1 h
      obtain ⟨rfl, rfl⟩ := Prod.mk.inj he
      refine ⟨fun hc => ?_, ih hcut⟩
      subst hc
      -- A mark here would be doubled by the text behind it, which goes on with a mark if `b` is empty.
      rw [append_of_cut hcut] at hlead
      cases b with
      | nil => simp [Text.dropLead?] at hlead
      | cons d b => exact ⟨d, rfl, by simpa [Text.dropLead?, eq_comm] using hlead⟩

theorem isolated_iff {mark : Char} {s : List Char} :
    Isolated mark s ↔ ¬[mark, mark] <:+: s ∧ s.getLast? ≠ some mark := by
  induction s with
  | nil => simp [Isolated]
  | cons c s ih =>
    rw [Isolated, ih, List.infix_cons_iff]
    cases s with
    | nil => simp
    | cons d s =>
      simp only [List.head?_cons, Option.mem_some_iff, exists_eq_left', List.cons_prefix_cons,
        List.nil_prefix, and_true, List.getLast?_cons_cons]
      grind

/-! ### Parts of a text -/

/-- What stands between two parts of a text is told by their lengths. -/
theorem take_drop_append (a b c : List Char) :
    ((a ++ (b ++ c)).drop a.length).take ((a ++ (b ++ c)).length - a.length - c.length) = b := by
  have hlength : (a ++ (b ++ c)).length - a.length - c.length = b.length := by
    simp only [List.length_append]
    omega
  rw [hlength, List.drop_left, List.take_left]

theorem trimEnd_trimEnd (s : List Char) : trimEnd (trimEnd s) = trimEnd s := by
  induction s with
  | nil => rfl
  | cons c s ih =>
    rw [trimEnd]
    split
    next heq =>
      split
      · rfl
      next hc => rw [trimEnd_cons_of_not_space [] (by simpa using hc)]; rfl
    next d t heq => rw [trimEnd, ← heq, ih, heq]

/-- The two ends are trimmed independently of each other. -/
theorem trimStart_trimEnd (s : List Char) : trimStart (trimEnd s) = trimEnd (trimStart s) := by
  induction s with
  | nil => rfl
  | cons c s ih =>
    cases hc : isSpace c with
    | false =>
      have hstart : ∀ t, trimStart (c :: t) = c :: t := fun t => by
        rw [trimStart, List.dropWhile_cons, hc, if_neg Bool.false_ne_true]
      rw [trimEnd_cons_of_not_space s hc, hstart, hstart, trimEnd_cons_of_not_space s hc]
    | true =>
      have hstart : ∀ t, trimStart (c :: t) = trimStart t := fun t => by
        rw [trimStart, List.dropWhile_cons, hc, if_pos rfl, trimStart]
      rw [hstart s, ← ih, trimEnd]
      split
      next heq => rw [if_pos hc, heq]
      next d t heq => rw [hstart, heq]

theorem trim_trimStart (s : List Char) : trim (trimStart s) = trim s := by
  rw [trim, trimStart, trimStart, List.dropWhile_idempotent, ← trimStart, ← trim]

theorem trim_trimEnd (s : List Char) : trim (trimEnd s) = trim s := by
  rw [trim, trimStart_trimEnd, trimEnd_trimEnd, ← trim]

/-- Blanks around a text do not matter to what it is trimmed to. -/
theorem trim_padded {before after : List Char} (hbefore : isBlank before = true)
    (hafter : isBlank after = true) (s : List Char) : trim (before ++ (s ++ after)) = trim s := by
  have hend : trimEnd (s ++ after) = trimEnd s := by
    induction s with
    | nil =>
      rw [isBlank, List.all_eq_true] at hafter
      induction after with
      | nil => rfl
      | cons c after ih =>
        have ih : trimEnd after = [] := ih fun d hd => hafter d (List.mem_cons_of_mem c hd)
        simp only [List.nil_append, trimEnd, ih]
        exact if_pos (hafter c List.mem_cons_self)
    | cons c s ih => rw [List.cons_append, trimEnd, trimEnd, ih]
  have hstart : trimStart (before ++ (s ++ after)) = trimStart (s ++ after) :=
    List.dropWhile_append_of_pos (List.all_eq_true.1 hbefore)
  rw [trim, hstart, ← trimStart_trimEnd, hend, trimStart_trimEnd, ← trim]

theorem trim_blanks_append {before : List Char} (h : isBlank before = true) (s : List Char) :
    trim (before ++ s) = trim s := by
  have hpadded : trim (before ++ (s ++ [])) = trim s := trim_padded h rfl s
  rwa [List.append_nil] at hpadded

theorem trim_append_blanks {after : List Char} (h : isBlank after = true) (s : List Char) :
    trim (s ++ after) = trim s :=
  have hpadded : trim ([] ++ (s ++ after)) = trim s := trim_padded rfl h s
  hpadded

/-- Around a word without blanks a text is trimmed at its own ends. -/
theorem trim_append_word {word : List Char} (hne : word ≠ []) (hword : ∀ c ∈ word, isSpace c = false)
    (before after : List Char) :
    trim (before ++ (word ++ after)) = trimStart before ++ (word ++ trimEnd after) := by
  have hend : trimEnd (word ++ after) = word ++ trimEnd after := by
    clear hne
    induction word with
    | nil => rfl
    | cons w word ih =>
      rw [List.forall_mem_cons] at hword
      rw [List.cons_append, trimEnd_cons_of_not_space _ hword.1, ih hword.2, List.cons_append]
  obtain ⟨w, word, rfl⟩ := List.exists_cons_of_ne_nil hne
  have hw : isSpace w = false := hword w List.mem_cons_self
  have hstart : trimStart (before ++ (w :: word ++ after)) =
      trimStart before ++ (w :: word ++ after) := by
    induction before with
    | nil => exact dropWhile_of_stops (stops_cons hw _)
    | cons c before ih =>
      rw [trimStart, trimStart] at ih ⊢
      rw [List.cons_append, List.dropWhile_cons, List.dropWhile_cons, ih]
      split <;> rfl
  have happend : ∀ s : List Char, trimEnd (s ++ (w :: word ++ after)) =
      s ++ (w :: word ++ trimEnd after) := by
    intro s
    induction s with
    | nil => exact hend
    | cons c s ih =>
      rw [List.cons_append, trimEnd, ih]
      cases s <;> rfl
  rw [trim, hstart, happend]

/-- What is trimmed has no blanks at its ends. -/
theorem trim_trim (s : List Char) : trim (trim s) = trim s := by
  rw [trim]
  cases hs : trimStart s with
  | nil => rw [trim, hs]; rfl
  | cons c t =>
    have hc : isSpace c = false := by
      have hdrop : s.dropWhile isSpace = c :: t := hs
      have := List.head_dropWhile_not isSpace (hdrop ▸ List.cons_ne_nil c t)
      simpa [hdrop] using this
    have htrim : trim s = c :: trimEnd t := by rw [trim, hs, trimEnd_cons_of_not_space t hc]
    rw [htrim, ← trim, trim_cons_of_not_space _ hc, trimEnd_trimEnd]

theorem trimStart_eq_self_iff {s : List Char} : trimStart s = s ↔ Stops isSpace s := by
  refine ⟨fun h c hc => ?_, dropWhile_of_stops⟩
  obtain ⟨t, rfl⟩ := List.head?_eq_some_iff.1 hc
  by_contra hspace
  rw [Bool.not_eq_false] at hspace
  rw [trimStart, List.dropWhile_cons, if_pos hspace] at h
  have hlength := (List.dropWhile_suffix isSpace (l := t)).length_le
  rw [h, List.length_cons] at hlength
  omega

theorem trimEnd_eq_self_iff {s : List Char} :
    trimEnd s = s ↔ ∀ c ∈ s.getLast?, isSpace c = false := by
  induction s with
  | nil => simp [trimEnd]
  | cons c s ih =>
    cases s with
    | nil => cases hc : isSpace c <;> simp [trimEnd, hc]
    | cons d s =>
      rw [List.getLast?_cons_cons, ← ih, trimEnd]
      split
      next heq =>
        rw [heq]
        split_ifs <;> simp
      next heq =>
        rw [heq]
        simp

/-- A text is trimmed if it neither begins nor ends with a blank. -/
theorem trim_eq_self_iff {s : List Char} :
    trim s = s ↔ Stops isSpace s ∧ ∀ c ∈ s.getLast?, isSpace c = false := by
  rw [← trimStart_eq_self_iff, ← trimEnd_eq_self_iff]
  constructor
  · intro h
    constructor
    · rw [← h, trim, trimStart_trimEnd, trimStart, trimStart, List.dropWhile_idempotent]
    · rw [← h, trim, trimEnd_trimEnd]
  · rintro ⟨hstart, hend⟩
    rw [trim, hstart, hend]

/-- Texts in a row are trimmed at the start of the first and the end of the last one. -/
theorem trim_append {s t : List Char} (hs : trim s = s) (hne : s ≠ []) (hne' : t ≠ [])
    (ht : ∀ c ∈ t.getLast?, isSpace c = false) : trim (s ++ t) = s ++ t := by
  obtain ⟨c, s, rfl⟩ := List.exists_cons_of_ne_nil hne
  refine trim_eq_self_iff.2 ⟨fun d hd => (trim_eq_self_iff.1 hs).1 d hd, fun d hd => ht d ?_⟩
  rwa [List.getLast?_append_of_ne_nil _ hne'] at hd

theorem trim_of_forall_not_space {s : List Char} (h : ∀ c ∈ s, isSpace c = false) : trim s = s :=
  trim_eq_self_iff.2
    ⟨fun c hc => h c (List.mem_of_mem_head? hc), fun c hc => h c (List.mem_of_mem_getLast? hc)⟩

theorem isPrefix_trimEnd (s : List Char) : trimEnd s <+: s := by
  induction s with
  | nil => exact List.prefix_refl _
  | cons c s ih =>
    rw [trimEnd]
    split
    next heq =>
      split
      · exact List.nil_prefix
      · exact (List.prefix_cons_inj c).2 List.nil_prefix
    next d t heq => exact (List.prefix_cons_inj c).2 (heq ▸ ih)

/-- Trimming cuts a text out of itself. -/
theorem isInfix_trim (s : List Char) : trim s <:+: s :=
  (isPrefix_trimEnd (trimStart s)).isInfix.trans (List.dropWhile_suffix isSpace).isInfix

theorem exists_eq_trimEnd_append (s : List Char) :
    ∃ trail, isBlank trail = true ∧ s = trimEnd s ++ trail := by
  induction s with
  | nil => exact ⟨[], rfl, rfl⟩
  | cons c s ih =>
    obtain ⟨trail, htrail, hs⟩ := ih
    rw [trimEnd]
    split
    next heq =>
      rw [heq, List.nil_append] at hs
      split_ifs with hc
      · exact ⟨c :: trail, by simp_all [isBlank], by rw [← hs, List.nil_append]⟩
      · exact ⟨trail, htrail, by rw [← hs, List.singleton_append]⟩
    next d t heq => exact ⟨trail, htrail, by rw [List.cons_append, ← heq, ← hs]⟩

/-- What is trimmed off are blanks. -/
theorem exists_eq_append_trim (s : List Char) :
    ∃ lead trail, isBlank lead = true ∧ isBlank trail = true ∧ s = lead ++ (trim s ++ trail) := by
  obtain ⟨trail, htrail, hs⟩ := exists_eq_trimEnd_append (trimStart s)
  refine ⟨s.takeWhile isSpace, trail, ?_, htrail, ?_⟩
  · exact List.all_eq_true.2 fun c hc => List.mem_takeWhile_imp hc
  · rw [trim, ← hs, trimStart, List.takeWhile_append_dropWhile]

theorem trimEnd_subset (s : List Char) : trimEnd s ⊆ s := (isPrefix_trimEnd s).subset

/-- Trimming brings in no characters. -/
theorem trim_subset (s : List Char) : trim s ⊆ s := (isInfix_trim s).subset

theorem subset_of_cutAt {mark : Char} {s before after : List Char}
    (h : cutAt mark s = some (before, after)) : mark ∈ s ∧ before ⊆ s ∧ after ⊆ s := by
  rw [append_of_cutAt h]
  exact ⟨List.mem_append_right _ List.mem_cons_self, List.subset_append_left _ _,
    List.Subset.trans (List.subset_cons_self mark after) (List.subset_append_right _ _)⟩

/-- The sides of a cut are cut out of the text. -/
theorem isInfix_of_cut {word s before after : List Char} (h : cut word s = some (before, after)) :
    before <:+: s ∧ after <:+: s := by
  rw [append_of_cut h]
  exact ⟨(List.prefix_append before word).isInfix.trans (List.prefix_append _ after).isInfix,
    (List.suffix_append _ after).isInfix⟩

/-- The fields of a text bring in no characters. -/
theorem subset_of_mem_fields {mark : Char} {s f : List Char} (h : f ∈ fields mark s) : f ⊆ s := by
  induction s generalizing f with
  | nil =>
    obtain rfl := List.mem_singleton.1 h
    exact List.Subset.refl _
  | cons c s ih =>
    rw [fields] at h
    split at h
    · rcases List.mem_cons.1 h with rfl | h
      · exact List.nil_subset _
      · exact List.Subset.trans (ih h) (List.subset_cons_self c s)
    · split at h
      next heq => exact absurd heq (fields_ne_nil mark s)
      next g gs heq =>
        rw [heq] at ih
        rcases List.mem_cons.1 h with rfl | h
        · exact List.cons_subset_cons c (ih List.mem_cons_self)
        · exact List.Subset.trans (ih (List.mem_cons_of_mem g h)) (List.subset_cons_self c s)

/-- There is no mark in the fields of a text. -/
theorem not_mem_of_mem_fields {mark : Char} {s f : List Char} (h : f ∈ fields mark s) : mark ∉ f := by
  induction s generalizing f with
  | nil =>
    obtain rfl := List.mem_singleton.1 h
    exact List.not_mem_nil
  | cons c s ih =>
    rw [fields] at h
    split at h
    next =>
      rcases List.mem_cons.1 h with rfl | h
      · exact List.not_mem_nil
      · exact ih h
    next hc =>
      split at h
      next heq => exact absurd heq (fields_ne_nil mark s)
      next g gs heq =>
        rw [heq] at ih
        rcases List.mem_cons.1 h with rfl | h
        · exact List.not_mem_cons_of_ne_of_not_mem (Ne.symm hc) (ih List.mem_cons_self)
        · exact ih (List.mem_cons_of_mem g h)

/-- What stands before the last mark is told by the text. -/
theorem append_mark_inj {mark : Char} {a a' s s' : List Char} (hs : mark ∉ s) (hs' : mark ∉ s')
    (h : a ++ mark :: s = a' ++ mark :: s') : a = a' := by
  have hreverse : s.reverse ++ mark :: a.reverse = s'.reverse ++ mark :: a'.reverse := by
    simpa using congrArg List.reverse h
  have hcut := congrArg (cutAt mark) hreverse
  rw [cutAt_append (by simpa using hs), cutAt_append (by simpa using hs')] at hcut
  exact List.reverse_injective (Prod.mk.inj (Option.some.inj hcut)).2

theorem mem_of_mem_intercalate {d : Char} {sep : List Char} {words : List (List Char)}
    (h : d ∈ sep.intercalate words) : d ∈ sep ∨ ∃ word ∈ words, d ∈ word := by
  induction words with
  | nil => cases h
  | cons word words ih =>
    cases words with
    | nil => exact .inr ⟨word, List.mem_singleton_self word, by rwa [List.intercalate_singleton] at h⟩
    | cons next words =>
      rw [List.intercalate_cons_cons, List.mem_append, List.mem_append] at h
      rcases h with (h | h) | h
      · exact .inr ⟨word, List.mem_cons_self, h⟩
      · exact .inl h
      · exact (ih h).imp_right fun ⟨w, hw, hd⟩ => ⟨w, List.mem_cons_of_mem word hw, hd⟩

theorem join_eq_intercalate (sep : List Char) (words : List (List Char)) :
    join sep words = sep.intercalate words := by
  induction words with
  | nil => rfl
  | cons word words ih =>
    cases words with
    | nil => rw [join, List.intercalate_singleton]
    | cons next words => rw [join, ih, List.intercalate_cons_cons, List.append_assoc]

theorem mem_of_mem_join {d : Char} {sep : List Char} {words : List (List Char)}
    (h : d ∈ join sep words) : d ∈ sep ∨ ∃ word ∈ words, d ∈ word :=
  mem_of_mem_intercalate (join_eq_intercalate sep words ▸ h)

/-! ### Texts around pieces -/

/-- What stands in front of a text is part of its first piece. -/
theorem fields_append_left {mark : Char} {b : List Char} (h : mark ∉ b) (s : List Char) :
    ∃ f fs, fields mark s = f :: fs ∧ fields mark (b ++ s) = (b ++ f) :: fs := by
  obtain ⟨f, fs, hs⟩ := List.exists_cons_of_ne_nil (fields_ne_nil mark s)
  refine ⟨f, fs, hs, ?_⟩
  induction b with
  | nil => exact hs
  | cons c b ih =>
    rw [List.mem_cons, not_or] at h
    rw [List.cons_append, fields, if_neg (Ne.symm h.1), ih h.2]
    rfl

/-- What stands behind a text is part of its last piece. -/
theorem fields_append_right {mark : Char} {b : List Char} (h : mark ∉ b) (s : List Char) :
    ∃ fs f, fields mark s = fs ++ [f] ∧ fields mark (s ++ b) = fs ++ [f ++ b] := by
  induction s with
  | nil => exact ⟨[], [], rfl, fields_of_not_mem h⟩
  | cons c s ih =>
    obtain ⟨fs, f, hs, hsb⟩ := ih
    rw [List.cons_append, fields, fields, hs, hsb]
    by_cases hc : c = mark
    · rw [if_pos hc, if_pos hc]
      exact ⟨[] :: fs, f, rfl, rfl⟩
    · rw [if_neg hc, if_neg hc]
      cases fs with
      | nil => exact ⟨[], c :: f, rfl, rfl⟩
      | cons g fs => exact ⟨(c :: g) :: fs, f, rfl, rfl⟩

theorem trimStart_padded {before : List Char} (h : isBlank before = true) (s : List Char) :
    trimStart (before ++ s) = trimStart s :=
  List.dropWhile_append_of_pos (List.all_eq_true.1 h)

/-- Punctuation is not among blanks. -/
theorem not_mem_blanks {c : Char} {s : List Char} (hs : isBlank s = true)
    (hc : isSpace c = false) : c ∉ s := fun h =>
  absurd (List.all_eq_true.1 hs c h) (by simp [hc])

/-- Blanks around a text do not matter to what its pieces are trimmed to. -/
theorem map_trim_fields_padded {mark : Char} (hmark : isSpace mark = false)
    {before after : List Char} (hbefore : isBlank before = true) (hafter : isBlank after = true)
    (s : List Char) :
    (fields mark (before ++ (s ++ after))).map trim = (fields mark s).map trim := by
  obtain ⟨f, fs, hs, hpadded⟩ := fields_append_left (not_mem_blanks hbefore hmark) (s ++ after)
  obtain ⟨gs, g, hs', hs''⟩ := fields_append_right (not_mem_blanks hafter hmark) s
  rw [hpadded, List.map_cons, trim_blanks_append hbefore, ← List.map_cons, ← hs, hs', hs'',
    List.map_append, List.map_append, List.map_singleton, List.map_singleton,
    trim_append_blanks hafter]

end Stencil.Text
