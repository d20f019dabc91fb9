import Mathlib.Tactic.Common
import Stencil.Text.LowerCase
import Stencil.Text.Space

/-!
# Texts in lower case

A text in lower case is in lower case already (`lowerCase_lowerCase`): no small letter is a capital of
another one. The characters of such a text that are not those of the text it was made from are letters
and one combining mark, so a reader that tells names by a few marks and the blanks takes the lower case
of a name for a name (`forall_mem_lowerCase`).

The capitals are given in runs, and so are their small letters. That none of these is a capital itself
is checked run by run: they lie apart, or alternate with the capitals (`isApart_caseRuns`).
-/

namespace Stencil.Text

/-- A property of the ASCII characters can be checked number by number. -/
theorem forall_ascii {P : Char → Prop} (h : ∀ n < 128, P (Char.ofNat n)) {c : Char}
    (hc : c.toNat < 128) : P c := by
  have := h c.toNat hc
  rwa [Char.ofNat_toNat] at this

/-- Lower case leaves a character as it is, wherever it stands. -/
structure IsSmall (c : Char) : Prop where
  lowerChar_eq : lowerChar c = c
  ne_dotted : c.toNat ≠ 0x130
  ne_sigma : c.toNat ≠ 0x3A3

/-- A character that lower case may bring in. -/
structure IsLowered (c : Char) : Prop extends IsSmall c where
  not_space : isSpace c = false
  letter : ('a' ≤ c ∧ c ≤ 'z') ∨ 0x80 ≤ c.toNat

/-! ### The runs of capitals -/

namespace CaseRun

/-- The first of the small letters of a run. -/
def lowerFirst (r : CaseRun) : Nat := (r.first + r.shift).toNat

/-- The last of the small letters of a run. -/
def lowerLast (r : CaseRun) : Nat := (r.last + r.shift).toNat

/-- The small letters of a run are no capitals of another one: they lie before or behind it, or between
    its capitals. -/
def isApart (r r' : CaseRun) : Bool :=
  r.lowerLast.blt r'.first || r'.last.blt r.lowerFirst ||
    (r'.step.beq 2 && (r.step.beq 2 || r.first.beq r.last) &&
      !(r.lowerFirst % 2).beq (r'.first % 2))

/-- No number from `first` to `last` is in a run of numbers. -/
def misses (r : CaseRun) (first last : Nat) : Bool :=
  r.lowerLast.blt first || last.blt r.lowerFirst

/-- The small letters of a run are characters, no blanks, and letters from a to z if they are of
    ASCII. -/
def isProper (r : CaseRun) : Bool :=
  r.misses 0 0x60 && r.misses 0x7B 0xA0 && r.misses 0x130 0x130 && r.misses 0x3A3 0x3A3 &&
    r.misses 0x1680 0x1680 && r.misses 0x2000 0x200A && r.misses 0x2028 0x202F &&
    r.misses 0x205F 0x205F && r.misses 0x3000 0x3000 && r.misses 0xD800 0xDFFF &&
    r.lowerLast.blt 0x110000 && r.first.ble r.last

end CaseRun

theorem isApart_caseRuns : (caseRuns.all fun r => caseRuns.all fun r' => r.isApart r') = true := by
  decide +kernel

theorem isProper_caseRuns : (caseRuns.all fun r => r.isProper) = true := by
  decide

/-- The numbers of a run of capitals. -/
def CaseRun.Holds (r : CaseRun) (n : Nat) : Prop :=
  r.first ≤ n ∧ n ≤ r.last ∧ (n - r.first) % r.step = 0

theorem lowerChar_of_holds {c : Char} (hc : 0x80 ≤ c.toNat) :
    (∃ r ∈ caseRuns, r.Holds c.toNat ∧ lowerChar c = Char.ofNat (c.toNat + r.shift).toNat) ∨
      lowerChar c = c := by
  rw [lowerChar, if_neg (by omega)]
  split
  next r hr =>
    refine .inl ⟨r, List.mem_of_find?_eq_some hr, ?_, rfl⟩
    have := List.find?_some hr
    simp only [Bool.and_eq_true, decide_eq_true_eq, beq_iff_eq] at this
    exact ⟨this.1.1, this.1.2, this.2⟩
  next => exact .inr rfl

theorem lowerChar_of_not_holds {c : Char} (hc : 0x80 ≤ c.toNat)
    (h : ∀ r ∈ caseRuns, ¬r.Holds c.toNat) : lowerChar c = c := by
  obtain ⟨r, hr, hholds, -⟩ | hself := lowerChar_of_holds hc
  · exact absurd hholds (h r hr)
  · exact hself

/-- A letter from a to z is a small one. -/
theorem isLowered_of_letter {c : Char} (h : 'a' ≤ c ∧ c ≤ 'z') : IsLowered c := by
  have hlast : c.toNat ≤ 'z'.toNat := h.2
  have hascii : c.toNat < 128 := Nat.lt_of_le_of_lt hlast (by decide)
  have hfacts := forall_ascii (P := fun c => 'a' ≤ c ∧ c ≤ 'z' → lowerChar c = c ∧ isSpace c = false)
    (by decide) hascii h
  exact ⟨⟨hfacts.1, by omega, by omega⟩, hfacts.2, .inl h⟩

theorem toNat_ofNat_of_valid {n : Nat} (h : n < 0xD800 ∨ 0xDFFF < n ∧ n < 0x110000) :
    (Char.ofNat n).toNat = n := by
  rw [Char.ofNat, dif_pos h]
  rfl

/-- The small letters of one run are no capitals of another one. -/
theorem not_holds_of_isApart {r r' : CaseRun} (h : r.isApart r' = true) {n m : Nat}
    (hn : r.Holds n) (hm : (m : Int) = n + r.shift) (hlower : (r.lowerFirst : Int) = r.first + r.shift)
    (hle : m ≤ r.lowerLast) : ¬r'.Holds m := by
  rintro ⟨hfirst', hlast', hstep'⟩
  obtain ⟨hfirst, hlast, hstep⟩ := hn
  simp only [CaseRun.isApart, Bool.or_eq_true, Bool.and_eq_true, Nat.blt_eq, Nat.beq_eq,
    Bool.not_eq_true', Bool.eq_false_iff, ne_eq] at h
  rcases h with (h | h) | ⟨⟨htwo', htwo | hsingle⟩, hparity⟩
  · omega
  · omega
  · rw [htwo] at hstep
    rw [htwo'] at hstep'
    omega
  · rw [htwo'] at hstep'
    omega

/-- The small letter of a capital is no capital. -/
theorem isLowered_of_holds {r : CaseRun} (hr : r ∈ caseRuns) {n : Nat} (hn : r.Holds n) :
    IsLowered (Char.ofNat (n + r.shift).toNat) := by
  have hproper := List.all_eq_true.1 isProper_caseRuns r hr
  simp only [CaseRun.isProper, CaseRun.misses, Bool.and_eq_true, Bool.or_eq_true, Nat.blt_eq,
    Nat.ble_eq] at hproper
  have hfirst := hn.1
  have hlast := hn.2.1
  generalize hm : (n + r.shift).toNat = m
  have hle : r.lowerFirst ≤ m ∧ m ≤ r.lowerLast := by
    simp only [CaseRun.lowerFirst, CaseRun.lowerLast]
    omega
  have hlower : (r.lowerFirst : Int) = r.first + r.shift := by
    simp only [CaseRun.lowerFirst, CaseRun.lowerLast] at hproper ⊢
    omega
  have hchar : (Char.ofNat m).toNat = m := toNat_ofNat_of_valid (by omega)
  by_cases hascii : m < 0x80
  · have ha : 'a'.toNat ≤ (Char.ofNat m).toNat := by
      have : 'a'.toNat = 0x61 := rfl
      omega
    have hz : (Char.ofNat m).toNat ≤ 'z'.toNat := by
      have : 'z'.toNat = 0x7A := rfl
      omega
    exact isLowered_of_letter ⟨ha, hz⟩
  · refine ⟨⟨lowerChar_of_not_holds (by omega) fun r' hr' => ?_, by omega, by omega⟩, ?_,
      .inr (by omega)⟩
    · have hapart := List.all_eq_true.1 (List.all_eq_true.1 isApart_caseRuns r hr) r' hr'
      rw [hchar]
      exact not_holds_of_isApart hapart hn (by omega) hlower hle.2
    · rw [isSpace, hchar]
      simp only [Bool.or_eq_false_iff, Bool.and_eq_false_iff, decide_eq_false_iff_not,
        beq_eq_false_iff_ne]
      omega

/-- Lower case leaves a character as it is or makes a small letter of it. -/
theorem lowerChar_cases (c : Char) : lowerChar c = c ∨ IsLowered (lowerChar c) := by
  by_cases hascii : c.toNat < 0x80
  · have hlower : lowerChar c = c.toLower := by rw [lowerChar, if_pos hascii]
    rw [hlower]
    refine (forall_ascii (P := fun c => c.toLower = c ∨ ('a' ≤ c.toLower ∧ c.toLower ≤ 'z'))
      (by decide) hascii).imp_right isLowered_of_letter
  · obtain ⟨r, hr, hn, heq⟩ | heq := lowerChar_of_holds (c := c) (by omega)
    · exact .inr (heq ▸ isLowered_of_holds hr hn)
    · exact .inl heq

/-! ### Texts -/

theorem isLowered_special : IsLowered 'i' ∧ IsLowered (Char.ofNat 0x307) ∧
    IsLowered (Char.ofNat 0x3C2) ∧ IsLowered (Char.ofNat 0x3C3) := by
  refine ⟨isLowered_of_letter (by decide), ?_, ?_, ?_⟩ <;>
    exact ⟨⟨by decide, by decide, by decide⟩, by decide, .inr (by decide)⟩

/-- The characters of a text in lower case are small, and are from the text or brought in by lower
    case. -/
theorem of_mem_lowerCaseAfter {before s : List Char} {d : Char} (h : d ∈ lowerCaseAfter before s) :
    d ∈ s ∧ IsSmall d ∨ IsLowered d := by
  induction s generalizing before with
  | nil => exact absurd h List.not_mem_nil
  | cons c s ih =>
    obtain ⟨hi, hmark, hfinal, hsigma⟩ := isLowered_special
    rw [lowerCaseAfter] at h
    rcases List.mem_append.1 h with h | h
    · split_ifs at h with hdotted hcapital hend
      · rcases List.mem_cons.1 h with rfl | h
        · exact .inr hi
        · exact .inr (List.mem_singleton.1 h ▸ hmark)
      · exact .inr (List.mem_singleton.1 h ▸ hfinal)
      · exact .inr (List.mem_singleton.1 h ▸ hsigma)
      · obtain rfl := List.mem_singleton.1 h
        rcases lowerChar_cases c with hself | hlowered
        · rw [hself]
          exact .inl ⟨List.mem_cons_self, hself, hdotted, hcapital⟩
        · exact .inr hlowered
    · rcases ih h with ⟨hd, hsmall⟩ | hlowered
      · exact .inl ⟨List.mem_cons_of_mem c hd, hsmall⟩
      · exact .inr hlowered

theorem lowerCaseAfter_of_isSmall {s : List Char} (h : ∀ c ∈ s, IsSmall c) (before : List Char) :
    lowerCaseAfter before s = s := by
  induction s generalizing before with
  | nil => rfl
  | cons c s ih =>
    obtain ⟨hself, hdotted, hsigma⟩ := h c List.mem_cons_self
    rw [lowerCaseAfter, if_neg hdotted, if_neg hsigma, hself,
      ih fun d hd => h d (List.mem_cons_of_mem c hd)]
    rfl

/-- A text in lower case is in lower case already. -/
theorem lowerCase_lowerCase (s : List Char) : lowerCase (lowerCase s) = lowerCase s :=
  lowerCaseAfter_of_isSmall
    (fun _ hc => (of_mem_lowerCaseAfter hc).elim And.right IsLowered.toIsSmall) []

/-- What holds of all characters of a text and of all that lower case may bring in holds of those of
    its lower case. -/
theorem forall_mem_lowerCaseAfter {P : Char → Prop} {s : List Char} (hs : ∀ c ∈ s, P c)
    (hP : ∀ c, IsLowered c → P c) (before : List Char) : ∀ c ∈ lowerCaseAfter before s, P c :=
  fun c hc => (of_mem_lowerCaseAfter hc).elim (fun h => hs c h.1) (hP c)

/-- The first character of the lower case of a text, but for the two that depend on what is around
    them. -/
theorem lowerCase_cons {c : Char} (hdotted : c.toNat ≠ 0x130) (hsigma : c.toNat ≠ 0x3A3)
    (s : List Char) : lowerCase (c :: s) = lowerChar c :: lowerCaseAfter [c] s := by
  rw [lowerCase, lowerCaseAfter, if_neg hdotted, if_neg hsigma]
  rfl

end Stencil.Text
