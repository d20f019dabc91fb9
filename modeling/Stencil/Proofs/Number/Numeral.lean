import Stencil.Number.Numeral
import Stencil.Proofs.Text.Search

/-!
# Written numerals

A numeral is written as a sign, which may be missing, digits before and behind a point, and an exponent
of ten (`Numeral.Form`). The digits may be of any script; there is at least one before or behind the
point. It is read as the number that its digits stand for.

* `readDigits_append`: digits are read up to the first character that is none;
* `readInt?_written`: a sign and digits, few enough, are an integer;
* `read?_written`, `exists_of_read?`: every form is read, and nothing else;
* `isSpace_of_mem_written`: there are no blanks in a numeral.
-/

namespace Stencil

namespace Text

/-- A text has no characters but digits. -/
def IsDigits (s : List Char) : Prop := ∀ c ∈ s, isDigit c = true

instance (s : List Char) : Decidable (IsDigits s) :=
  List.decidableBAll (isDigit · = true) s

/-- What the digits of a text stand for. -/
def digitValues (s : List Char) : List Nat := s.filterMap digitValue?

theorem digitValues_cons {c : Char} {d : Nat} (h : digitValue? c = some d) (s : List Char) :
    digitValues (c :: s) = d :: digitValues s :=
  List.filterMap_cons_some h

theorem digitValues_append (s t : List Char) :
    digitValues (s ++ t) = digitValues s ++ digitValues t :=
  List.filterMap_append

theorem digitValues_eq_nil_iff {s : List Char} (h : IsDigits s) : digitValues s = [] ↔ s = [] := by
  cases s with
  | nil => simp [digitValues]
  | cons c s =>
    obtain ⟨d, hd⟩ := Option.isSome_iff_exists.1 (h c List.mem_cons_self)
    simp [digitValues_cons hd]

theorem length_digitValues {s : List Char} (h : IsDigits s) : (digitValues s).length = s.length := by
  induction s with
  | nil => rfl
  | cons c s ih =>
    obtain ⟨d, hd⟩ := Option.isSome_iff_exists.1 (h c List.mem_cons_self)
    rw [digitValues_cons hd, List.length_cons, ih fun e he => h e (List.mem_cons_of_mem c he),
      List.length_cons]

/-- A digit is no blank: no script has its digits where the blanks are. -/
theorem isSpace_of_isDigit {c : Char} (h : isDigit c = true) : isSpace c = false := by
  have hscripts : ∀ z ∈ digitZeros,
      z = 0x30 ∨ 0xA0 < z ∧ z + 10 ≤ 0x1680 ∨ 0x1680 < z ∧ z + 10 ≤ 0x2000 ∨ 0x3000 < z := by
    decide
  rw [isDigit, Option.isSome_iff_exists] at h
  obtain ⟨d, hd⟩ := h
  rw [digitValue?] at hd
  have hrange : ∃ z ∈ digitZeros, z ≤ c.toNat ∧ c.toNat < z + 10 := by
    split_ifs at hd with hascii
    · refine ⟨0x30, by decide, ?_, ?_⟩
      · exact hascii.1
      · exact Nat.lt_succ_of_le hascii.2
    · obtain ⟨z, hz, -⟩ := Option.map_eq_some_iff.1 hd
      exact ⟨z, List.mem_of_find?_eq_some hz, by simpa using List.find?_some hz⟩
  obtain ⟨z, hz, hle, hlt⟩ := hrange
  have hz := hscripts z hz
  simp only [isSpace, Bool.or_eq_false_iff, Bool.and_eq_false_iff, decide_eq_false_iff_not,
    beq_eq_false_iff_ne]
  omega

end Text

namespace Numeral

open Text

/-- The sign in front of a numeral. -/
inductive Sign where
  | none
  | plus
  | minus
  deriving DecidableEq, Repr

namespace Sign

/-- How a sign is written. -/
def written : Sign → List Char
  | none => []
  | plus => ['+']
  | minus => ['-']

theorem written_subset (sign : Sign) : sign.written ⊆ ['+', '-'] := by
  cases sign <;> decide

/-- Whether a sign makes a number negative. -/
def isMinus (sign : Sign) : Bool := sign == minus

/-- An integer with the sign. -/
def apply (sign : Sign) (n : Nat) : Int := if sign.isMinus then -(n : Int) else n

end Sign

/-- The exponent of a numeral. -/
structure Exponent where
  mark : Char
  sign : Sign
  digits : List Char
  isMark : mark = 'e' ∨ mark = 'E'
  isDigits : IsDigits digits
  ne_nil : digits ≠ []

/-- A numeral as it is written: without a fraction it has no point. -/
structure Form where
  sign : Sign
  whole : List Char
  fraction : Option (List Char)
  exponent : Option Exponent
  isDigits_whole : IsDigits whole
  isDigits_fraction : ∀ s ∈ fraction, IsDigits s
  ne_nil : whole ++ fraction.getD [] ≠ []

/-- How an exponent is written. -/
def Exponent.written (e : Exponent) : List Char := e.mark :: (e.sign.written ++ e.digits)

/-- How an exponent is written, if there is one. -/
def exponentText : Option Exponent → List Char
  | none => []
  | some e => e.written

/-- The number that an exponent is. -/
def Exponent.value (e : Exponent) : Int := e.sign.apply (ofDigits (digitValues e.digits))

namespace Form

/-- How the part behind the whole digits is written. -/
def tail (f : Form) : List Char :=
  match f.fraction with
  | none => exponentText f.exponent
  | some s => '.' :: (s ++ exponentText f.exponent)

/-- How a numeral is written. -/
def written (f : Form) : List Char := f.sign.written ++ (f.whole ++ f.tail)

/-- What a numeral stands for. -/
def numeral (f : Form) : Numeral :=
  match f.fraction, f.exponent with
  | none, none => .integer f.sign.isMinus (digitValues f.whole)
  | fraction, exponent =>
    .decimal f.sign.isMinus (ofDigits (digitValues (f.whole ++ fraction.getD [])))
      ((exponent.map Exponent.value).getD 0 - (fraction.getD []).length)

end Form

/-! ### Reading -/

theorem readSign_append (sign : Sign) {s : List Char} (hs : Stops (· ∈ ['+', '-']) s) :
    readSign (sign.written ++ s) = (sign.isMinus, s) := by
  cases sign with
  | plus => rfl
  | minus => rfl
  | none =>
    cases s with
    | nil => rfl
    | cons c s =>
      have hc := hs c rfl
      simp only [List.mem_cons, List.not_mem_nil, or_false, decide_eq_false_iff_not, not_or] at hc
      rw [Sign.written, List.nil_append, readSign]
      · rfl
      · exact fun t ht => hc.2 (List.cons.inj ht).1
      · exact fun t ht => hc.1 (List.cons.inj ht).1

/-- Digits are read up to the first character that is none. -/
theorem readDigits_append {a s : List Char} (ha : IsDigits a) (hs : Stops isDigit s) :
    readDigits (a ++ s) = (digitValues a, s) := by
  induction a with
  | nil =>
    cases s with
    | nil => rfl
    | cons c s =>
      have hc : digitValue? c = none := by simpa [isDigit] using hs c rfl
      rw [List.nil_append, readDigits, hc]
      rfl
  | cons c a ih =>
    obtain ⟨d, hd⟩ := Option.isSome_iff_exists.1 (ha c List.mem_cons_self)
    rw [List.cons_append, readDigits, hd, ih fun e he => ha e (List.mem_cons_of_mem c he),
      digitValues_cons hd]

/-- A numeral begins with a digit, a sign or a point. -/
theorem head_of_read? {c : Char} {s : List Char} {n : Numeral} (h : read? (c :: s) = some n) :
    isDigit c = true ∨ c ∈ ['+', '-', '.'] := by
  by_contra hc
  obtain ⟨hdigit, hmarks⟩ := not_or.1 hc
  simp only [List.mem_cons, List.not_mem_nil, or_false, not_or] at hmarks
  have hsign : readSign (c :: s) = (false, c :: s) :=
    readSign_append .none (stops_cons (by simp [hmarks]) s)
  have hdigits : readDigits (c :: s) = ([], c :: s) :=
    readDigits_append (a := []) (fun d hd => absurd hd List.not_mem_nil)
      (stops_cons (Bool.not_eq_true _ ▸ hdigit) s)
  rw [read?, hsign] at h
  simp only [hdigits] at h
  split at h
  next heq => exact hmarks.2.2 (List.cons.inj heq).1
  · cases h

theorem stops_of_isDigits {s : List Char} (h : IsDigits s) : Stops (· ∈ ['+', '-']) s := by
  intro c hc
  have hdigit := h c (List.mem_of_mem_head? hc)
  rw [decide_eq_false_iff_not]
  intro hsign
  rcases List.mem_pair.1 hsign with rfl | rfl <;> exact absurd hdigit (by decide)

theorem readGroups?_of_isDigits {s : List Char} (h : IsDigits s) (hne : s ≠ []) :
    readGroups? s = some (digitValues s) := by
  induction s with
  | nil => exact absurd rfl hne
  | cons c s ih =>
    rw [IsDigits, List.forall_mem_cons] at h
    obtain ⟨d, hd⟩ := Option.isSome_iff_exists.1 h.1
    cases s with
    | nil => simp [readGroups?, digitValues, hd]
    | cons e s =>
      have hunderscore : e ≠ '_' := by
        rintro rfl
        exact absurd (h.2 _ List.mem_cons_self) (by decide)
      rw [readGroups?, hd, ih h.2 (List.cons_ne_nil e s), digitValues_cons hd]
      · exact fun he => List.cons_ne_nil e s he
      · exact fun t ht => hunderscore (List.cons.inj ht).1

/-- A sign and digits, few enough, are an integer. -/
theorem readInt?_written (sign : Sign) {digits : List Char} (h : IsDigits digits)
    (hne : digits ≠ []) (hlength : digits.length ≤ NumberFault.maxDigits) :
    readInt? (sign.written ++ digits) = some (sign.apply (ofDigits (digitValues digits))) := by
  rw [readInt?, readSign_append sign (stops_of_isDigits h)]
  simp only [readGroups?_of_isDigits h hne, Option.bind_some, toInt, length_digitValues h,
    if_neg (Nat.not_lt.2 hlength)]
  rfl

theorem readExponent?_written (e : Exponent) : readExponent? e.written = some (some e.value) := by
  have hdigits := readDigits_append (s := []) e.isDigits nofun
  obtain ⟨d, ds, hvalues⟩ := List.exists_cons_of_ne_nil
    (mt (digitValues_eq_nil_iff e.isDigits).1 e.ne_nil)
  rw [List.append_nil, hvalues] at hdigits
  rw [Exponent.written, readExponent?, if_pos e.isMark,
    readSign_append e.sign (stops_of_isDigits e.isDigits)]
  simp only [hdigits, Exponent.value, hvalues, Sign.apply]

theorem readExponent?_exponentText (e : Option Exponent) :
    readExponent? (exponentText e) = some (e.map Exponent.value) := by
  cases e with
  | none => rfl
  | some e => exact readExponent?_written e

theorem stops_exponentText {p : Char → Bool} (hp : ∀ c ∈ ['e', 'E'], p c = false)
    (e : Option Exponent) : Stops p (exponentText e) := by
  cases e with
  | none => nofun
  | some e => exact stops_cons (hp e.mark (by simpa using e.isMark)) _

namespace Form

variable (f : Form)

theorem stops_tail {p : Char → Bool} (hp : ∀ c ∈ ['.', 'e', 'E'], p c = false) : Stops p f.tail := by
  rw [List.forall_mem_cons] at hp
  rw [tail]
  split
  · exact stops_exponentText hp.2 f.exponent
  · exact stops_cons hp.1 _

/-- The characters of numerals. -/
theorem mem_written {c : Char} (h : c ∈ f.written) :
    isDigit c = true ∨ c ∈ ['+', '-', '.', 'e', 'E'] := by
  have hexponent : c ∈ exponentText f.exponent → isDigit c = true ∨ c ∈ ['+', '-', '.', 'e', 'E'] := by
    cases f.exponent with
    | none => exact fun h => absurd h List.not_mem_nil
    | some e =>
      intro h
      rw [exponentText, Exponent.written, List.mem_cons, List.mem_append] at h
      rcases h with rfl | h | h
      · rcases e.isMark with h | h <;> rw [h] <;> exact .inr (by decide)
      · exact .inr (List.mem_append_left ['.', 'e', 'E'] (e.sign.written_subset h))
      · exact .inl (e.isDigits c h)
  rw [written, List.mem_append, List.mem_append, tail] at h
  rcases h with h | h | h
  · exact .inr (List.mem_append_left ['.', 'e', 'E'] (f.sign.written_subset h))
  · exact .inl (f.isDigits_whole c h)
  · cases hfraction : f.fraction with
    | none => exact hexponent (by simpa [hfraction] using h)
    | some s =>
      rw [hfraction] at h
      rcases List.mem_cons.1 h with rfl | h
      · exact .inr (by decide)
      · rcases List.mem_append.1 h with h | h
        · exact .inl (f.isDigits_fraction s hfraction c h)
        · exact hexponent h

theorem written_ne_nil : f.written ≠ [] := by
  intro h
  obtain ⟨-, h⟩ := List.append_eq_nil_iff.1 h
  obtain ⟨hwhole, htail⟩ := List.append_eq_nil_iff.1 h
  have hne := f.ne_nil
  rw [hwhole, List.nil_append] at hne
  cases hfraction : f.fraction with
  | none => exact hne (by rw [hfraction]; rfl)
  | some s => simp [tail, hfraction] at htail

theorem isSpace_of_mem_written {c : Char} (h : c ∈ f.written) : isSpace c = false := by
  rcases f.mem_written h with h | h
  · exact isSpace_of_isDigit h
  · exact forall_mem_of_all (p := (isSpace · = false)) (by decide) c h

/-- A numeral without its sign does not begin with one. -/
theorem stops_whole_append : Stops (· ∈ ['+', '-']) (f.whole ++ f.tail) := by
  cases hwhole : f.whole with
  | nil => exact f.stops_tail (forall_mem_of_all (by decide))
  | cons c s =>
    have hdigits := stops_of_isDigits f.isDigits_whole
    rw [hwhole] at hdigits
    exact stops_cons (hdigits c rfl) _

/-- Every numeral is read as what it stands for. -/
theorem read?_written : read? f.written = some f.numeral := by
  rw [read?, written, readSign_append f.sign f.stops_whole_append]
  simp only [readDigits_append f.isDigits_whole (f.stops_tail (forall_mem_of_all (by decide)))]
  have hne := f.ne_nil
  have hexponent := readExponent?_exponentText f.exponent
  rw [tail, numeral]
  cases hfraction : f.fraction with
  | none =>
    rw [hfraction, Option.getD_none, List.append_nil] at hne
    have hwhole := mt (digitValues_eq_nil_iff f.isDigits_whole).1 hne
    cases he : f.exponent with
    | none => simp [exponentText, hwhole, readExponent?]
    | some e =>
      rw [he, exponentText, Exponent.written] at hexponent
      obtain ⟨mark, sign, digits, isMark, isDigits, ne_nil⟩ := e
      rcases isMark with rfl | rfl <;>
        simp [exponentText, Exponent.written, hwhole, hexponent]
  | some s =>
    have hs := f.isDigits_fraction s hfraction
    rw [hfraction, Option.getD_some] at hne
    have hboth : ¬(digitValues f.whole = [] ∧ digitValues s = []) := by
      rw [digitValues_eq_nil_iff f.isDigits_whole, digitValues_eq_nil_iff hs, ← List.append_eq_nil_iff]
      exact hne
    simp only [readDigits_append hs (stops_exponentText (forall_mem_of_all (by decide)) f.exponent),
      if_neg hboth, hexponent]
    cases f.exponent <;> simp [digitValues_append, length_digitValues hs]

end Form

/-- Digits alone are an integer. -/
theorem read?_of_isDigits {digits : List Char} (h : IsDigits digits) (hne : digits ≠ []) :
    read? digits = some (.integer false (digitValues digits)) := by
  have hform := Form.read?_written
    ⟨.none, digits, none, none, h, fun s hs => absurd hs (Option.not_mem_none s),
      (List.append_nil digits).symm ▸ hne⟩
  exact (congrArg read? (List.append_nil digits)).symm.trans hform

/-! ### Only what is written is read -/

theorem exists_of_readSign (s : List Char) :
    ∃ sign t, s = Sign.written sign ++ t ∧ readSign s = (sign.isMinus, t) := by
  fun_cases readSign s with
  | case1 t => exact ⟨.minus, t, rfl, rfl⟩
  | case2 t => exact ⟨.plus, t, rfl, rfl⟩
  | case3 => exact ⟨.none, s, rfl, rfl⟩

theorem exists_of_readDigits (s : List Char) :
    ∃ digits t, IsDigits digits ∧ s = digits ++ t ∧ readDigits s = (digitValues digits, t) := by
  fun_induction readDigits s with
  | case1 => exact ⟨[], [], nofun, rfl, rfl⟩
  | case2 c s hc => exact ⟨[], c :: s, nofun, rfl, rfl⟩
  | case3 c s d hd ds rest heq ih =>
    obtain ⟨digits, t, hdigits, rfl, hread⟩ := ih
    rw [heq] at hread
    obtain ⟨rfl, rfl⟩ := Prod.mk.inj hread
    refine ⟨c :: digits, rest, ?_, rfl, by rw [digitValues_cons hd]⟩
    exact List.forall_mem_cons.2 ⟨Option.isSome_iff_exists.2 ⟨d, hd⟩, hdigits⟩

theorem exists_of_readExponent? {s : List Char} {value : Option Int}
    (h : readExponent? s = some value) : ∃ e : Option Exponent, s = exponentText e := by
  cases s with
  | nil => exact ⟨none, rfl⟩
  | cons c s =>
    obtain ⟨sign, t, rfl, hsign⟩ := exists_of_readSign s
    obtain ⟨digits, rest, hdigits, rfl, hread⟩ := exists_of_readDigits t
    rw [readExponent?] at h
    split_ifs at h with hc
    rw [hsign] at h
    simp only [hread] at h
    split at h
    next d ds heq =>
      obtain ⟨hvalues, rfl⟩ := Prod.mk.inj heq
      have hne : digits ≠ [] := by
        rintro rfl
        cases hvalues
      exact ⟨some ⟨c, sign, digits, hc, hdigits, hne⟩, by rw [List.append_nil]; rfl⟩
    · cases h

/-- Nothing but numerals is read. -/
theorem exists_of_read? {s : List Char} {n : Numeral} (h : read? s = some n) :
    ∃ f : Form, s = f.written ∧ n = f.numeral := by
  suffices hform : ∃ f : Form, s = f.written by
    obtain ⟨f, rfl⟩ := hform
    exact ⟨f, rfl, Option.some.inj (h.symm.trans f.read?_written)⟩
  obtain ⟨sign, t, rfl, hsign⟩ := exists_of_readSign s
  obtain ⟨whole, t, hwhole, rfl, hread⟩ := exists_of_readDigits t
  rw [read?, hsign] at h
  simp only [hread] at h
  split at h
  next u =>
    obtain ⟨fraction, u, hfraction, rfl, hread⟩ := exists_of_readDigits u
    simp only [hread] at h
    split_ifs at h with hnil
    rcases hexponent : readExponent? u with _ | value
    · rw [hexponent] at h
      cases h
    · obtain ⟨e, rfl⟩ := exists_of_readExponent? hexponent
      refine ⟨⟨sign, whole, some fraction, e, hwhole, fun s hs => Option.some.inj hs ▸ hfraction, ?_⟩,
        rfl⟩
      intro happend
      obtain ⟨rfl, rfl⟩ := List.append_eq_nil_iff.1 happend
      exact hnil ⟨rfl, rfl⟩
  next =>
    split at h
    next => cases h
    next hnil =>
      rcases hexponent : readExponent? t with _ | value
      · simp only [hexponent] at h
        cases h
      · obtain ⟨e, rfl⟩ := exists_of_readExponent? hexponent
        refine ⟨⟨sign, whole, none, e, hwhole, nofun, ?_⟩, rfl⟩
        intro happend
        obtain ⟨rfl, -⟩ := List.append_eq_nil_iff.1 happend
        exact hnil ⟨rfl, rfl⟩

end Numeral

end Stencil
