import Mathlib.Algebra.Ring.Nat
import Stencil.Proofs.Literal
import Stencil.Proofs.Outcome
import Stencil.Value.Text

/-!
# Literals that are read back

The rendered text of a truth value is a literal for it, and so is that of an integer with not too many
digits. A text stands for itself between two quotes of one kind; it may hold quotes, as only those at
the ends count. Blanks around a literal do not matter.

A token that is no written literal stands for no value (`read_cases`). So a text comes from a token in
quotes only, and a number from one that starts as numerals do. In this sense literals are told by their
tokens (`isReadAs_rendered`).

* `write_eq`, `toInt_ofInt`: an integer is written with digits that are read as this integer.
-/

namespace Stencil

namespace Numeral

open Text

variable {c : Char} {s : List Char} {n : Int}

theorem digitValue?_of_isDigit (h : c.isDigit = true) :
    digitValue? c = some (c.toNat - '0'.toNat) := by
  have hrange : '0' ≤ c ∧ c ≤ '9' := by
    rw [Char.isDigit, Bool.and_eq_true, decide_eq_true_eq, decide_eq_true_eq] at h
    exact h
  rw [digitValue?, if_pos hrange]

/-- The ten digits of ASCII are read as what they stand for everywhere. -/
theorem ofDigits_digitValues (h : ∀ c ∈ s, c.isDigit = true) :
    ofDigits (digitValues s) = Nat.ofDigitChars 10 s 0 := by
  have hvalues : digitValues s = s.map fun c => c.toNat - '0'.toNat := by
    induction s with
    | nil => rfl
    | cons c s ih =>
      obtain ⟨hc, hs⟩ := List.forall_mem_cons.1 h
      rw [digitValues_cons (digitValue?_of_isDigit hc), ih hs, List.map_cons]
  rw [ofDigits, Text.ofDigits, hvalues, List.foldl_map, Nat.ofDigitChars_eq_foldl]

theorem isDigits_toDigits (n : Nat) : IsDigits (Nat.toDigits 10 n) := by
  intro c hc
  have hdigit := Nat.isDigit_of_mem_toDigits (by decide) (by decide) hc
  rw [Text.isDigit, digitValue?_of_isDigit hdigit, Option.isSome_some]

theorem ofDigits_toDigits (n : Nat) : ofDigits (digitValues (Nat.toDigits 10 n)) = n := by
  rw [ofDigits_digitValues fun c hc => Nat.isDigit_of_mem_toDigits (by decide) (by decide) hc,
    Nat.ofDigitChars_ten_toDigits]

/-- The numeral that an integer is written as. -/
def ofInt (n : Int) : Form where
  sign := if n < 0 then .minus else .none
  whole := Nat.toDigits 10 n.natAbs
  fraction := none
  exponent := none
  isDigits_whole := isDigits_toDigits n.natAbs
  isDigits_fraction := nofun
  ne_nil := by simp

theorem length_toDigits_le_iff :
    (Nat.toDigits 10 n.natAbs).length ≤ NumberFault.maxDigits ↔
      n.natAbs < 10 ^ NumberFault.maxDigits :=
  Nat.length_toDigits_le_iff (by decide) (by decide)

theorem write_eq (h : n.natAbs < 10 ^ NumberFault.maxDigits) : write n = .ok (ofInt n).written := by
  rw [write, if_neg (Nat.not_lt.2 (length_toDigits_le_iff.2 h)), ofInt, Form.written, Form.tail]
  simp only [exponentText, List.append_nil]
  split_ifs <;> rfl

theorem write_eq_error (h : ¬n.natAbs < 10 ^ NumberFault.maxDigits) :
    write n = .error .unwritable := by
  rw [write, if_pos (Nat.lt_of_not_le (mt length_toDigits_le_iff.1 h))]

/-- The digits of an integer are read as this integer. -/
theorem toInt_ofInt (h : n.natAbs < 10 ^ NumberFault.maxDigits) :
    toInt (ofInt n).sign.isMinus (digitValues (ofInt n).whole) = .ok n := by
  have hlength : (digitValues (Nat.toDigits 10 n.natAbs)).length ≤ NumberFault.maxDigits := by
    rw [length_digitValues (isDigits_toDigits n.natAbs)]
    exact length_toDigits_le_iff.2 h
  rw [toInt, ofInt, if_neg (Nat.not_lt.2 hlength), ofDigits_toDigits]
  by_cases hn : n < 0
  · have habs : -(n.natAbs : Int) = n := by omega
    simp only [if_pos hn, Sign.isMinus, beq_self_eq_true, if_true, habs]
  · have habs : (n.natAbs : Int) = n := by omega
    have hsign : (Sign.none == Sign.minus) = false := rfl
    simp only [if_neg hn, Sign.isMinus, hsign, Bool.false_eq_true, if_false, habs]

end Numeral

namespace Literal

open Text

variable {s t : List Char} {v : Value}

/-- A text is a literal for a value, whatever blanks stand around it. -/
def IsReadAs (token : List Char) (v : Value) : Prop :=
  ∀ lead trail, isBlank lead = true → isBlank trail = true →
    read (lead ++ (token ++ trail)) = pure v

theorem read_congr (h : trim s = trim t) : read s = read t := by
  rw [read, read, h]

theorem isReadAs_of_value {l : Form} (h : l.value = pure v) : IsReadAs l.written v := by
  intro lead trail hlead htrail
  rw [read_congr (trim_padded hlead htrail l.written), l.read_written, h]

/-! ### Only literals stand for values -/

theorem exists_of_unquote? (h : unquote? s = some t) :
    ∃ q, isQuote q = true ∧ s = q :: (t ++ [q]) := by
  cases s with
  | nil => cases h
  | cons q s =>
    rw [unquote?] at h
    split_ifs at h with hq
    rw [Bool.and_eq_true, beq_iff_eq] at hq
    obtain rfl := Option.some.inj h
    exact ⟨q, hq.1, by rw [List.dropLast_append_getLast? q hq.2]⟩

/-- A token is a written literal and is read as what this stands for, or it stands for nothing. -/
theorem read_cases (s : List Char) :
    (∃ l : Form, trim s = l.written ∧ read s = l.value) ∨
      read s = Evaluation.throw (.badLiteral (String.ofList (quote (trim s)))) := by
  have hform {l : Form} (h : trim s = l.written) : ∃ l : Form, trim s = l.written ∧ read s = l.value := by
    refine ⟨l, h, ?_⟩
    rw [← l.read_written, read_congr]
    rw [h, l.trim_written]
  by_cases htrue : trim s = ['t', 'r', 'u', 'e']
  · exact .inl (hform (l := .bool true) htrue)
  by_cases hfalse : trim s = ['f', 'a', 'l', 's', 'e']
  · exact .inl (hform (l := .bool false) hfalse)
  rcases hunquote : unquote? (trim s) with _ | text
  · rcases hnumeral : Numeral.read? (trim s) with _ | n
    · refine .inr ?_
      rw [read, if_neg htrue, if_neg hfalse, hunquote, hnumeral]
    · obtain ⟨f, hf, -⟩ := Numeral.exists_of_read? hnumeral
      exact .inl (hform (l := .number f) hf)
  · obtain ⟨q, hq, htext⟩ := exists_of_unquote? hunquote
    exact .inl (hform (l := .quoted q hq text) htext)

theorem gives_read_iff :
    (read s).Gives v ↔ ∃ l : Form, trim s = l.written ∧ l.value.Gives v := by
  constructor
  · intro h
    rcases read_cases s with ⟨l, hl, hread⟩ | hread
    · exact ⟨l, hl, hread ▸ h⟩
    · rw [hread] at h
      exact absurd h Evaluation.not_gives_throw
  · rintro ⟨l, hl, h⟩
    rwa [read_congr (hl.trans l.trim_written.symm), l.read_written]

/-- A numeral stands for a number. -/
theorem isNumber_of_ofNumeral {n : Numeral} (h : (Form.ofNumeral n).Gives v) : v.isNumber = true := by
  rw [Form.ofNumeral.eq_def] at h
  cases n with
  | integer negative digits =>
    obtain ⟨k, -, hk⟩ := Evaluation.gives_bind.1 h
    obtain rfl := Evaluation.gives_pure.1 hk
    rfl
  | decimal negative coefficient exponent =>
    obtain rfl := Evaluation.gives_pure.1 h
    rfl

/-- A text comes from quotes, in which it stands as it is. -/
theorem exists_quote_of_gives_str {text : String} (h : (read s).Gives (.str text)) :
    ∃ q, isQuote q = true ∧ trim s = q :: (text.toList ++ [q]) := by
  obtain ⟨l, hl, h⟩ := gives_read_iff.1 h
  cases l with
  | bool b => cases Evaluation.gives_pure.1 h
  | quoted q hq t =>
    obtain rfl := Value.str.inj (Evaluation.gives_pure.1 h)
    exact ⟨q, hq, by rw [hl, String.toList_ofList]; rfl⟩
  | number n => cases isNumber_of_ofNumeral h

/-- A number comes from a token that starts with a digit, a sign or a point. -/
theorem exists_head_of_isNumber (h : (read s).Gives v) (hv : v.isNumber = true) :
    ∃ c ∈ (trim s).head?, isDigit c = true ∨ c ∈ ['+', '-', '.'] := by
  obtain ⟨l, hl, h⟩ := gives_read_iff.1 h
  cases l with
  | bool b =>
    obtain rfl := Evaluation.gives_pure.1 h
    cases hv
  | quoted q hq t =>
    obtain rfl := Evaluation.gives_pure.1 h
    cases hv
  | number n =>
    obtain ⟨c, t, hwritten⟩ := List.exists_cons_of_ne_nil n.written_ne_nil
    refine ⟨c, ?_, Numeral.head_of_read? (hwritten ▸ n.read?_written)⟩
    rw [hl, Form.written, hwritten]
    rfl

/-! ### Rendered values -/

theorem isReadAs_bool (b : Bool) :
    ∃ text, (Value.bool b).render = .ok text ∧ IsReadAs text.toList (.bool b) := by
  refine ⟨_, Value.render_bool b, ?_⟩
  cases b with
  | true => exact isReadAs_of_value (l := .bool true) rfl
  | false => exact isReadAs_of_value (l := .bool false) rfl

theorem render_int (n : Int) :
    (Value.int n).render = (Numeral.write n).map String.ofList := rfl

/-- Integers of not too many digits are the ones that are read back. -/
theorem isReadAs_int_iff (n : Int) :
    (∃ text, (Value.int n).render = .ok text ∧ IsReadAs text.toList (.int n)) ↔
      n.natAbs < 10 ^ NumberFault.maxDigits := by
  constructor
  · rintro ⟨text, htext, -⟩
    by_contra hn
    rw [render_int, Numeral.write_eq_error hn] at htext
    cases htext
  · intro hn
    refine ⟨String.ofList (Numeral.ofInt n).written, ?_, ?_⟩
    · rw [render_int, Numeral.write_eq hn]
      rfl
    · rw [String.toList_ofList]
      refine isReadAs_of_value (l := .number (Numeral.ofInt n)) ?_
      have hnumeral : (Numeral.ofInt n).numeral = .integer (Numeral.ofInt n).sign.isMinus
        (digitValues (Numeral.ofInt n).whole) := rfl
      rw [Form.value, hnumeral, Form.ofNumeral, Numeral.toInt_ofInt hn]
      rfl

/-- Literals are read back: the rendered text of a truth value, of an integer of not too many digits and
    of no other one, and a text between two quotes, each with any blanks around it. No other token than
    one in quotes is read as a text. A token that is read as a number starts with a digit of some script,
    a sign or a point, and thus with no letter. -/
theorem isReadAs_rendered :
    (∀ b, ∃ text, (Value.bool b).render = .ok text ∧ IsReadAs text.toList (.bool b)) ∧
    (∀ n : Int, (∃ text, (Value.int n).render = .ok text ∧ IsReadAs text.toList (.int n)) ↔
      n.natAbs < 10 ^ NumberFault.maxDigits) ∧
    (∀ (q : Char) (text : String), isQuote q = true → IsReadAs (q :: (text.toList ++ [q])) (.str text)) ∧
    (∀ (s : List Char) (text : String), (read s).Gives (.str text) →
      ∃ q, isQuote q = true ∧ trim s = q :: (text.toList ++ [q])) ∧
    ∀ (s : List Char) (v : Value), (read s).Gives v → v.isNumber = true →
      ∃ c ∈ (trim s).head?, isDigit c = true ∨ c ∈ ['+', '-', '.'] := by
  refine ⟨isReadAs_bool, isReadAs_int_iff, fun q text hq => ?_,
    fun _ _ => exists_quote_of_gives_str, fun _ _ => exists_head_of_isNumber⟩
  refine isReadAs_of_value (l := .quoted q hq text.toList) ?_
  rw [Form.value, String.ofList_toList]

/-- An integer, a text with its own quote in it, and tokens with blanks around them. -/
theorem isReadAs_rendered_padded :
    (∃ text, (Value.int (-120)).render = .ok text ∧ IsReadAs text.toList (.int (-120))) ∧
    IsReadAs "'it's '".toList (.str "it's ") ∧
    ((read " 'a'\n".toList).Gives (.str "a") ∧
      ∃ q, isQuote q = true ∧ trim " 'a'\n".toList = q :: ("a".toList ++ [q])) ∧
    (read "\t-7 ".toList).Gives (.int (-7)) ∧
      ∃ c ∈ (trim "\t-7 ".toList).head?, isDigit c = true ∨ c ∈ ['+', '-', '.'] :=
  ⟨(isReadAs_rendered.2.1 (-120)).2 (by decide +kernel),
    isReadAs_rendered.2.2.1 '\x27' "it's " rfl,
    ⟨rfl, isReadAs_rendered.2.2.2.1 " 'a'\n".toList "a" rfl⟩,
    rfl, isReadAs_rendered.2.2.2.2 "\t-7 ".toList (.int (-7)) rfl rfl⟩

end Literal

end Stencil
