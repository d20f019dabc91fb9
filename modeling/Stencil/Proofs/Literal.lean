import Stencil.Literal
import Stencil.Proofs.Number.Numeral

/-!
# Written literals

A literal is written as one of two words, as a text between two equal quotes, or as a numeral
(`Literal.Form`). It is read as the value that it stands for; only the integer of too many digits
stands for none. Such a text has no blanks at its ends and begins no reference.

* `read_written`: every form is read;
* `trim_written`, `head_written`: the ends of a literal.
-/

namespace Stencil.Literal

open Text

/-- A literal as it is written. -/
inductive Form where
  | bool (b : Bool)
  | quoted (q : Char) (isQuote : isQuote q = true) (text : List Char)
  | number (n : Numeral.Form)

namespace Form

/-- How a literal is written. -/
def written : Form → List Char
  | bool b => if b then ['t', 'r', 'u', 'e'] else ['f', 'a', 'l', 's', 'e']
  | quoted q _ text => q :: (text ++ [q])
  | number n => n.written

/-- What a numeral stands for as a value: an integer if it has digits alone, and else the
    floating-point number nearest to it. -/
def ofNumeral : Numeral → Evaluation Value
  | .integer negative digits => do
    return .int (← Evaluation.ofNumber (Numeral.toInt negative digits))
  | numeral => pure (.float numeral.toBinary64)

/-- What a literal stands for. -/
def value : Form → Evaluation Value
  | bool b => pure (.bool b)
  | quoted _ _ text => pure (.str (String.ofList text))
  | number n => ofNumeral n.numeral

theorem eq_of_isQuote {q : Char} (h : isQuote q = true) : q = '\x27' ∨ q = '"' := by
  simpa [isQuote] using h

theorem isSpace_of_isQuote {q : Char} (h : isQuote q = true) : isSpace q = false := by
  rcases eq_of_isQuote h with rfl | rfl <;> decide

/-- A literal has no blanks at its ends. -/
theorem trim_written (l : Form) : trim l.written = l.written := by
  cases l with
  | bool b => cases b <;> rfl
  | quoted q hq text =>
    rw [written, trim_eq_self_iff]
    refine ⟨stops_cons (isSpace_of_isQuote hq) _, fun c hc => ?_⟩
    rw [← List.cons_append, List.getLast?_concat, Option.mem_some_iff] at hc
    exact hc ▸ isSpace_of_isQuote hq
  | number n => exact trim_of_forall_not_space fun c hc => n.isSpace_of_mem_written hc

theorem written_ne_nil (l : Form) : l.written ≠ [] := by
  cases l with
  | bool b => cases b <;> exact List.cons_ne_nil _ _
  | quoted q _ text => exact List.cons_ne_nil q _
  | number n => exact n.written_ne_nil

/-- A literal begins no reference. -/
theorem head_written (l : Form) : Stops (· == '\x7b') l.written := by
  cases l with
  | bool b => cases b <;> exact stops_cons (by decide) _
  | quoted q hq text =>
    refine stops_cons ?_ _
    rcases eq_of_isQuote hq with rfl | rfl <;> decide
  | number n =>
    intro c hc
    rw [beq_eq_false_iff_ne]
    rintro rfl
    rcases n.mem_written (List.mem_of_mem_head? hc) with h | h <;> exact absurd h (by decide)

/-- A numeral is neither a word nor a text in quotes. -/
theorem unquote?_numeral (n : Numeral.Form) : unquote? n.written = none := by
  cases hn : n.written with
  | nil => rfl
  | cons c s =>
    have hquote : isQuote c = false := by
      by_contra hquote
      rw [Bool.not_eq_false] at hquote
      have hmem := n.mem_written (hn ▸ List.mem_cons_self : c ∈ n.written)
      rcases eq_of_isQuote hquote with rfl | rfl <;> exact absurd hmem (by decide)
    simp [unquote?, hquote]

/-- Every literal is read as what it stands for. -/
theorem read_written (l : Form) : read l.written = l.value := by
  rw [read, l.trim_written]
  cases l with
  | bool b => cases b <;> rfl
  | quoted q hq text =>
    have hletter : ∀ c ∈ ['t', 'f'], q ≠ c := by
      rcases eq_of_isQuote hq with rfl | rfl <;> exact forall_mem_of_all (by decide)
    have htrue : (quoted q hq text).written ≠ ['t', 'r', 'u', 'e'] :=
      fun h => hletter 't' (by decide) (List.cons.inj h).1
    have hfalse : (quoted q hq text).written ≠ ['f', 'a', 'l', 's', 'e'] :=
      fun h => hletter 'f' (by decide) (List.cons.inj h).1
    rw [if_neg htrue, if_neg hfalse, written, unquote?_quoted hq]
    rfl
  | number n =>
    have hword : ∀ word : List Char, 'l' ∈ word ∨ 'u' ∈ word → (number n).written ≠ word := by
      rintro word h rfl
      rcases h with h | h <;> exact absurd (n.mem_written h) (by decide)
    rw [if_neg (hword _ (by decide)), if_neg (hword _ (by decide)), written, unquote?_numeral,
      n.read?_written]
    rw [value, ofNumeral.eq_def]
    cases n.numeral <;> rfl

end Form

/-- A numeral is read as one: it is neither a word nor a text in quotes. -/
theorem read_integer {s : List Char} {negative : Bool} {digits : List Nat}
    (h : Numeral.read? (Text.trim s) = some (.integer negative digits)) :
    read s = Evaluation.ofNumber (Numeral.toInt negative digits) >>= fun n => pure (.int n) := by
  rw [read]
  cases htrim : Text.trim s with
  | nil =>
    rw [htrim] at h
    cases h
  | cons c t =>
    rw [htrim] at h
    have hne (d : Char) (hdigit : Text.isDigit d = false) (hmark : d ∉ ['+', '-', '.']) : c ≠ d := by
      rintro rfl
      rcases Numeral.head_of_read? h with hc | hc
      · exact absurd hc (Bool.eq_false_iff.1 hdigit)
      · exact hmark hc
    have hquote : isQuote c = false := by
      simp [isQuote, hne '\x27' (by decide) (by decide), hne '"' (by decide) (by decide)]
    have hunquote : unquote? (c :: t) = none := by simp [unquote?, hquote]
    rw [if_neg (mt List.head_eq_of_cons_eq (hne 't' (by decide) (by decide))),
      if_neg (mt List.head_eq_of_cons_eq (hne 'f' (by decide) (by decide))), hunquote, h]

end Stencil.Literal
