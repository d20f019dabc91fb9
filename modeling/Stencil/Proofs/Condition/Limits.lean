import Stencil.Proofs.Condition.Confined
import Stencil.Proofs.Condition.Row
import Stencil.Proofs.Literal
import Stencil.Proofs.Outcome
import Stencil.Proofs.Value.Integers
import Stencil.Proofs.Value.Symmetry

/-!
# Where conditions break off

A condition has a result, or it raises an error of the template, unless it reaches one of two limits of
numbers: a literal in it is an integer of more digits than can be read, or an integer is beyond the
floating-point numbers and is put in order or compared with a text. Then it *breaks off* with a fault that
is no error of the template. Nothing else ends a condition (`concludes_evaluate`), and it breaks off exactly
if one of its comparisons does where all comparisons before it have a result (`evaluate_limits`).

* `Literal.breaksOff_read`: the literals that cannot be read;
* `Comparison.holds_eq_error_iff`: the values that cannot be compared;
* `exceedsIn_cons`: of comparisons in a row the first one without a result decides.
-/

namespace Stencil

open Evaluation

/-! ### Literals -/

namespace Literal

variable {s : List Char} {fault : NumberFault}

/-- A literal is an integer of more digits than can be read. -/
def IsOverlong (s : List Char) (count : Nat) : Prop :=
  ∃ negative digits, Numeral.read? (Text.trim s) = some (.integer negative digits) ∧
    digits.length = count ∧ NumberFault.maxDigits < count

/-- A literal breaks off exactly if it is an integer of too many digits. -/
theorem breaksOff_read :
    (read s).BreaksOff fault ↔ ∃ count, IsOverlong s count ∧ fault = .unreadable count := by
  have hinteger {negative : Bool} {digits : List Nat} :
      (ofNumber (Numeral.toInt negative digits) >>= fun n => pure (Value.int n)).BreaksOff fault ↔
        NumberFault.maxDigits < digits.length ∧ fault = .unreadable digits.length := by
    rw [breaksOff_bind_pure, breaksOff_ofNumber, Numeral.toInt]
    split_ifs with hlong
    · rw [Except.error.injEq, eq_comm, and_iff_right hlong]
    · refine iff_of_false (fun h => ?_) fun h => hlong h.1
      cases h
  constructor
  · intro h
    rw [read] at h
    split_ifs at h
    · exact absurd h not_breaksOff_pure
    · exact absurd h not_breaksOff_pure
    split at h
    · exact absurd h not_breaksOff_pure
    split at h
    next negative digits hnumeral =>
      obtain ⟨hlong, rfl⟩ := hinteger.1 h
      exact ⟨_, ⟨negative, digits, hnumeral, rfl, hlong⟩, rfl⟩
    · exact absurd h not_breaksOff_pure
    · exact absurd h not_breaksOff_throw
  · rintro ⟨_, ⟨negative, digits, hnumeral, rfl, hlong⟩, rfl⟩
    rw [read_integer hnumeral]
    exact hinteger.2 ⟨hlong, rfl⟩

end Literal

/-! ### Comparisons of values -/

theorem bind_eq_error_iff {ε α β : Type} {x : Except ε α} {f : α → Except ε β} {e : ε} :
    x >>= f = .error e ↔ x = .error e ∨ ∃ a, x = .ok a ∧ f a = .error e := by
  cases x <;> simp [bind, Except.bind]

namespace Value

variable {a b : Value} {fault : NumberFault}

/-- An integer beyond the floating-point numbers stands beside a text. -/
def LargeBesideText (a b : Value) : Prop :=
  (a.IsLarge ∧ b.kind = .text) ∨ (a.kind = .text ∧ b.IsLarge)

theorem IsLarge.kind (h : a.IsLarge) : a.kind = .number := by
  obtain ⟨n, rfl, -⟩ := h
  rfl

theorem LargeBesideText.kinds (h : LargeBesideText a b) :
    (a.kind = .number ∧ b.kind = .text) ∨ (a.kind = .text ∧ b.kind = .number) :=
  h.imp (And.imp_left IsLarge.kind) (And.imp_right IsLarge.kind)

theorem looseEqualsPlain_eq_error_iff :
    looseEqualsPlain a b = .error fault ↔ fault = .tooLarge ∧ LargeBesideText a b := by
  have hnumbers {a b : Value} (ha : a.kind = .number) (hb : b.kind = .text) :
      looseEqualsPlain a b = .error fault ↔ fault = .tooLarge ∧ a.IsLarge := by
    obtain ⟨y, hy⟩ := exists_toNumber_of_text hb
    rw [← toNumber_eq_error_iff, looseEqualsPlain.eq_def, ha, hb, hy]
    refine bind_eq_error_iff.trans (or_iff_left ?_)
    rintro ⟨x, -, h⟩
    cases h
  by_cases h : a.kind = .number ∧ b.kind = .text
  · rw [hnumbers h.1 h.2, LargeBesideText, or_iff_left, and_iff_left h.2]
    rintro ⟨ha, -⟩
    cases h.1.symm.trans ha
  by_cases h' : a.kind = .text ∧ b.kind = .number
  · rw [looseEqualsPlain_comm, hnumbers h'.2 h'.1, LargeBesideText, or_iff_right, and_iff_right h'.1]
    rintro ⟨-, hb⟩
    cases h'.2.symm.trans hb
  · rw [looseEqualsPlain_eq_strictEquals h h']
    refine iff_of_false (fun herror => ?_) fun hlarge => hlarge.2.kinds.elim h h'
    cases herror

theorem not_largeBesideText_float {x : Binary64} : ¬LargeBesideText (float x) b := by
  rintro (⟨⟨n, hn, -⟩, -⟩ | ⟨hkind, -⟩)
  · cases hn
  · cases hkind

/-- Where it does not compare a number with a text, loose equality needs the number of a truth value at
    most. -/
theorem looseEquals_eq_error_iff :
    a.looseEquals b = .error fault ↔ fault = .tooLarge ∧ LargeBesideText a b := by
  by_cases h : (a.kind = .number ∧ b.kind = .text) ∨ (a.kind = .text ∧ b.kind = .number)
  · have hplain : looseEquals a b = looseEqualsPlain a b := by
      rcases h with ⟨ha, hb⟩ | ⟨ha, hb⟩ <;> rw [looseEquals.eq_def, ha, hb] <;> rfl
    rw [hplain, looseEqualsPlain_eq_error_iff]
  refine iff_of_false (fun herror => ?_) fun hlarge => h hlarge.2.kinds
  rw [looseEquals] at herror
  split_ifs at herror
  split at herror
  · cases herror
  · cases herror
  next ha _ =>
    obtain ⟨x, hx⟩ := exists_toNumber_of_bool ha
    rw [hx] at herror
    exact not_largeBesideText_float (looseEqualsPlain_eq_error_iff.1 herror).2
  next hb _ _ =>
    obtain ⟨y, hy⟩ := exists_toNumber_of_bool hb
    rw [hy] at herror
    have hflip := (looseEqualsPlain_comm (float y) a).trans herror
    exact not_largeBesideText_float (looseEqualsPlain_eq_error_iff.1 hflip).2
  · exact h (looseEqualsPlain_eq_error_iff.1 herror).2.kinds

theorem order?_eq_error_iff :
    order? a b = .error fault ↔ fault = .tooLarge ∧ (a.IsLarge ∨ b.IsLarge) := by
  rw [order?.eq_def]
  split
  · constructor
    · intro h
      cases h
    · rintro ⟨-, ⟨n, hn, -⟩ | ⟨n, hn, -⟩⟩ <;> cases hn
  constructor
  · intro h
    rcases bind_eq_error_iff.1 h with ha | ⟨x, -, h⟩
    · exact (toNumber_eq_error_iff.1 ha).imp_right .inl
    rcases bind_eq_error_iff.1 h with hb | ⟨y, -, h⟩
    · exact (toNumber_eq_error_iff.1 hb).imp_right .inr
    · cases h
  · rintro ⟨rfl, hlarge⟩
    refine bind_eq_error_iff.2 ?_
    cases ha : a.toNumber with
    | error e =>
      obtain ⟨rfl, -⟩ := toNumber_eq_error_iff.1 ha
      exact .inl rfl
    | ok x =>
      refine .inr ⟨x, rfl, bind_eq_error_iff.2 (.inl (toNumber_eq_error_iff.2 ⟨rfl, ?_⟩))⟩
      refine hlarge.resolve_left fun h => ?_
      cases ha.symm.trans (toNumber_eq_error_iff.2 ⟨rfl, h⟩)

theorem compare_eq_error_iff {o : Order} :
    compare o a b = .error fault ↔ fault = .tooLarge ∧ (a.IsLarge ∨ b.IsLarge) := by
  rw [← order?_eq_error_iff, compare]
  refine bind_eq_error_iff.trans (or_iff_left ?_)
  rintro ⟨ordering, -, h⟩
  cases ordering <;> cases h

end Value

/-- Two values cannot be compared: one is an integer beyond the floating-point numbers where one of these
    is needed. -/
def Comparison.Overflows : Comparison → Value → Value → Prop
  | strict, _, _ => False
  | notStrict, _, _ => False
  | loose, a, b => Value.LargeBesideText a b
  | notLoose, a, b => Value.LargeBesideText a b
  | order _, a, b => a.IsLarge ∨ b.IsLarge

theorem Comparison.holds_eq_error_iff {comparison : Comparison} {a b : Value} {fault : NumberFault} :
    comparison.holds a b = .error fault ↔ fault = .tooLarge ∧ comparison.Overflows a b := by
  cases comparison with
  | strict | notStrict => exact iff_of_false nofun And.right
  | loose => exact Value.looseEquals_eq_error_iff
  | notLoose =>
    rw [Overflows, ← Value.looseEquals_eq_error_iff, holds]
    cases a.looseEquals b <;> simp [Except.map]
  | order o => exact Value.compare_eq_error_iff

/-! ### Conditions -/

namespace Condition

variable {host : Host} {s : List Char} {c : Context} {fault : NumberFault}

/-- The kinds of errors of conditions. -/
def errorKinds : List String := ["MalformedAccessor", "UndefinedVariable", "InvalidPrimitiveLiteral"]

/-- A condition raises an error of one of those kinds, or it breaks off. -/
inductive Ends : Failure → Prop where
  | template {e : TemplateError} : e.kind ∈ errorKinds → Ends (.template e)
  | number (fault : NumberFault) : Ends (.number fault)

theorem concludes_read (s : List Char) : Concludes Ends (fun _ => True) (Literal.read s) := by
  rw [Literal.read]
  split_ifs
  · exact concludes_pure trivial
  · exact concludes_pure trivial
  split
  · exact concludes_pure trivial
  split
  · exact (concludes_ofNumber .number).bind fun _ _ _ => concludes_pure trivial
  · exact concludes_pure trivial
  · exact concludes_throw (.template (by simp [TemplateError.kind, errorKinds]))

/-- A reference in a condition is a name. -/
theorem resolveOperand_reference {inside : List Char} (hs : IsAllowed s)
    (hinside : Path.reference? (Text.trim s) = some inside) :
    Path.resolveOperand host s (.map c) = Path.lookup (Text.trim inside) c := by
  have hallowed := hs.mono ((isInfix_of_reference? hinside).trans (Text.isInfix_trim s))
  simp only [Path.resolveOperand, hinside]
  exact Path.resolve_name (hallowed '.' (by decide)) (hallowed '[' (by decide)) (hallowed '(' (by decide))

theorem concludes_resolveOperand (hs : IsAllowed s) :
    Concludes Ends (fun _ => True) (Path.resolveOperand host s (.map c)) := by
  cases hinside : Path.reference? (Text.trim s) with
  | some inside =>
    rw [resolveOperand_reference hs hinside, Path.lookup]
    split
    · exact concludes_pure trivial
    · exact concludes_throw (.template (by simp [TemplateError.kind, errorKinds]))
  | none =>
    simp only [Path.resolveOperand, hinside]
    exact concludes_read _

theorem concludes_evaluateComparison (hs : IsAllowed s) :
    Concludes Ends (fun _ => True) (evaluateComparison host s (.map c)) := by
  rw [evaluateComparison]
  split
  next comparison left right hdivide =>
    obtain ⟨hleft, hright⟩ := isInfix_of_divide? hdivide
    refine (concludes_resolveOperand (hs.mono hleft)).bind fun a _ _ => ?_
    refine (concludes_resolveOperand (hs.mono hright)).bind fun b _ _ => ?_
    exact concludes_ofNumber .number
  · exact (concludes_resolveOperand hs).bind fun _ _ _ => concludes_pure trivial

theorem concludes_evaluateRest {rest : List (Combinator × List Char)}
    (hrest : ∀ piece ∈ rest, IsAllowed piece.2) :
    Concludes Ends (fun _ => True) (evaluateRest host (.map c) rest) := by
  induction rest with
  | nil => exact concludes_pure trivial
  | cons piece rest ih =>
    obtain ⟨hpiece, hrest⟩ := List.forall_mem_cons.1 hrest
    refine (concludes_evaluateComparison hpiece).bind fun _ _ _ => ?_
    exact (ih hrest).bind fun _ _ _ => concludes_pure trivial

/-- A condition calls nothing, and it has a result, raises an error of one of its kinds or breaks off. -/
theorem concludes_evaluate (host : Host) (s : List Char) (c : Context) :
    Concludes Ends (fun _ => True) (evaluate host s (.map c)) := by
  rw [evaluate]
  split
  · exact concludes_throw (.template (by simp [TemplateError.kind, errorKinds]))
  next hforbidden =>
    have hs := forbiddenIn_eq_nil.1 hforbidden
    obtain ⟨hfirst, hrest⟩ := isInfix_split s
    refine (concludes_evaluateComparison (hs.mono hfirst)).bind fun _ _ _ => ?_
    refine (concludes_evaluateRest fun piece hpiece => hs.mono (hrest piece hpiece)).bind fun _ _ _ => ?_
    exact concludes_pure trivial

/-- Why one comparison breaks off: an operand is an integer of too many digits, where the left one counts
    first, or the two operands have values that cannot be compared. -/
inductive Exceeds (host : Host) (c : Context) (s : List Char) : NumberFault → Prop where
  | single {count : Nat} : divide? s = none → Literal.IsOverlong s count →
      Exceeds host c s (.unreadable count)
  | left {comparison : Comparison} {left right : List Char} {count : Nat} :
      divide? s = some (comparison, left, right) → Literal.IsOverlong left count →
      Exceeds host c s (.unreadable count)
  | right {comparison : Comparison} {left right : List Char} {a : Value} {count : Nat} :
      divide? s = some (comparison, left, right) →
      (Path.resolveOperand host left (.map c)).Gives a → Literal.IsOverlong right count →
      Exceeds host c s (.unreadable count)
  | values {comparison : Comparison} {left right : List Char} {a b : Value} :
      divide? s = some (comparison, left, right) →
      (Path.resolveOperand host left (.map c)).Gives a →
      (Path.resolveOperand host right (.map c)).Gives b → comparison.Overflows a b →
      Exceeds host c s .tooLarge

/-- An operand that breaks off is no reference, for no numeral begins with a brace. -/
theorem breaksOff_resolveOperand (hs : IsAllowed s) :
    (Path.resolveOperand host s (.map c)).BreaksOff fault ↔
      ∃ count, Literal.IsOverlong s count ∧ fault = .unreadable count := by
  cases hinside : Path.reference? (Text.trim s) with
  | some inside =>
    rw [resolveOperand_reference hs hinside, Path.lookup]
    refine iff_of_false ?_ ?_
    · split
      · exact not_breaksOff_pure
      · exact not_breaksOff_throw
    · rintro ⟨_, ⟨negative, digits, hnumeral, -⟩, -⟩
      unfold Path.reference? at hinside
      split at hinside
      next heq =>
        rw [heq] at hnumeral
        rcases Numeral.head_of_read? hnumeral with hc | hc <;> exact absurd hc (by decide)
      · cases hinside
  | none =>
    simp only [Path.resolveOperand, hinside]
    simp only [Literal.breaksOff_read, Literal.IsOverlong, Text.trim_trim]

theorem breaksOff_evaluateComparison (hs : IsAllowed s) :
    (evaluateComparison host s (.map c)).BreaksOff fault ↔ Exceeds host c s fault := by
  rw [evaluateComparison]
  cases hdivide : divide? s with
  | none =>
    dsimp only
    rw [breaksOff_bind_pure, breaksOff_resolveOperand hs]
    constructor
    · rintro ⟨count, hlong, rfl⟩
      exact .single hdivide hlong
    · rintro (⟨-, hlong⟩ | ⟨hparts, -⟩ | ⟨hparts, -, -⟩ | ⟨hparts, -, -, -⟩)
      · exact ⟨_, hlong, rfl⟩
      all_goals cases hdivide.symm.trans hparts
  | some parts =>
    obtain ⟨comparison, left, right⟩ := parts
    obtain ⟨hleft, hright⟩ := isInfix_of_divide? hdivide
    dsimp only
    rw [breaksOff_bind, breaksOff_resolveOperand (hs.mono hleft)]
    simp only [breaksOff_bind, breaksOff_resolveOperand (hs.mono hright), breaksOff_ofNumber,
      Comparison.holds_eq_error_iff]
    constructor
    · rintro (⟨count, hlong, rfl⟩ | ⟨a, ha, ⟨count, hlong, rfl⟩ | ⟨b, hb, rfl, hoverflows⟩⟩)
      · exact .left hdivide hlong
      · exact .right hdivide ha hlong
      · exact .values hdivide ha hb hoverflows
    · rintro (⟨hnone, -⟩ | ⟨hparts, hlong⟩ | ⟨hparts, ha, hlong⟩ | ⟨hparts, ha, hb, hoverflows⟩)
      · cases hdivide.symm.trans hnone
      all_goals cases hdivide.symm.trans hparts
      · exact .inl ⟨_, hlong, rfl⟩
      · exact .inr ⟨_, ha, .inl ⟨_, hlong, rfl⟩⟩
      · exact .inr ⟨_, ha, .inr ⟨_, hb, rfl, hoverflows⟩⟩

/-- One of the comparisons in a row breaks off, and all before it have a result. -/
def ExceedsIn (host : Host) (c : Context) (row : List (List Char)) (fault : NumberFault) : Prop :=
  ∃ before t after, row = before ++ t :: after ∧
    (∀ u ∈ before, ∃ b, (evaluateComparison host u (.map c)).Gives b) ∧ Exceeds host c t fault

theorem not_exceedsIn_nil : ¬ExceedsIn host c [] fault := by
  rintro ⟨before, t, after, hrow, -⟩
  cases before <;> cases hrow

/-- The first comparison breaks off, or it has a result and one behind it does. -/
theorem exceedsIn_cons {row : List (List Char)} :
    ExceedsIn host c (s :: row) fault ↔ Exceeds host c s fault ∨
      ∃ b, (evaluateComparison host s (.map c)).Gives b ∧ ExceedsIn host c row fault := by
  constructor
  · rintro ⟨before, t, after, hrow, hbefore, hexceeds⟩
    cases before with
    | nil =>
      obtain ⟨rfl, -⟩ := List.cons.inj hrow
      exact .inl hexceeds
    | cons u before =>
      obtain ⟨rfl, rfl⟩ := List.cons.inj hrow
      obtain ⟨⟨b, hb⟩, hbefore⟩ := List.forall_mem_cons.1 hbefore
      exact .inr ⟨b, hb, before, t, after, rfl, hbefore, hexceeds⟩
  · rintro (hexceeds | ⟨b, hb, before, t, after, rfl, hbefore, hexceeds⟩)
    · exact ⟨[], s, row, rfl, fun u hu => absurd hu List.not_mem_nil, hexceeds⟩
    · exact ⟨s :: before, t, after, rfl, List.forall_mem_cons.2 ⟨⟨b, hb⟩, hbefore⟩, hexceeds⟩

theorem breaksOff_evaluateRest {rest : List (Combinator × List Char)}
    (hrest : ∀ piece ∈ rest, IsAllowed piece.2) :
    (evaluateRest host (.map c) rest).BreaksOff fault ↔
      ExceedsIn host c (rest.map Prod.snd) fault := by
  induction rest with
  | nil => exact iff_of_false not_breaksOff_pure not_exceedsIn_nil
  | cons piece rest ih =>
    obtain ⟨hpiece, hrest⟩ := List.forall_mem_cons.1 hrest
    rw [evaluateRest, breaksOff_bind, breaksOff_evaluateComparison hpiece, List.map_cons,
      exceedsIn_cons]
    simp only [breaksOff_bind_pure, ih hrest]

/-- The comparisons of a condition. -/
def comparisons (s : List Char) : List (List Char) := (split s).1 :: (split s).2.map Prod.snd

/-- A condition breaks off if one of its comparisons does, behind results only. -/
theorem breaksOff_evaluate :
    (evaluate host s (.map c)).BreaksOff fault ↔
      IsAllowed s ∧ ExceedsIn host c (comparisons s) fault := by
  rw [evaluate]
  split
  next d ds hforbidden =>
    refine iff_of_false not_breaksOff_throw fun h => ?_
    rw [← forbiddenIn_eq_nil, hforbidden] at h
    cases h.1
  next hforbidden =>
    have hs := forbiddenIn_eq_nil.1 hforbidden
    obtain ⟨hfirst, hrest⟩ := isInfix_split s
    rw [and_iff_right hs, comparisons, exceedsIn_cons,
      ← breaksOff_evaluateRest fun piece hpiece => hs.mono (hrest piece hpiece), breaksOff_bind,
      breaksOff_evaluateComparison (hs.mono hfirst)]
    simp only [breaksOff_bind_pure]

/-- A condition calls nothing. It has a result or raises an error of one of three kinds, or it breaks off:
    a comparison in it meets an integer literal of too many digits or an integer beyond the floating-point
    numbers, and all comparisons before that have a result. -/
theorem evaluate_limits (host : Host) (s : List Char) (c : Context) :
    (evaluate host s (.map c)).calls = [] ∧
      ((∃ b, (evaluate host s (.map c)).Gives b) ∨
        (∃ e, (evaluate host s (.map c)).Raises e ∧ e.kind ∈ errorKinds) ∨
        ∃ fault, (evaluate host s (.map c)).BreaksOff fault) ∧
      ∀ fault, (evaluate host s (.map c)).BreaksOff fault ↔
        IsAllowed s ∧ ExceedsIn host c (comparisons s) fault := by
  have h := concludes_evaluate host s c
  refine ⟨h.silent, ?_, fun fault => breaksOff_evaluate⟩
  rcases h.gives_or_fails with ⟨b, hb, -⟩ | ⟨failure, hfailure, hends⟩
  · exact .inl ⟨b, hb⟩
  · cases hends with
    | template hkind => exact .inr (.inl ⟨_, hfailure, hkind⟩)
    | number fault => exact .inr (.inr ⟨fault, hfailure⟩)

/-- A condition of digits alone breaks off if they are too many. -/
theorem breaksOff_evaluate_digits {digits : List Char} {count : Nat} (h : Text.IsDigits digits)
    (hcount : digits.length = count) (hlong : NumberFault.maxDigits < count) :
    (evaluate host digits (.map c)).BreaksOff (.unreadable count) := by
  have hfree : IsFree digits := by
    intro d hd hreserved
    have hnone : ∀ d ∈ reserved, Text.isDigit d = false := Text.forall_mem_of_all (by decide)
    exact absurd (h d hd) (Bool.eq_false_iff.1 (hnone d hreserved))
  have htrim : Text.trim digits = digits :=
    Text.trim_of_forall_not_space fun d hd => Text.isSpace_of_isDigit (h d hd)
  have hne : digits ≠ [] := by
    rintro rfl
    rw [← hcount] at hlong
    cases hlong
  have hpieces : pieces digits = (digits, []) := by
    have happend := pieces_append (hfree.not_mem (c := '&') (by decide))
      (hfree.not_mem (c := '|') (by decide)) []
    rwa [pieces, List.append_nil] at happend
  have hcomparisons : comparisons digits = [digits] := by
    rw [comparisons, split, hpieces]
    exact congrArg (fun t => [t]) htrim
  have hoverlong : Literal.IsOverlong digits count :=
    ⟨false, _, htrim.symm ▸ Numeral.read?_of_isDigits h hne, (Text.length_digitValues h).trans hcount,
      hlong⟩
  have hallowed : IsAllowed digits := fun d hd hmem => hfree d hmem (List.mem_append_left _ hd)
  rw [breaksOff_evaluate, hcomparisons, exceedsIn_cons]
  exact ⟨hallowed, .inl (.single (divide?_of_isFree hfree) hoverlong)⟩

/-- 4301 digits are too many, and 10⁴⁰⁰ cannot be put in order. -/
theorem not_evaluate_limits :
    (evaluate .none (List.replicate 4301 '1') (.map [])).BreaksOff (.unreadable 4301) ∧
      (evaluate .none "\x7b\x7bn\x7d\x7d > 1".toList (.map [(.str "n", .int (10 ^ 400))])).BreaksOff
        .tooLarge := by
  constructor
  · have hdigits : Text.IsDigits (List.replicate 4301 '1') := by
      intro d hd
      rw [List.eq_of_mem_replicate hd]
      decide
    exact breaksOff_evaluate_digits hdigits List.length_replicate (by decide)
  · unfold BreaksOff
    decide +kernel

end Condition

end Stencil
