import Stencil.Proofs.Failing
import Stencil.Proofs.Number.Rounding

/-!
# Comparisons of integers

Two integers are equal if they are the same, but they are put in order as floating-point numbers. So the
comparisons do not agree with each other on all integers (`Value.Agrees`): neighbours that are rounded to
the same number are neither equal nor is one below the other, although each is at most the other, and an
integer that is too large to be rounded cannot be put in order at all. These are the only two ways
(`Value.comparisons_int`).

* `equal_int`: equality is exact;
* `compare_int`: an order comparison of two integers compares what they are rounded to;
* `compare_roundInt`: integers that are not rounded to the same number keep their order;
* `agrees_int_of_le`: up to 2⁵³ the comparisons agree.
-/

namespace Stencil

namespace Binary64

theorem compare_unitsOfInt (a b : Int) :
    Ord.compare (unitsOfInt a) (unitsOfInt b) = Ord.compare a b := by
  have hpos : (0 : Int) < ((1 <<< unitBits : Nat) : Int) := by
    rw [Nat.one_shiftLeft]
    exact Int.natCast_pos.2 (Nat.two_pow_pos _)
  rw [unitsOfInt, unitsOfInt]
  rcases Int.lt_trichotomy a b with hlt | heq | hgt
  · rw [Int.compare_eq_lt.2 hlt, Int.compare_eq_lt]
    exact Int.mul_lt_mul_of_pos_right hlt hpos
  · rw [heq, Int.compare_eq_eq.2 rfl]
    exact (Int.compare_eq_eq.2 rfl).symm
  · rw [Int.compare_eq_gt.2 hgt, Int.compare_eq_gt]
    exact Int.mul_lt_mul_of_pos_right hgt hpos

end Binary64

namespace Value

open Binary64

/-- The six comparisons agree on two values: none of them fails, exactly one of below, equal and above
    holds, the weak order comparisons are what they are called, and there is one equality. -/
def Agrees (a b : Value) : Prop :=
  ∃ below above atMost atLeast : Bool,
    compare .below a b = .ok below ∧ compare .above a b = .ok above ∧
      compare .atMost a b = .ok atMost ∧ compare .atLeast a b = .ok atLeast ∧
      [below, strictEquals a b, above].count true = 1 ∧
      (atLeast = true ↔ above = true ∨ strictEquals a b = true) ∧
      (atMost = true ↔ below = true ∨ strictEquals a b = true) ∧
      looseEquals a b = .ok (strictEquals a b)

/-- Values that are in some order agree if they are equal exactly in the order that says so. -/
theorem agrees_iff_of_compare {a b : Value} {ordering : Ordering}
    (hcompare : ∀ o, compare o a b = .ok (o.holds ordering))
    (hloose : looseEquals a b = .ok (strictEquals a b)) :
    Agrees a b ↔ strictEquals a b = (ordering == .eq) := by
  constructor
  · rintro ⟨below, above, atMost, atLeast, hbelow, habove, -, -, hone, -⟩
    rw [hcompare] at hbelow habove
    cases hbelow
    cases habove
    revert hone
    cases ordering <;> cases strictEquals a b <;> decide
  · intro heq
    refine ⟨_, _, _, _, hcompare _, hcompare _, hcompare _, hcompare _, ?_, ?_, ?_, hloose⟩ <;>
      rw [heq] <;> cases ordering <;> decide

/-! ### Equality -/

theorem equal_int (a b : Int) : equal (int a) (int b) = (Ord.compare a b == .eq) := by
  rw [← compare_unitsOfInt]
  rfl

theorem strictEquals_int (a b : Int) : strictEquals (int a) (int b) = (Ord.compare a b == .eq) :=
  equal_int a b

theorem looseEquals_int (a b : Int) :
    looseEquals (int a) (int b) = .ok (strictEquals (int a) (int b)) := rfl

/-! ### Order -/

theorem toNumber_int {n : Int} (h : n.natAbs < overflowBound) :
    ∃ x, (int n).toNumber = .ok x ∧ x.point? = some (.at (unitsOfInt (roundInt n))) := by
  cases hof : ofInt? n with
  | none => exact absurd (ofInt?_eq_none_iff.1 hof) (Nat.not_le.2 h)
  | some x =>
    refine ⟨x, ?_, point?_of_ofInt? hof⟩
    rw [toNumber, hof]

/-- A value is an integer beyond the floating-point numbers. -/
def IsLarge (v : Value) : Prop := ∃ n : Int, v = int n ∧ overflowBound ≤ n.natAbs

/-- Only such integers cannot be read as a number. -/
theorem toNumber_eq_error_iff {v : Value} {fault : NumberFault} :
    v.toNumber = .error fault ↔ fault = .tooLarge ∧ v.IsLarge := by
  constructor
  · intro h
    obtain rfl := failsIn_toNumber v fault h
    cases v with
    | int n =>
      refine ⟨rfl, n, rfl, ofInt?_eq_none_iff.1 ?_⟩
      cases hof : ofInt? n with
      | none => rfl
      | some x =>
        rw [toNumber, hof] at h
        cases h
    | _ => cases h
  · rintro ⟨rfl, n, rfl, hn⟩
    rw [toNumber, ofInt?_eq_none_iff.2 hn]

/-- Two integers are compared by what they are rounded to, unless one of them is too large. -/
theorem compare_int (o : Order) (a b : Int) :
    compare o (int a) (int b) =
      if a.natAbs < overflowBound ∧ b.natAbs < overflowBound then
        .ok (o.holds (Ord.compare (roundInt a) (roundInt b)))
      else .error .tooLarge := by
  have horder : order? (int a) (int b) =
      (int a).toNumber.bind fun x => (int b).toNumber.bind fun y => .ok (x.compare? y) := rfl
  rw [compare, horder]
  by_cases ha : a.natAbs < overflowBound
  · obtain ⟨x, hx, hpx⟩ := toNumber_int ha
    rw [hx]
    by_cases hb : b.natAbs < overflowBound
    · obtain ⟨y, hy, hpy⟩ := toNumber_int hb
      have hcompare : x.compare? y = some (Ord.compare (roundInt a) (roundInt b)) := by
        rw [compare?, hpx, hpy, ← compare_unitsOfInt]
        rfl
      rw [hy, if_pos ⟨ha, hb⟩, Except.bind, Except.bind, hcompare]
      rfl
    · rw [toNumber_eq_error_iff.2 ⟨rfl, b, rfl, Nat.le_of_not_lt hb⟩, if_neg (mt And.right hb)]
      rfl
  · rw [toNumber_eq_error_iff.2 ⟨rfl, a, rfl, Nat.le_of_not_lt ha⟩, if_neg (mt And.left ha)]
    rfl

/-- Rounding may bring two integers together, but it does not exchange them. -/
theorem compare_roundInt (a b : Int) :
    Ord.compare (roundInt a) (roundInt b) = .eq ∨
      Ord.compare (roundInt a) (roundInt b) = Ord.compare a b := by
  rcases Int.lt_trichotomy a b with hlt | heq | hgt
  · rw [Int.compare_eq_lt.2 hlt, Int.compare_eq_eq, Int.compare_eq_lt]
    exact (Int.lt_or_eq_of_le (roundInt_mono (Int.le_of_lt hlt))).symm
  · exact .inl (Int.compare_eq_eq.2 (congrArg roundInt heq))
  · rw [Int.compare_eq_gt.2 hgt, Int.compare_eq_eq, Int.compare_eq_gt]
    exact (Int.lt_or_eq_of_le (roundInt_mono (Int.le_of_lt hgt))).symm.imp_left Eq.symm

/-! ### Agreement -/

/-- The comparisons of two integers agree if both can be rounded, and not to the same number unless they are
    the same. -/
theorem agrees_int_iff (a b : Int) :
    Agrees (int a) (int b) ↔ a.natAbs < overflowBound ∧ b.natAbs < overflowBound ∧
      (a = b ∨ roundInt a ≠ roundInt b) := by
  by_cases hsmall : a.natAbs < overflowBound ∧ b.natAbs < overflowBound
  · have hcompare (o : Order) : compare o (int a) (int b) =
        .ok (o.holds (Ord.compare (roundInt a) (roundInt b))) := by
      rw [compare_int, if_pos hsmall]
    rw [agrees_iff_of_compare hcompare (looseEquals_int a b), strictEquals_int, Bool.eq_iff_iff,
      beq_iff_eq, beq_iff_eq, Int.compare_eq_eq, Int.compare_eq_eq]
    constructor
    · intro heq
      refine ⟨hsmall.1, hsmall.2, ?_⟩
      by_cases hab : a = b
      · exact .inl hab
      · exact .inr (mt heq.2 hab)
    · rintro ⟨-, -, rfl | hround⟩
      · exact iff_of_true rfl rfl
      · exact iff_of_false (fun hab => hround (congrArg roundInt hab)) hround
  · constructor
    · rintro ⟨below, -, -, -, hbelow, -⟩
      rw [compare_int, if_neg hsmall] at hbelow
      cases hbelow
    · rintro ⟨ha, hb, -⟩
      exact absurd ⟨ha, hb⟩ hsmall

theorem agrees_int_of_le {a b : Int} (ha : a.natAbs ≤ 2 ^ significandBits)
    (hb : b.natAbs ≤ 2 ^ significandBits) : Agrees (int a) (int b) := by
  have hlimit : 2 ^ significandBits < overflowBound := by decide +kernel
  refine (agrees_int_iff a b).2 ⟨Nat.lt_of_le_of_lt ha hlimit, Nat.lt_of_le_of_lt hb hlimit, ?_⟩
  rw [roundInt_of_le ha, roundInt_of_le hb]
  exact Decidable.em (a = b)

/-- The equalities of two integers are exact. Every order comparison is one of what they are rounded to,
    each to a nearest integer with a significand, and fails if one of them is too large to be rounded. So
    an order that is found is the right one, and the comparisons agree unless one of the integers is too
    large or they differ and are rounded to the same number, which they are not up to 2⁵³. -/
theorem comparisons_int (a b : Int) :
    strictEquals (int a) (int b) = decide (a = b) ∧
      looseEquals (int a) (int b) = .ok (decide (a = b)) ∧
      (∀ o, compare o (int a) (int b) =
        if a.natAbs < overflowBound ∧ b.natAbs < overflowBound then
          .ok (o.holds (Ord.compare (roundInt a) (roundInt b)))
        else .error .tooLarge) ∧
      IsNearest a (roundInt a) ∧ IsNearest b (roundInt b) ∧
      (Ord.compare (roundInt a) (roundInt b) = .eq ∨
        Ord.compare (roundInt a) (roundInt b) = Ord.compare a b) ∧
      (Agrees (int a) (int b) ↔ a.natAbs < overflowBound ∧ b.natAbs < overflowBound ∧
        (a = b ∨ roundInt a ≠ roundInt b)) ∧
      (a.natAbs ≤ 2 ^ significandBits → b.natAbs ≤ 2 ^ significandBits →
        Agrees (int a) (int b)) := by
  have hstrict : strictEquals (int a) (int b) = decide (a = b) := by
    rw [strictEquals_int, Bool.eq_iff_iff, beq_iff_eq, decide_eq_true_iff, Int.compare_eq_eq]
  refine ⟨hstrict, ?_, fun o => compare_int o a b, isNearest_roundInt a, isNearest_roundInt b,
    compare_roundInt a b, agrees_int_iff a b, agrees_int_of_le⟩
  rw [looseEquals_int, hstrict]

/-- 2⁵³ and its successor are not equal, and neither is below the other; 10⁴⁰⁰ cannot be put in order. -/
theorem not_agrees_int :
    (strictEquals (int (2 ^ 53)) (int (2 ^ 53 + 1)) = false ∧
      compare .below (int (2 ^ 53)) (int (2 ^ 53 + 1)) = .ok false ∧
      compare .above (int (2 ^ 53)) (int (2 ^ 53 + 1)) = .ok false ∧
      ¬Agrees (int (2 ^ 53)) (int (2 ^ 53 + 1))) ∧
    (∀ o, compare o (int (10 ^ 400)) (int 1) = .error .tooLarge) ∧
      ¬Agrees (int (10 ^ 400)) (int 1) := by
  refine ⟨⟨by decide +kernel, by decide +kernel, by decide +kernel, ?_⟩, fun o => ?_, ?_⟩
  · exact mt (agrees_int_iff _ _).1 (by decide +kernel)
  · cases o <;> decide +kernel
  · exact mt (agrees_int_iff _ _).1 (by decide +kernel)

end Value

end Stencil
