import Mathlib.Data.Nat.Dist
import Mathlib.Tactic.SplitIfs
import Stencil.Number.Binary64

/-!
# Integers as floating-point numbers

An integer becomes the floating-point number nearest to it: the binary digits that it has beyond those of
a significand are rounded away, to the even side in a tie (`roundInt`). Up to 2⁵³ there are none, and what
is rounded to 2¹⁰²⁴ or more is no number of the format: these are the integers from 2¹⁰²⁴ - 2⁹⁷⁰ on.

Rounding may bring two integers together, but it never exchanges them.

* `roundNat_mono`, `roundInt_mono`: rounding keeps the order;
* `isNearest_roundInt`: what an integer is rounded to has a significand, and nothing else that has one
  is nearer;
* `roundNat_mul_two_pow`: rounding does not depend on the unit;
* `ofInt?_eq_none_iff`, `point?_of_ofInt?`: what an integer is converted to.
-/

namespace Stencil.Binary64

/-- How many binary digits a number has beyond those of a significand. -/
def excessBits (n : Nat) : Nat := n.log2 + 1 - significandBits

/-- A number with its excess digits rounded away. -/
def roundNat (n : Nat) : Nat := roundHalfEven n (2 ^ excessBits n) * 2 ^ excessBits n

/-- An integer with its excess digits rounded away. -/
def roundInt (n : Int) : Int := if n < 0 then -(roundNat n.natAbs : Int) else roundNat n.natAbs

/-- An integer can be written with a significand, whatever its exponent is. -/
def HasSignificand (n : Int) : Prop :=
  ∃ (m : Int) (e : Nat), m.natAbs < 2 ^ significandBits ∧ n = m * 2 ^ e

/-- Of all integers with a significand, `r` is one that is nearest to `n`. -/
structure IsNearest (n r : Int) : Prop where
  hasSignificand : HasSignificand r
  le : ∀ k, HasSignificand k → (n - r).natAbs ≤ (n - k).natAbs

/-- The least number that is rounded to 2¹⁰²⁴, and so is too large for the format: it is in the middle
    between the largest number of the format and 2¹⁰²⁴. -/
def overflowBound : Nat := 2 ^ 1024 - 2 ^ 970

/-! ### Rounding quotients -/

theorem roundHalfEven_mul_right (num den : Nat) {c : Nat} (hc : 0 < c) :
    roundHalfEven (num * c) (den * c) = roundHalfEven num den := by
  rw [roundHalfEven, roundHalfEven, Nat.mul_div_mul_right _ _ hc, Nat.mul_mod_mul_right]
  have hlt (a b : Nat) : 2 * (a * c) < b * c ↔ 2 * a < b := by
    rw [← Nat.mul_assoc, Nat.mul_lt_mul_right hc]
  have hgt (a b : Nat) : b * c < 2 * (a * c) ↔ b < 2 * a := by
    rw [← Nat.mul_assoc, Nat.mul_lt_mul_right hc]
  simp only [hlt, hgt]

theorem roundHalfEven_mul_self (q : Nat) {den : Nat} (hden : 0 < den) :
    roundHalfEven (q * den) den = q := by
  have h := roundHalfEven_mul_right q 1 hden
  rwa [Nat.one_mul, roundHalfEven_one] at h

/-- A quotient is rounded down with at most half a remainder, or up with at least half of one. -/
theorem roundHalfEven_cases (num den : Nat) :
    (roundHalfEven num den = num / den ∧ 2 * (num % den) ≤ den) ∨
      (roundHalfEven num den = num / den + 1 ∧ den ≤ 2 * (num % den)) := by
  rw [roundHalfEven]
  split_ifs with hdown hup
  · exact .inl ⟨rfl, Nat.le_of_lt hdown⟩
  · exact .inr ⟨rfl, Nat.le_of_lt hup⟩
  · omega

/-- Of two numbers with the same quotient the remainders decide, and else the quotients do. -/
theorem roundHalfEven_mono {a b : Nat} (h : a ≤ b) (den : Nat) :
    roundHalfEven a den ≤ roundHalfEven b den := by
  have hquotient : a / den ≤ b / den := Nat.div_le_div_right h
  rcases Nat.lt_or_eq_of_le hquotient with hlt | heq
  · have ha := roundHalfEven_cases a den
    have hb := roundHalfEven_cases b den
    omega
  · have ha := Nat.div_add_mod a den
    have hb := Nat.div_add_mod b den
    rw [heq] at ha
    rw [roundHalfEven, roundHalfEven, heq]
    split_ifs <;> omega

theorem le_roundHalfEven {q num den : Nat} (hden : 0 < den) (h : q * den ≤ num) :
    q ≤ roundHalfEven num den :=
  roundHalfEven_mul_self q hden ▸ roundHalfEven_mono h den

theorem roundHalfEven_le {q num den : Nat} (hden : 0 < den) (h : num ≤ q * den) :
    roundHalfEven num den ≤ q :=
  Nat.le_trans (roundHalfEven_mono h den) (Nat.le_of_eq (roundHalfEven_mul_self q hden))

/-- No other multiple of the denominator is nearer. -/
theorem roundHalfEven_nearest {num den : Nat} (hden : 0 < den) (q : Nat) :
    num.dist (roundHalfEven num den * den) ≤ num.dist (q * den) := by
  have hsplit := Nat.div_add_mod num den
  have hrest := Nat.mod_lt num hden
  rw [Nat.mul_comm] at hsplit
  -- A multiple is the one below the number or a smaller one, or the one above it or a larger one.
  have hside : q * den ≤ num / den * den ∨ num / den * den + den ≤ q * den := by
    rcases Nat.lt_or_ge (num / den) q with hlt | hge
    · have := Nat.mul_le_mul_right den hlt
      rw [Nat.succ_mul] at this
      exact .inr this
    · exact .inl (Nat.mul_le_mul_right den hge)
  rw [Nat.dist, Nat.dist]
  rcases roundHalfEven_cases num den with ⟨hround, hhalf⟩ | ⟨hround, hhalf⟩
  · rw [hround]
    omega
  · rw [hround, Nat.succ_mul]
    omega

/-! ### Rounding numbers -/

theorem excessBits_le_log2 (n : Nat) : excessBits n ≤ n.log2 := by
  rw [excessBits, significandBits]
  omega

theorem roundNat_zero : roundNat 0 = 0 := by
  decide

theorem roundNat_of_dvd {n : Nat} (h : 2 ^ excessBits n ∣ n) : roundNat n = n := by
  obtain ⟨q, hq⟩ := h
  have hround : roundHalfEven n (2 ^ excessBits n) = q := by
    have hself := roundHalfEven_mul_self q (Nat.two_pow_pos (excessBits n))
    rwa [Nat.mul_comm, ← hq] at hself
  rw [roundNat, hround, Nat.mul_comm, ← hq]

theorem two_pow_log2_le_roundNat {n : Nat} (h : n ≠ 0) : 2 ^ n.log2 ≤ roundNat n := by
  have hsplit : 2 ^ (n.log2 - excessBits n) * 2 ^ excessBits n = 2 ^ n.log2 := by
    rw [← Nat.pow_add, Nat.sub_add_cancel (excessBits_le_log2 n)]
  rw [← hsplit, roundNat]
  exact Nat.mul_le_mul_right _ (le_roundHalfEven (Nat.two_pow_pos _) (hsplit ▸ Nat.log2_self_le h))

theorem roundNat_le_two_pow_log2 (n : Nat) : roundNat n ≤ 2 ^ (n.log2 + 1) := by
  have hsplit : 2 ^ (n.log2 + 1 - excessBits n) * 2 ^ excessBits n = 2 ^ (n.log2 + 1) := by
    rw [← Nat.pow_add, Nat.sub_add_cancel (Nat.le_succ_of_le (excessBits_le_log2 n))]
  rw [← hsplit, roundNat]
  exact Nat.mul_le_mul_right _
    (roundHalfEven_le (Nat.two_pow_pos _) (hsplit ▸ Nat.le_of_lt Nat.lt_log2_self))

theorem roundNat_mono {a b : Nat} (h : a ≤ b) : roundNat a ≤ roundNat b := by
  by_cases ha : a = 0
  · subst ha
    exact Nat.zero_le _
  have hb : b ≠ 0 := by omega
  have hlog : a.log2 ≤ b.log2 := (Nat.le_log2 hb).2 (Nat.le_trans (Nat.log2_self_le ha) h)
  rcases Nat.lt_or_eq_of_le hlog with hlt | heq
  · -- There is a power of two between them.
    calc roundNat a ≤ 2 ^ (a.log2 + 1) := roundNat_le_two_pow_log2 a
      _ ≤ 2 ^ b.log2 := Nat.pow_le_pow_right Nat.two_pos hlt
      _ ≤ roundNat b := two_pow_log2_le_roundNat hb
  · have hexcess : excessBits a = excessBits b := by rw [excessBits, excessBits, heq]
    rw [roundNat, roundNat, hexcess]
    exact Nat.mul_le_mul_right _ (roundHalfEven_mono h _)

theorem log2_mul_two_pow {n : Nat} (hn : n ≠ 0) (k : Nat) : (n * 2 ^ k).log2 = n.log2 + k := by
  have hpos : n * 2 ^ k ≠ 0 := Nat.mul_ne_zero hn (Nat.ne_of_gt (Nat.two_pow_pos k))
  rw [Nat.log2_eq_iff hpos, Nat.pow_add, Nat.add_right_comm, Nat.pow_add]
  exact ⟨Nat.mul_le_mul_right _ (Nat.log2_self_le hn),
    Nat.mul_lt_mul_of_pos_right Nat.lt_log2_self (Nat.two_pow_pos k)⟩

/-- In another unit a number is rounded in the same way. -/
theorem roundNat_mul_two_pow (n k : Nat) : roundNat (n * 2 ^ k) = roundNat n * 2 ^ k := by
  by_cases hn : n = 0
  · subst hn
    rw [Nat.zero_mul, roundNat_zero, Nat.zero_mul]
  have hlog := log2_mul_two_pow hn k
  by_cases hexcess : excessBits n = 0
  · -- Then what is in excess in the other unit are zeros.
    have hle : excessBits (n * 2 ^ k) ≤ k := by
      rw [excessBits, significandBits] at hexcess ⊢
      omega
    have hn : roundNat n = n := roundNat_of_dvd (by rw [hexcess]; exact Nat.one_dvd n)
    rw [hn]
    exact roundNat_of_dvd (Nat.dvd_trans (Nat.pow_dvd_pow 2 hle) (Nat.dvd_mul_left _ n))
  · have hadd : excessBits (n * 2 ^ k) = excessBits n + k := by
      rw [excessBits, significandBits] at hexcess ⊢
      rw [excessBits, significandBits]
      omega
    rw [roundNat, roundNat, hadd, Nat.pow_add, roundHalfEven_mul_right _ _ (Nat.two_pow_pos k),
      Nat.mul_assoc]

/-- A number that fits into a significand has no excess. -/
theorem excessBits_eq_zero {n : Nat} (h : n < 2 ^ significandBits) : excessBits n = 0 := by
  by_cases hn : n = 0
  · subst hn
    decide
  · have := (Nat.log2_lt hn).2 h
    rw [excessBits]
    omega

/-- A number with a significand stays as it is. -/
theorem roundNat_exact {m : Nat} (h : m < 2 ^ significandBits) (e : Nat) :
    roundNat (m * 2 ^ e) = m * 2 ^ e := by
  rw [roundNat_mul_two_pow, roundNat_of_dvd (by rw [excessBits_eq_zero h]; exact Nat.one_dvd m)]

/-- No number with a significand is nearer than the one that is rounded to. -/
theorem roundNat_nearest (n : Nat) {m : Nat} (h : m < 2 ^ significandBits) (e : Nat) :
    n.dist (roundNat n) ≤ n.dist (m * 2 ^ e) := by
  have hmultiple (q : Nat) : n.dist (roundNat n) ≤ n.dist (q * 2 ^ excessBits n) :=
    roundHalfEven_nearest (Nat.two_pow_pos _) q
  rcases Nat.lt_or_ge e (excessBits n) with hlt | hle
  · -- Finer numbers with a significand are below the power of two that the number begins with.
    have hlog : n.log2 = 52 + excessBits n := by
      rw [excessBits, significandBits] at hlt ⊢
      omega
    have hn : n ≠ 0 := by
      rintro rfl
      exact Nat.not_lt_zero e hlt
    have hbelow : m * 2 ^ e ≤ 2 ^ 52 * 2 ^ excessBits n :=
      calc m * 2 ^ e ≤ 2 ^ 53 * 2 ^ e := Nat.mul_le_mul_right _ (Nat.le_of_lt h)
        _ = 2 ^ 52 * 2 ^ (e + 1) := by rw [Nat.pow_succ 2 e]; omega
        _ ≤ 2 ^ 52 * 2 ^ excessBits n :=
          Nat.mul_le_mul_left _ (Nat.pow_le_pow_right Nat.two_pos hlt)
    have hself : 2 ^ 52 * 2 ^ excessBits n ≤ n := by
      rw [← Nat.pow_add, ← hlog]
      exact Nat.log2_self_le hn
    refine Nat.le_trans (hmultiple (2 ^ 52)) ?_
    rw [Nat.dist, Nat.dist]
    omega
  · have hsplit : m * 2 ^ e = m * 2 ^ (e - excessBits n) * 2 ^ excessBits n := by
      rw [Nat.mul_assoc, ← Nat.pow_add, Nat.sub_add_cancel hle]
    rw [hsplit]
    exact hmultiple _

/-- What a number is rounded to has a significand again, of full length and with the excess digits as its
    exponent: rounding up can give a power of two, which has one excess digit more. -/
theorem roundNat_significand {n : Nat} (h : n.log2 = 52 + excessBits n) :
    ∃ m e, 2 ^ 52 ≤ m ∧ m < 2 ^ 53 ∧ m * 2 ^ e = roundNat n ∧
      (if roundHalfEven n (2 ^ excessBits n) = 2 ^ significandBits then
          (2 ^ (significandBits - 1), excessBits n + 1)
        else (roundHalfEven n (2 ^ excessBits n), excessBits n)) = (m, e) := by
  have hn : n ≠ 0 := by
    rintro rfl
    rw [Nat.log2_zero] at h
    omega
  have hbelow : 2 ^ 52 * 2 ^ excessBits n ≤ n := by
    rw [← Nat.pow_add, ← h]
    exact Nat.log2_self_le hn
  have habove : n ≤ 2 ^ 53 * 2 ^ excessBits n := by
    rw [← Nat.pow_add, show 53 + excessBits n = n.log2 + 1 by omega]
    exact Nat.le_of_lt Nat.lt_log2_self
  have hlow := le_roundHalfEven (Nat.two_pow_pos _) hbelow
  have hhigh := roundHalfEven_le (Nat.two_pow_pos _) habove
  by_cases hcarry : roundHalfEven n (2 ^ excessBits n) = 2 ^ 53
  · refine ⟨2 ^ 52, excessBits n + 1, Nat.le_refl _, by decide, ?_, if_pos hcarry⟩
    rw [roundNat, hcarry, Nat.pow_succ 2 (excessBits n)]
    omega
  · exact ⟨_, _, hlow, Nat.lt_of_le_of_ne hhigh hcarry, rfl, if_neg hcarry⟩

theorem exists_roundNat (n : Nat) : ∃ m e, m < 2 ^ significandBits ∧ roundNat n = m * 2 ^ e := by
  by_cases hexcess : excessBits n = 0
  · have hn : n < 2 ^ significandBits := by
      rw [excessBits] at hexcess
      exact Nat.lt_of_lt_of_le Nat.lt_log2_self (Nat.pow_le_pow_right Nat.two_pos (by omega))
    exact ⟨n, 0, hn, by simpa using roundNat_exact hn 0⟩
  · have hlog : n.log2 = 52 + excessBits n := by
      rw [excessBits, significandBits] at hexcess ⊢
      omega
    obtain ⟨m, e, -, hm, hvalue, -⟩ := roundNat_significand hlog
    exact ⟨m, e, hm, hvalue.symm⟩

/-! ### Rounding integers -/

theorem roundInt_mono {a b : Int} (h : a ≤ b) : roundInt a ≤ roundInt b := by
  rw [roundInt, roundInt]
  split_ifs with ha hb hb
  · have := roundNat_mono (show b.natAbs ≤ a.natAbs by omega)
    omega
  · omega
  · omega
  · have := roundNat_mono (show a.natAbs ≤ b.natAbs by omega)
    omega

/-- Up to 2⁵³ nothing is rounded away. -/
theorem roundInt_of_le {n : Int} (h : n.natAbs ≤ 2 ^ significandBits) : roundInt n = n := by
  have hround : roundNat n.natAbs = n.natAbs := by
    rcases Nat.lt_or_eq_of_le h with hlt | heq
    · simpa using roundNat_exact hlt 0
    · rw [heq]
      decide
  rw [roundInt, hround]
  split_ifs <;> omega

theorem natAbs_roundInt (n : Int) : (roundInt n).natAbs = roundNat n.natAbs := by
  rw [roundInt]
  split_ifs
  · rw [Int.natAbs_neg, Int.natAbs_natCast]
  · rw [Int.natAbs_natCast]

theorem hasSignificand_iff {n : Int} :
    HasSignificand n ↔ ∃ m e, m < 2 ^ significandBits ∧ n.natAbs = m * 2 ^ e := by
  constructor
  · rintro ⟨m, e, hm, rfl⟩
    exact ⟨m.natAbs, e, hm, by rw [Int.natAbs_mul, Int.natAbs_pow]; rfl⟩
  · rintro ⟨m, e, hm, hn⟩
    rcases Int.natAbs_eq n with h | h
    · refine ⟨m, e, hm, ?_⟩
      rw [h, hn, Int.natCast_mul, Int.natCast_pow]
      rfl
    · refine ⟨-m, e, by rwa [Int.natAbs_neg], ?_⟩
      rw [h, hn, Int.natCast_mul, Int.natCast_pow, Int.neg_mul]
      rfl

theorem isNearest_roundInt (n : Int) : IsNearest n (roundInt n) := by
  refine ⟨hasSignificand_iff.2 (natAbs_roundInt n ▸ exists_roundNat n.natAbs), fun k hk => ?_⟩
  obtain ⟨m, e, hm, hk⟩ := hasSignificand_iff.1 hk
  have hnearest := roundNat_nearest n.natAbs hm e
  -- On the other side of zero nothing is nearer than zero, which is no nearer itself.
  have hzero := roundNat_nearest n.natAbs (Nat.two_pow_pos significandBits) 0
  rw [← hk, Nat.dist, Nat.dist] at hnearest
  rw [Nat.dist, Nat.dist] at hzero
  rw [roundInt]
  split_ifs <;> omega

/-! ### Conversion -/

/-- A number with a full significand begins with the power of two that its exponent says. -/
theorem two_pow_le_mul_iff {m : Nat} (hlow : 2 ^ 52 ≤ m) (hhigh : m < 2 ^ 53) (k e : Nat) :
    2 ^ k ≤ m * 2 ^ e ↔ k ≤ 52 + e := by
  constructor
  · intro h
    have hlt : 2 ^ k < 2 ^ (53 + e) := by
      rw [Nat.pow_add 2 53 e]
      exact Nat.lt_of_le_of_lt h (Nat.mul_lt_mul_of_pos_right hhigh (Nat.two_pow_pos e))
    have := (Nat.pow_lt_pow_iff_right Nat.one_lt_two).1 hlt
    omega
  · intro h
    calc 2 ^ k ≤ 2 ^ (52 + e) := Nat.pow_le_pow_right Nat.two_pos h
      _ = 2 ^ 52 * 2 ^ e := Nat.pow_add 2 52 e
      _ ≤ m * 2 ^ e := Nat.mul_le_mul_right _ hlow

/-- A natural number is converted to what it is rounded to, if that is in the format, and else to an
    infinity. -/
theorem ofRatio_one (negative : Bool) (n : Nat) :
    (2 ^ 1024 ≤ roundNat n ∧ ofRatio negative n 1 = inf negative) ∨
      (roundNat n < 2 ^ 1024 ∧ ∃ m e, ofRatio negative n 1 = finite negative m e ∧
        m <<< e = roundNat n <<< unitBits) := by
  by_cases hn : n = 0
  · subst hn
    rw [roundNat_zero]
    exact .inr ⟨by decide +kernel, 0, 0, rfl, rfl⟩
  have hunits : n <<< unitBits = n * 2 ^ unitBits := Nat.shiftLeft_eq n unitBits
  have hpos : n * 2 ^ unitBits ≠ 0 := Nat.mul_ne_zero hn (Nat.ne_of_gt (Nat.two_pow_pos _))
  -- In units every number but zero is long enough for a full significand.
  have hlog : (n * 2 ^ unitBits).log2 = 52 + excessBits (n * 2 ^ unitBits) := by
    rw [excessBits, log2_mul_two_pow hn, unitBits, significandBits]
    omega
  obtain ⟨m, e, hlow, hhigh, hvalue, hcarry⟩ := roundNat_significand hlog
  have hscale (k : Nat) : 2 ^ k ≤ roundNat n ↔ k + unitBits ≤ 52 + e := by
    rw [← two_pow_le_mul_iff hlow hhigh, hvalue, roundNat_mul_two_pow, Nat.pow_add]
    exact (Nat.mul_le_mul_right_iff (Nat.two_pow_pos unitBits)).symm
  have hlimit : 2 ^ 1024 ≤ roundNat n ↔ maxExponent < e := by
    rw [hscale, unitBits, maxExponent]
    omega
  have hratio : ofRatio negative n 1 =
      if maxExponent < e then inf negative else finite negative m e := by
    rw [excessBits] at hcarry
    rw [ofRatio]
    simp only [Nat.div_one, hunits, if_neg hpos, Nat.one_shiftLeft, hcarry]
  by_cases hlarge : 2 ^ 1024 ≤ roundNat n
  · rw [hratio, if_pos (hlimit.1 hlarge)]
    exact .inl ⟨hlarge, rfl⟩
  · refine .inr ⟨Nat.lt_of_not_le hlarge, m, e, ?_, ?_⟩
    · rw [hratio, if_neg (mt hlimit.2 hlarge)]
    · rw [Nat.shiftLeft_eq, Nat.shiftLeft_eq, hvalue, roundNat_mul_two_pow]

theorem two_pow_le_roundNat_iff {n : Nat} : 2 ^ 1024 ≤ roundNat n ↔ overflowBound ≤ n := by
  constructor
  · intro h
    by_contra hlt
    have hbelow : roundNat (overflowBound - 1) < 2 ^ 1024 := by decide +kernel
    have hmono := roundNat_mono (Nat.le_sub_one_of_lt (Nat.lt_of_not_le hlt))
    exact Nat.not_lt.2 h (Nat.lt_of_le_of_lt hmono hbelow)
  · intro h
    have hat : roundNat overflowBound = 2 ^ 1024 := by decide +kernel
    exact hat ▸ roundNat_mono h

/-- Of the integers only those from the bound on have no number of the format. -/
theorem ofInt?_eq_none_iff {n : Int} : ofInt? n = none ↔ overflowBound ≤ n.natAbs := by
  rw [← two_pow_le_roundNat_iff, ofInt?]
  rcases ofRatio_one (n < 0) n.natAbs with ⟨hle, hinf⟩ | ⟨hlt, m, e, hfinite, -⟩
  · rw [hinf]
    exact iff_of_true rfl hle
  · rw [hfinite]
    exact iff_of_false nofun (Nat.not_le.2 hlt)

/-- An integer becomes what it is rounded to. -/
theorem point?_of_ofInt? {n : Int} {x : Binary64} (h : ofInt? n = some x) :
    x.point? = some (.at (unitsOfInt (roundInt n))) := by
  rw [ofInt?] at h
  rcases ofRatio_one (n < 0) n.natAbs with ⟨hle, hinf⟩ | ⟨hlt, m, e, hfinite, hvalue⟩
  · rw [hinf] at h
    cases h
  · rw [hfinite] at h
    cases h
    rw [point?, unitsOf, unitsOfInt, roundInt, hvalue, Nat.shiftLeft_eq, Nat.one_shiftLeft,
      Int.natCast_mul]
    simp only [decide_eq_true_eq]
    split_ifs
    · rw [Int.neg_mul]
    · rfl

end Stencil.Binary64
