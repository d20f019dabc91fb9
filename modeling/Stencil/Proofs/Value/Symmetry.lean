import Stencil.Proofs.Failing

/-!
# The sides of a comparison

It does not matter on which side of a comparison a value stands. Both equalities are symmetric and every
order comparison has a dual one with the sides exchanged: they give the same result or fail alike, for
values of all kinds and at every depth of containers (`comparisons_symmetric`).

For equality this is an induction on the first value. Sets and mappings are compared by inclusion in both
directions, so exchanging the sides exchanges the two inclusions. For loose equality, which treats the
sides in turn, it is enough that texts and truth values always have a number: only an integer can have
none, and then both ways fail for it.

* `same_comm`, `equal_comm`: elements of containers and values;
* `looseEquals_comm`: loose equality, kind by kind;
* `compare_dual`: order comparisons.
-/

namespace Stencil

namespace Binary64

theorem Point.compare_swap (p q : Point) : (p.compare q).swap = q.compare p := by
  cases p with
  | «at» a =>
    cases q with
    | «at» b => exact (Std.OrientedOrd.eq_swap : Ord.compare b a = (Ord.compare a b).swap).symm
    | _ => rfl
  | _ => cases q <;> rfl

theorem compare?_swap (x y : Binary64) : (x.compare? y).map Ordering.swap = y.compare? x := by
  rw [compare?, compare?]
  cases x.point? with
  | none => cases y.point? <;> rfl
  | some p =>
    cases y.point? with
    | none => rfl
    | some q => exact congrArg some (Point.compare_swap p q)

end Binary64

/-- The order comparison that holds with the sides exchanged. -/
def Order.dual : Order → Order
  | above => below
  | below => above
  | atLeast => atMost
  | atMost => atLeast

theorem Order.holds_dual (o : Order) (ordering : Ordering) :
    o.dual.holds ordering.swap = o.holds ordering := by
  cases o <;> cases ordering <;> rfl

namespace Value

/-! ### Elements of containers -/

/-- Two values are the same number if both are the same no-number or have the same place. -/
theorem sameNumber_iff {a b : Value} :
    sameNumber a b = true ↔
      (∃ payload, a = float (.nan payload) ∧ b = float (.nan payload)) ∨
        ∃ p q, a.point? = some p ∧ b.point? = some q ∧ p.compare q = .eq := by
  rw [sameNumber.eq_def]
  split
  next p q =>
    constructor
    · intro h
      exact .inl ⟨p, rfl, by rw [beq_iff_eq.1 h]⟩
    · rintro (⟨payload, hp, hq⟩ | ⟨_, _, hp, -⟩)
      · cases hp
        cases hq
        exact beq_self_eq_true p
      · cases hp
  next hnan =>
    have hnone : ¬∃ payload, a = float (.nan payload) ∧ b = float (.nan payload) :=
      fun ⟨payload, ha, hb⟩ => hnan payload payload ha hb
    cases a.point? <;> cases b.point? <;> simp [hnone]

theorem sameNumber_comm (a b : Value) : sameNumber a b = sameNumber b a := by
  have hswap : ∀ {a b : Value}, sameNumber a b = true → sameNumber b a = true := by
    intro a b h
    rw [sameNumber_iff] at h ⊢
    rcases h with ⟨payload, ha, hb⟩ | ⟨p, q, ha, hb, hpq⟩
    · exact .inl ⟨payload, hb, ha⟩
    · exact .inr ⟨q, p, hb, ha, by rw [← Binary64.Point.compare_swap, hpq]; rfl⟩
  exact Bool.eq_iff_iff.2 ⟨hswap, hswap⟩

/-- Two sets are the same if each element of one of them is an element of the other. -/
theorem same_set_iff {as bs : List Value} :
    (within as bs && bs.all (hasItem as)) = true ↔
      (∀ a ∈ as, ∃ b ∈ bs, same a b = true) ∧ ∀ b ∈ bs, ∃ a ∈ as, same a b = true := by
  have hwithin : within as bs = true ↔ ∀ a ∈ as, ∃ b ∈ bs, same a b = true := by
    induction as with
    | nil => simp [within]
    | cons a as ih => simp [within, ih]
  have hitem : ∀ b, hasItem as b = true ↔ ∃ a ∈ as, same a b = true := by
    intro b
    clear hwithin
    induction as with
    | nil => simp [hasItem]
    | cons a as ih => simp [hasItem, ih]
  simp only [Bool.and_eq_true, List.all_eq_true, hwithin, hitem]

/-- Two mappings are the same if each entry of one of them is an entry of the other. -/
theorem same_map_iff {as bs : List (Value × Value)} :
    (entriesWithin as bs && bs.all fun (k, v) => hasEntry as k v) = true ↔
      (∀ a ∈ as, ∃ b ∈ bs, same a.1 b.1 = true ∧ same a.2 b.2 = true) ∧
        ∀ b ∈ bs, ∃ a ∈ as, same a.1 b.1 = true ∧ same a.2 b.2 = true := by
  have hwithin : entriesWithin as bs = true ↔
      ∀ a ∈ as, ∃ b ∈ bs, same a.1 b.1 = true ∧ same a.2 b.2 = true := by
    induction as with
    | nil => simp [entriesWithin]
    | cons a as ih => simp [entriesWithin, ih]
  have hentry : ∀ k v, hasEntry as k v = true ↔ ∃ a ∈ as, same a.1 k = true ∧ same a.2 v = true := by
    intro k v
    clear hwithin
    induction as with
    | nil => simp [hasEntry]
    | cons a as ih => simp [hasEntry, ih]
  simp only [Bool.and_eq_true, List.all_eq_true, hwithin, hentry]

section

variable {as : List Value} (h : ∀ a ∈ as, ∀ b, same a b = same b a)

include h

theorem sameItems_comm (bs : List Value) : sameItems as bs = sameItems bs as := by
  induction as generalizing bs with
  | nil => cases bs <;> rfl
  | cons a as ih =>
    rw [List.forall_mem_cons] at h
    cases bs with
    | nil => rfl
    | cons b bs => rw [sameItems, sameItems, h.1 b, ih h.2]

/-- Exchanging two sets exchanges the two inclusions. -/
theorem same_set_comm (bs : List Value) :
    (within as bs && bs.all (hasItem as)) = (within bs as && as.all (hasItem bs)) := by
  rw [Bool.eq_iff_iff, same_set_iff, same_set_iff, and_comm]
  have hswap : ∀ a ∈ as, ∀ b, same a b = true ↔ same b a = true := fun a ha b => by rw [h a ha b]
  refine and_congr (forall₂_congr fun b _ => exists_congr fun a => ?_)
    (forall₂_congr fun a ha => exists_congr fun b => ?_)
  · exact and_congr_right fun ha => hswap a ha b
  · exact and_congr_right fun _ => hswap a ha b

end

/-- Exchanging two mappings exchanges the two inclusions. -/
theorem same_map_comm {as : List (Value × Value)}
    (h : ∀ a ∈ as, (∀ b, same a.1 b = same b a.1) ∧ ∀ b, same a.2 b = same b a.2)
    (bs : List (Value × Value)) :
    (entriesWithin as bs && bs.all fun (k, v) => hasEntry as k v) =
      (entriesWithin bs as && as.all fun (k, v) => hasEntry bs k v) := by
  rw [Bool.eq_iff_iff, same_map_iff, same_map_iff, and_comm]
  have hswap : ∀ a ∈ as, ∀ b : Value × Value, same a.1 b.1 = true ∧ same a.2 b.2 = true ↔
      same b.1 a.1 = true ∧ same b.2 a.2 = true := fun a ha b => by rw [(h a ha).1, (h a ha).2]
  refine and_congr (forall₂_congr fun b _ => exists_congr fun a => ?_)
    (forall₂_congr fun a ha => exists_congr fun b => ?_)
  · exact and_congr_right fun ha => hswap a ha b
  · exact and_congr_right fun _ => hswap a ha b

/-- A value is compared as a number. -/
def IsNumeric (v : Value) : Prop := v.kind = .bool ∨ v.kind = .number

/-- A number is the same as the same number only, on either side. -/
theorem IsNumeric.same_eq {a : Value} (h : a.IsNumeric) (b : Value) :
    same a b = sameNumber a b ∧ same b a = sameNumber b a := by
  cases a with
  | bool x => cases b <;> exact ⟨rfl, rfl⟩
  | int n => cases b <;> exact ⟨rfl, rfl⟩
  | float x => cases x <;> cases b <;> exact ⟨rfl, rfl⟩
  | _ => rcases h with h | h <;> cases h

theorem IsNumeric.same_comm {a : Value} (h : a.IsNumeric) (b : Value) : same a b = same b a := by
  rw [(h.same_eq b).1, (h.same_eq b).2, sameNumber_comm]

mutual

/-- It does not matter which of two elements comes first. -/
theorem same_comm (a b : Value) : same a b = same b a := by
  by_cases hb : b.IsNumeric
  · exact (hb.same_comm a).symm
  cases a with
  | bool x => exact IsNumeric.same_comm (.inl rfl) b
  | int n => exact IsNumeric.same_comm (.inr rfl) b
  | float x => exact IsNumeric.same_comm (.inr rfl) b
  | list as =>
    cases b with
    | list bs => exact sameItems_comm (same_comm_of_mem as) bs
    | float x => exact absurd (.inr rfl) hb
    | _ => rfl
  | tuple as =>
    cases b with
    | tuple bs => exact sameItems_comm (same_comm_of_mem as) bs
    | float x => exact absurd (.inr rfl) hb
    | _ => rfl
  | set as =>
    cases b with
    | set bs => exact same_set_comm (same_comm_of_mem as) bs
    | frozenset bs => exact same_set_comm (same_comm_of_mem as) bs
    | float x => exact absurd (.inr rfl) hb
    | _ => rfl
  | frozenset as =>
    cases b with
    | set bs => exact same_set_comm (same_comm_of_mem as) bs
    | frozenset bs => exact same_set_comm (same_comm_of_mem as) bs
    | float x => exact absurd (.inr rfl) hb
    | _ => rfl
  | map as =>
    cases b with
    | map bs => exact same_map_comm (same_comm_of_mem_entries as) bs
    | float x => exact absurd (.inr rfl) hb
    | _ => rfl
  | moment m =>
    cases b with
    | moment n => exact Moment.same_comm m n
    | float x => exact absurd (.inr rfl) hb
    | _ => rfl
  | _ =>
    cases b with
    | float x => exact absurd (.inr rfl) hb
    | _ => first | rfl | exact Bool.beq_comm

theorem same_comm_of_mem (as : List Value) : ∀ a ∈ as, ∀ b, same a b = same b a := by
  cases as with
  | nil => exact nofun
  | cons v vs => exact List.forall_mem_cons.2 ⟨same_comm v, same_comm_of_mem vs⟩

theorem same_comm_of_mem_entries (as : List (Value × Value)) :
    ∀ a ∈ as, (∀ b, same a.1 b = same b a.1) ∧ ∀ b, same a.2 b = same b a.2 := by
  cases as with
  | nil => exact nofun
  | cons entry rest =>
    obtain ⟨k, v⟩ := entry
    exact List.forall_mem_cons.2 ⟨⟨same_comm k, same_comm v⟩, same_comm_of_mem_entries rest⟩

end

/-! ### Equality -/

/-- What is no number is the same as itself only. -/
theorem same_nan_eq_false {payload : Nat} {b : Value} (h : ∀ p, b ≠ float (.nan p)) :
    same (float (.nan payload)) b = false := by
  rw [(IsNumeric.same_eq (.inr rfl) b).1, ← Bool.not_eq_true, sameNumber_iff]
  rintro (⟨p, -, hb⟩ | ⟨p, q, hp, -⟩)
  · exact h p hb
  · cases hp

theorem equal_nan (a : Value) (payload : Nat) : equal a (float (.nan payload)) = false := by
  by_cases ha : ∃ p, a = float (.nan p)
  · obtain ⟨p, rfl⟩ := ha
    rfl
  · rw [not_exists] at ha
    rw [equal.eq_2 a _ ha, same_comm, same_nan_eq_false ha]

theorem equal_comm (a b : Value) : equal a b = equal b a := by
  by_cases ha : ∃ p, a = float (.nan p)
  · obtain ⟨p, rfl⟩ := ha
    exact (equal_nan b p).symm
  by_cases hb : ∃ p, b = float (.nan p)
  · obtain ⟨p, rfl⟩ := hb
    exact equal_nan a p
  · rw [not_exists] at ha hb
    rw [equal.eq_2 a b ha, equal.eq_2 b a hb, same_comm]

theorem strictEquals_comm (a b : Value) : strictEquals a b = strictEquals b a := by
  rw [strictEquals, strictEquals, equal_comm]
  simp only [eq_comm]

/-- A text has a number, if only that which is none. -/
theorem exists_toNumber_of_text {v : Value} (h : v.kind = .text) : ∃ x, v.toNumber = .ok x := by
  cases v with
  | str s => exact ⟨_, rfl⟩
  | _ => cases h

/-- Where no text stands beside a number, loose equality of plain values is the strict one. -/
theorem looseEqualsPlain_eq_strictEquals {a b : Value} (h : ¬(a.kind = .number ∧ b.kind = .text))
    (h' : ¬(a.kind = .text ∧ b.kind = .number)) :
    looseEqualsPlain a b = .ok (strictEquals a b) := by
  rw [looseEqualsPlain.eq_def]
  split
  next ha hb => exact absurd ⟨ha, hb⟩ h
  next ha hb => exact absurd ⟨ha, hb⟩ h'
  next => rfl

/-- Exchanging the sides exchanges the two conversions, of which one cannot fail. -/
theorem looseEqualsPlain_comm (a b : Value) : looseEqualsPlain a b = looseEqualsPlain b a := by
  have hnumbers : ∀ {a b : Value}, a.kind = .number → b.kind = .text →
      looseEqualsPlain a b = looseEqualsPlain b a := by
    intro a b ha hb
    obtain ⟨y, hy⟩ := exists_toNumber_of_text hb
    rw [looseEqualsPlain.eq_def, looseEqualsPlain.eq_def, ha, hb, hy]
    cases a.toNumber with
    | error fault => rfl
    | ok x => exact congrArg Except.ok (equal_comm (float x) (float y))
  by_cases h : a.kind = .number ∧ b.kind = .text
  · exact hnumbers h.1 h.2
  by_cases h' : a.kind = .text ∧ b.kind = .number
  · exact (hnumbers h'.2 h'.1).symm
  rw [looseEqualsPlain_eq_strictEquals h h', looseEqualsPlain_eq_strictEquals (fun h => h' h.symm)
    fun h' => h h'.symm, strictEquals_comm]

/-- A truth value has a number. -/
theorem exists_toNumber_of_bool {v : Value} (h : v.kind = .bool) : ∃ x, v.toNumber = .ok x := by
  cases v with
  | bool b => exact ⟨_, rfl⟩
  | _ => cases h

theorem looseEquals_comm (a b : Value) : looseEquals a b = looseEquals b a := by
  rw [looseEquals, looseEquals]
  by_cases hkind : a.kind = b.kind
  · rw [if_pos hkind, if_pos hkind.symm, equal_comm]
  rw [if_neg hkind, if_neg (Ne.symm hkind)]
  cases ha : a.kind with
  | null => cases b.kind <;> rfl
  | bool =>
    obtain ⟨x, hx⟩ := exists_toNumber_of_bool ha
    cases hb : b.kind with
    | null => rfl
    | bool => exact absurd (ha.trans hb.symm) hkind
    | _ =>
      simp only [hx]
      exact looseEqualsPlain_comm (float x) b
  | _ =>
    cases hb : b.kind with
    | null => rfl
    | bool =>
      obtain ⟨y, hy⟩ := exists_toNumber_of_bool hb
      simp only [hy]
      exact looseEqualsPlain_comm a (float y)
    | _ => exact looseEqualsPlain_comm a b

/-- Strict equality is loose equality within a kind. -/
theorem looseEquals_of_strictEquals {a b : Value} (h : strictEquals a b = true) :
    looseEquals a b = .ok true := by
  by_cases hkind : a.kind = b.kind
  · rw [strictEquals, if_pos hkind] at h
    rw [looseEquals, if_pos hkind, h]
  · rw [strictEquals, if_neg hkind] at h
    cases h

/-! ### Order -/

theorem orderTexts_swap (s t : List Char) : (orderTexts s t).swap = orderTexts t s := by
  induction s generalizing t with
  | nil => cases t <;> rfl
  | cons c s ih =>
    cases t with
    | nil => rfl
    | cons d t =>
      rw [orderTexts, orderTexts]
      by_cases hlt : c.toNat < d.toNat
      · rw [if_pos hlt, if_neg (Nat.lt_asymm hlt), if_pos hlt]
        rfl
      · by_cases hgt : d.toNat < c.toNat
        · rw [if_neg hlt, if_pos hgt, if_pos hgt]
          rfl
        · rw [if_neg hlt, if_neg hgt, if_neg hgt, if_neg hlt, ih]

/-- Exchanging the sides turns the order around. If both sides have no number, both fail alike. -/
theorem order?_swap (a b : Value) : (order? a b).map (Option.map Ordering.swap) = order? b a := by
  by_cases h : ∃ s t, a = str s ∧ b = str t
  · obtain ⟨s, t, rfl, rfl⟩ := h
    exact congrArg (fun ordering => Except.ok (some ordering)) (orderTexts_swap s.toList t.toList)
  · rw [order?.eq_2 a b fun s t ha hb => h ⟨s, t, ha, hb⟩,
      order?.eq_2 b a fun s t hb ha => h ⟨t, s, ha, hb⟩]
    cases ha : a.toNumber with
    | error fault =>
      obtain rfl := failsIn_toNumber a fault ha
      cases hb : b.toNumber with
      | error fault =>
        obtain rfl := failsIn_toNumber b fault hb
        rfl
      | ok y => rfl
    | ok x =>
      cases b.toNumber with
      | error fault => rfl
      | ok y => exact congrArg Except.ok (Binary64.compare?_swap x y)

theorem compare_dual (o : Order) (a b : Value) : compare o.dual b a = compare o a b := by
  rw [compare, compare, ← order?_swap]
  cases order? a b with
  | error fault => rfl
  | ok ordering =>
    cases ordering with
    | none => rfl
    | some ordering => exact congrArg Except.ok (o.holds_dual ordering)

/-- An order comparison that has a result compares by an order, or is false because there is none. -/
theorem compare_of_below {a b : Value} (h : compare .below a b = .ok true) :
    compare .atMost a b = .ok true ∧ compare .above a b = .ok false := by
  rw [compare] at h ⊢
  rw [compare]
  cases horder : order? a b with
  | error fault =>
    rw [horder] at h
    cases h
  | ok ordering =>
    rw [horder] at h
    cases ordering with
    | none => cases h
    | some ordering =>
      cases ordering with
      | lt => exact ⟨rfl, rfl⟩
      | _ => cases h

/-! ### Comparisons -/

/-- Exchanging the sides of an equality changes nothing, and exchanging those of an order comparison turns
    it into its dual: the result is the same, or the failure. What is strictly equal is loosely equal, and
    what is below is at most and not above. -/
theorem comparisons_symmetric (a b : Value) :
    strictEquals a b = strictEquals b a ∧ looseEquals a b = looseEquals b a ∧
      (strictEquals a b = true → looseEquals a b = .ok true) ∧
      compare .below a b = compare .above b a ∧ compare .atMost a b = compare .atLeast b a ∧
      (compare .below a b = .ok true →
        compare .atMost a b = .ok true ∧ compare .below b a = .ok false) := by
  refine ⟨strictEquals_comm a b, looseEquals_comm a b, looseEquals_of_strictEquals,
    (compare_dual .below a b).symm, (compare_dual .atMost a b).symm, fun h => ?_⟩
  obtain ⟨hmost, habove⟩ := compare_of_below h
  exact ⟨hmost, (compare_dual .above a b).trans habove⟩

/-- A letter is equal to itself and below the next one. -/
theorem comparisons_symmetric_letters :
    (strictEquals (str "a") (str "a") = true ∧ looseEquals (str "a") (str "a") = .ok true) ∧
      compare .below (str "a") (str "b") = .ok true ∧ compare .atMost (str "a") (str "b") = .ok true ∧
        compare .below (str "b") (str "a") = .ok false := by
  obtain ⟨-, -, hloose, -⟩ := comparisons_symmetric (str "a") (str "a")
  obtain ⟨-, -, -, -, -, horder⟩ := comparisons_symmetric (str "a") (str "b")
  have hstrict : strictEquals (str "a") (str "a") = true := rfl
  have hbelow : compare .below (str "a") (str "b") = .ok true := rfl
  exact ⟨⟨hstrict, hloose hstrict⟩, hbelow, horder hbelow⟩

end Value

end Stencil
