import Mathlib.Data.List.Infix
import Stencil.Proofs.Condition.Row

/-!
# Where a condition is cut

A condition is cut at its combinators, from left to right. A run of marks may be cut in several ways:
in `&&&` a combinator starts at the first and at the second mark. Of all ways to write a condition as
pieces with combinators between them, the cut is the one in which no piece holds a combinator, and none
ends with the mark of the combinator behind it (`pieces_eq_iff`). So nothing is lost by the cut, but
for the blanks around pieces, and every combinator is found (`split_joined`).
-/

namespace Stencil.Condition

open Text

/-- The character that a combinator is written with, twice. -/
def combinatorMark : Combinator → Char
  | .and => '&'
  | .or => '|'

/-- No combinator occurs in a text. -/
def IsWhole (s : List Char) : Prop := ∀ combinator, ¬combinatorText combinator <:+: s

instance (s : List Char) : Decidable (IsWhole s) :=
  decidable_of_iff (¬combinatorText .and <:+: s ∧ ¬combinatorText .or <:+: s)
    ⟨fun h combinator => combinator.casesOn h.1 h.2, fun h => ⟨h .and, h .or⟩⟩

/-- A piece, and others behind it with combinators before them. -/
def joined (first : List Char) (rest : List (Combinator × List Char)) : List Char :=
  first ++ rest.flatMap fun (combinator, piece) => combinatorText combinator ++ piece

/-- The pieces in a row, from left to right. -/
def allPieces (first : List Char) (rest : List (Combinator × List Char)) : List (List Char) :=
  first :: rest.map Prod.snd

/-- Pieces stand apart: there is no combinator in them, nor does one start at their end. -/
def StandApart : (first : List Char) → (rest : List (Combinator × List Char)) → Prop
  | first, [] => IsWhole first
  | first, (combinator, next) :: rest =>
    IsWhole first ∧ first.getLast? ≠ some (combinatorMark combinator) ∧ StandApart next rest

/-- The segments of a condition, from left to right. -/
def segments (s : List Char) : List (List Char) := (split s).1 :: (split s).2.map Prod.snd

/-- The combinators between the segments of a condition. -/
def combinators (s : List Char) : List Combinator := (split s).2.map Prod.fst

variable {s t first : List Char} {rest : List (Combinator × List Char)} {combinator : Combinator}

/-! ### Texts without combinators -/

theorem combinatorText_eq (combinator : Combinator) :
    combinatorText combinator = [combinatorMark combinator, combinatorMark combinator] := by
  cases combinator <;> rfl

theorem IsWhole.of_isInfix (h : IsWhole s) (hts : t <:+: s) : IsWhole t :=
  fun combinator ht => h combinator (ht.trans hts)

theorem isWhole_of_length_lt (h : s.length < 2) : IsWhole s := by
  intro combinator hinfix
  rw [combinatorText_eq] at hinfix
  exact absurd hinfix.length_le (Nat.not_le.2 h)

theorem isWhole_cons_iff {c : Char} :
    IsWhole (c :: s) ↔ IsWhole s ∧ ∀ combinator, ¬combinatorText combinator <+: c :: s := by
  simp only [IsWhole, List.infix_cons_iff, not_or, forall_and]
  exact and_comm

/-- Two characters in front are a combinator exactly if both are its mark. -/
theorem combinatorText_isPrefix_iff {c d : Char} :
    combinatorText combinator <+: c :: d :: s ↔
      c = combinatorMark combinator ∧ d = combinatorMark combinator := by
  rw [combinatorText_eq, List.cons_prefix_cons, List.cons_prefix_cons]
  simp [eq_comm]

/-! ### A character in front -/

theorem joined_nil (first : List Char) : joined first [] = first := List.append_nil first

theorem joined_cons (first piece : List Char) (rest : List (Combinator × List Char)) :
    joined first ((combinator, piece) :: rest) =
      first ++ (combinatorText combinator ++ joined piece rest) := by
  simp [joined]

/-- A character that does not start a combinator goes to the piece in front. -/
theorem pieces_cons_of_not_isPrefix {c : Char}
    (h : ∀ combinator, ¬combinatorText combinator <+: c :: s) :
    pieces (c :: s) = (c :: (pieces s).1, (pieces s).2) := by
  cases s with
  | nil => rfl
  | cons d s =>
    have hand : ¬(c = '&' ∧ d = '&') := fun hcd => h .and (combinatorText_isPrefix_iff.2 hcd)
    have hor : ¬(c = '|' ∧ d = '|') := fun hcd => h .or (combinatorText_isPrefix_iff.2 hcd)
    rw [pieces, if_neg hand, if_neg hor]

/-- Pieces stand apart with a character in front of the first one if this does not start a combinator
    in the text that they are joined to. -/
theorem standApart_cons_iff {c : Char} :
    StandApart (c :: first) rest ↔
      StandApart first rest ∧ ∀ combinator, ¬combinatorText combinator <+: c :: joined first rest := by
  rcases rest with _ | ⟨⟨combinator, next⟩, rest⟩
  · rw [joined_nil]
    exact isWhole_cons_iff
  · rw [joined_cons]
    rcases first with _ | ⟨d, first⟩
    · -- The character is next to the combinator behind the piece, and must not be its mark.
      rw [List.nil_append, combinatorText_eq combinator]
      constructor
      · rintro ⟨-, hlast, hnext⟩
        refine ⟨⟨isWhole_of_length_lt Nat.zero_lt_two, nofun, hnext⟩, fun other hother => ?_⟩
        obtain ⟨hc, hd⟩ := combinatorText_isPrefix_iff.1 hother
        exact hlast (congrArg some (hc.trans hd.symm))
      · rintro ⟨⟨-, -, hnext⟩, hc⟩
        refine ⟨isWhole_of_length_lt Nat.one_lt_two, fun hlast => ?_, hnext⟩
        exact hc combinator (combinatorText_isPrefix_iff.2 ⟨Option.some.inj hlast, rfl⟩)
    · -- Whether a combinator starts with the character is decided in the piece.
      simp only [StandApart, isWhole_cons_iff (s := d :: first), List.getLast?_cons_cons,
        List.cons_append, combinatorText_isPrefix_iff]
      exact and_right_comm

/-! ### The pieces that are found -/

theorem pieces_joined_cons {c : Char} (h : StandApart (c :: first) rest) :
    pieces (joined (c :: first) rest) =
      (c :: (pieces (joined first rest)).1, (pieces (joined first rest)).2) :=
  pieces_cons_of_not_isPrefix (standApart_cons_iff.1 h).2

/-- Pieces that stand apart are found in the text that they are joined to. -/
theorem pieces_joined (h : StandApart first rest) : pieces (joined first rest) = (first, rest) := by
  induction rest generalizing first with
  | nil =>
    induction first with
    | nil => rfl
    | cons c first ih => rw [pieces_joined_cons h, ih (standApart_cons_iff.1 h).1]
  | cons entry rest ihrest =>
    obtain ⟨combinator, next⟩ := entry
    induction first with
    | nil => rw [joined_cons, List.nil_append, pieces_combinatorText, ihrest h.2.2]
    | cons c first ih => rw [pieces_joined_cons h, ih (standApart_cons_iff.1 h).1]

theorem joined_pieces (s : List Char) : joined (pieces s).1 (pieces s).2 = s := by
  fun_induction pieces s with
  | case1 => rfl
  | case2 c => rfl
  | case3 c d s hcd piece rest heq ih =>
    obtain ⟨rfl, rfl⟩ := hcd
    rw [heq] at ih
    rw [joined_cons, ih]
    rfl
  | case4 c d s _ hcd piece rest heq ih =>
    obtain ⟨rfl, rfl⟩ := hcd
    rw [heq] at ih
    rw [joined_cons, ih]
    rfl
  | case5 c d s _ _ piece rest heq ih =>
    rw [heq] at ih
    exact congrArg (c :: ·) ih

theorem standApart_pieces (s : List Char) : StandApart (pieces s).1 (pieces s).2 := by
  fun_induction pieces s with
  | case1 => exact isWhole_of_length_lt Nat.zero_lt_two
  | case2 c => exact isWhole_of_length_lt Nat.one_lt_two
  | case3 c d s hcd piece rest heq ih =>
    rw [heq] at ih
    exact ⟨isWhole_of_length_lt Nat.zero_lt_two, nofun, ih⟩
  | case4 c d s _ hcd piece rest heq ih =>
    rw [heq] at ih
    exact ⟨isWhole_of_length_lt Nat.zero_lt_two, nofun, ih⟩
  | case5 c d s hand hor piece rest heq ih =>
    have hjoined := joined_pieces (d :: s)
    rw [heq] at ih hjoined
    refine standApart_cons_iff.2 ⟨ih, fun combinator hc => ?_⟩
    rw [hjoined, combinatorText_isPrefix_iff] at hc
    cases combinator with
    | and => exact hand hc
    | or => exact hor hc

/-- The pieces of a text are the only ones that it can be joined from and that stand apart. -/
theorem pieces_eq_iff : pieces s = (first, rest) ↔ joined first rest = s ∧ StandApart first rest := by
  constructor
  · intro h
    have hjoined := joined_pieces s
    have happart := standApart_pieces s
    rw [h] at hjoined happart
    exact ⟨hjoined, happart⟩
  · rintro ⟨rfl, happart⟩
    exact pieces_joined happart

/-! ### The cut -/

theorem segments_eq (s : List Char) :
    segments s = (allPieces (pieces s).1 (pieces s).2).map trim := by
  simp [segments, split, allPieces]

theorem combinators_eq (s : List Char) : combinators s = (pieces s).2.map Prod.fst := by
  simp [combinators, split]

theorem isWhole_of_mem (h : StandApart first rest) : ∀ piece ∈ allPieces first rest, IsWhole piece := by
  induction rest generalizing first with
  | nil => exact List.forall_mem_singleton.2 h
  | cons entry rest ih => exact List.forall_mem_cons.2 ⟨h.1, ih h.2.2⟩

/-- Pieces stand apart if none but the last one ends with a character of combinators. -/
theorem standApart_of_forall (hwhole : ∀ piece ∈ allPieces first rest, IsWhole piece)
    (hlast : ∀ piece ∈ (allPieces first rest).dropLast, ∀ c ∈ piece.getLast?, c ∉ ['&', '|']) :
    StandApart first rest := by
  induction rest generalizing first with
  | nil => exact hwhole first List.mem_cons_self
  | cons entry rest ih =>
    obtain ⟨combinator, next⟩ := entry
    obtain ⟨hfirst, hwhole⟩ := List.forall_mem_cons.1 hwhole
    obtain ⟨hend, hlast⟩ := List.forall_mem_cons.1 hlast
    refine ⟨hfirst, fun hmark => hend _ hmark ?_, ih hwhole hlast⟩
    cases combinator <;> decide

/-- A condition is cut into segments with one combinator fewer between them. No combinator is in a
    segment, and the segments are trimmed from pieces that the condition can be joined from. The other
    way round, pieces that hold no combinator are what the text joined from them is cut into, if none
    before the last one ends with a character of combinators. -/
theorem split_joined :
    (∀ s, (segments s).length = (combinators s).length + 1 ∧
      (∀ segment ∈ segments s, IsWhole segment) ∧
      ∃ first rest, joined first rest = s ∧ segments s = (allPieces first rest).map trim ∧
        combinators s = rest.map Prod.fst) ∧
    ∀ first rest, (∀ piece ∈ allPieces first rest, IsWhole piece) →
      (∀ piece ∈ (allPieces first rest).dropLast, ∀ c ∈ piece.getLast?, c ∉ ['&', '|']) →
      segments (joined first rest) = (allPieces first rest).map trim ∧
        combinators (joined first rest) = rest.map Prod.fst := by
  constructor
  · intro s
    obtain ⟨hjoined, happart⟩ := pieces_eq_iff.1 (Eq.refl (pieces s))
    have hwhole := isWhole_of_mem happart
    refine ⟨by simp [segments, combinators], ?_, _, _, hjoined, segments_eq s, combinators_eq s⟩
    rw [segments_eq, List.forall_mem_map]
    exact fun piece hpiece => (hwhole piece hpiece).of_isInfix (isInfix_trim piece)
  · intro first rest hwhole hlast
    rw [segments_eq, combinators_eq, pieces_eq_iff.2 ⟨rfl, standApart_of_forall hwhole hlast⟩]
    exact ⟨rfl, rfl⟩

/-- Marks behind a combinator, and at the end of the last piece, belong to pieces. -/
theorem split_joined_marks :
    segments "a &&&b|| |&".toList = ["a".toList, "&b".toList, "|&".toList] ∧
      combinators "a &&&b|| |&".toList = [.and, .or] :=
  split_joined.2 "a ".toList [(.and, "&b".toList), (.or, " |&".toList)] (by decide)
    (by simp [allPieces])

end Stencil.Condition
