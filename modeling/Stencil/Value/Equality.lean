import Stencil.Value.Basic

/-!
# Equality of values

Numbers are equal if they have the same exact value, a truth value counting as 0 or 1. Sequences
are compared in order, sets and mappings without regard to it. Two containers are equal if their
elements are the same, and a number that is none is the same as itself although it is not equal
to itself: `same` is the relation between elements, `equal` the one between values.

* `same` decides both inclusions of sets and mappings, so that neither side is distinguished;
* `get?`: entries are found by the key that is the same.
-/

namespace Stencil

namespace Value

/-- The place of a number on the extended line. -/
def point? : Value → Option Binary64.Point
  | bool b => some (.at (Binary64.unitsOfInt (if b then 1 else 0)))
  | int n => some (.at (Binary64.unitsOfInt n))
  | float x => x.point?
  | _ => none

/-- Whether two values are the same number, or the same no-number. -/
def sameNumber (a b : Value) : Bool :=
  match a, b with
  | float (.nan p), float (.nan q) => p == q
  | _, _ =>
    match a.point?, b.point? with
    | some p, some q => p.compare q == .eq
    | _, _ => false

mutual

/-- Whether two values are the same element of a container. -/
def same : Value → Value → Bool
  | null, null => true
  | bool a, b => sameNumber (bool a) b
  | int a, b => sameNumber (int a) b
  | float a, b => sameNumber (float a) b
  | str a, str b => a == b
  | list as, list bs => sameItems as bs
  | tuple as, tuple bs => sameItems as bs
  -- sets of both kinds are compared with each other
  | set as, set bs => within as bs && bs.all (hasItem as)
  | set as, frozenset bs => within as bs && bs.all (hasItem as)
  | frozenset as, set bs => within as bs && bs.all (hasItem as)
  | frozenset as, frozenset bs => within as bs && bs.all (hasItem as)
  | map as, map bs => entriesWithin as bs && bs.all fun (k, v) => hasEntry as k v
  | bytes a, bytes b => a == b
  | fn a, fn b => a == b
  | day a, day b => a == b
  | moment a, moment b => a.same b
  | _, _ => false
termination_by structural a => a

/-- Whether two sequences have the same elements in the same order. -/
def sameItems : List Value → List Value → Bool
  | [], [] => true
  | a :: as, b :: bs => same a b && sameItems as bs
  | _, _ => false
termination_by structural as => as

/-- Whether every element of the first set is one of the second. -/
def within : List Value → List Value → Bool
  | [], _ => true
  | a :: as, bs => bs.any (same a ·) && within as bs
termination_by structural as => as

/-- Whether a value is the same as one of the elements. -/
def hasItem : List Value → Value → Bool
  | [], _ => false
  | a :: as, b => same a b || hasItem as b
termination_by structural as => as

/-- Whether every entry of the first mapping is one of the second. -/
def entriesWithin : List (Value × Value) → List (Value × Value) → Bool
  | [], _ => true
  | (k, v) :: as, bs => (bs.any fun (l, w) => same k l && same v w) && entriesWithin as bs
termination_by structural as => as

/-- Whether there is an entry with the same key and the same value. -/
def hasEntry : List (Value × Value) → Value → Value → Bool
  | [], _, _ => false
  | (k, v) :: as, l, w => (same k l && same v w) || hasEntry as l w
termination_by structural as => as

end

/-- Whether two values are equal. No-numbers never are. -/
def equal (a b : Value) : Bool :=
  match a with
  | float (.nan _) => false
  | _ => same a b

/-- A value may be a key of a mapping or an element of a set if it cannot change. -/
def canBeKey : Value → Bool
  | list _ => false
  | set _ => false
  | map _ => false
  | _ => true

end Value

namespace Context

/-- The entries with a key bound to a value: a key that is the same keeps its place. -/
def insert : Context → (key value : Value) → Context
  | [], key, value => [(key, value)]
  | (k, v) :: rest, key, value =>
    if k.same key then (k, value) :: rest else (k, v) :: insert rest key value

/-- The mapping made of pairs in order: the first of the keys that are the same, and the last
    value. -/
def ofPairs (pairs : List (Value × Value)) : Context :=
  pairs.foldl (fun entries (k, v) => insert entries k v) []

end Context

/-- The elements in order without those that are the same as an earlier one. -/
def Value.distinct (items : List Value) : List Value :=
  items.foldl (fun kept x => if Value.hasItem kept x then kept else kept ++ [x]) []

end Stencil
