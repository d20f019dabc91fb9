import Mathlib.Data.List.Basic
import Mathlib.Tactic.Common
import Stencil.OrderedMap

/-!
# First places and last values

A map in order of insertion is told by the sequence of pairs that were inserted into it: it has the
keys of the sequence in the order in which they first come, and each key has the value that comes
last with it (`OrderedMap.Records`). Maps that are put into one another layer by layer are told in the
same way by the sequences in a row, as if all pairs had been inserted one after the other.

* `Records.insert`, `Records.insertAll`: further pairs;
* `Records.merge`: all of another map, told by its own sequence;
* `mem_entries_iff`: the entries of a map are its keys with their values;
* `get?_mapValues`: a map with other values under its keys.
-/

namespace Stencil

/-! ### First occurrences -/

section

variable {α : Type} [BEq α] [LawfulBEq α]

/-- The first occurrences among the elements of a kind are the elements of that kind among the first
    occurrences. -/
theorem eraseDups_filter (p : α → Bool) : (as : List α) →
    (as.filter p).eraseDups = as.eraseDups.filter p
  | [] => by simp
  | a :: as => by
    have ih := eraseDups_filter p (as.filter fun b => !b == a)
    rw [List.eraseDups_cons, List.filter_cons, List.filter_cons]
    split_ifs with ha
    · rw [List.eraseDups_cons, List.filter_filter, ← ih, List.filter_filter]
      simp only [Bool.and_comm]
    · -- An element of the kind is another one than `a`, which is not of it.
      have hother : ∀ b ∈ as, (p b && !b == a) = p b := by
        intro b _
        cases hb : p b with
        | false => rfl
        | true =>
          have hne : b ≠ a := fun h => ha (h ▸ hb)
          simpa using hne
      rw [← ih, List.filter_filter, List.filter_congr hother]
termination_by as => as.length
decreasing_by exact Nat.lt_succ_of_le (List.length_filter_le _ _)

theorem nodup_eraseDups : (as : List α) → as.eraseDups.Nodup
  | [] => List.nodup_nil
  | a :: as => by
    rw [List.eraseDups_cons, List.nodup_cons]
    refine ⟨?_, nodup_eraseDups (as.filter fun b => !b == a)⟩
    simp
termination_by as => as.length
decreasing_by exact Nat.lt_succ_of_le (List.length_filter_le _ _)

theorem eraseDups_of_nodup {as : List α} (h : as.Nodup) : as.eraseDups = as := by
  induction as with
  | nil => rfl
  | cons a as ih =>
    obtain ⟨ha, has⟩ := List.nodup_cons.1 h
    have hother : as.filter (fun b => !b == a) = as := by
      rw [List.filter_eq_self]
      intro b hb
      have hne : b ≠ a := fun he => ha (he ▸ hb)
      simpa using hne
    rw [List.eraseDups_cons, hother, ih has]

/-- Behind other elements only the first occurrences count. -/
theorem eraseDups_append_eraseDups (as bs : List α) :
    (as ++ bs.eraseDups).eraseDups = (as ++ bs).eraseDups := by
  rw [List.eraseDups_append, List.eraseDups_append, List.removeAll, List.removeAll,
    eraseDups_filter, eraseDups_filter, eraseDups_of_nodup (nodup_eraseDups bs)]

end

namespace OrderedMap

variable {κ α : Type} [DecidableEq κ]

/-- A map is told by a sequence of pairs: its keys are those of the sequence in the order in which they
    first come, and each has the value that comes last with it. -/
structure Records (m : OrderedMap κ α) (pairs : List (κ × α)) : Prop where
  keys : m.keys = (pairs.map Prod.fst).eraseDups
  value : ∀ key, m.get? key = pairs.reverse.lookup key

theorem records_empty : Records (empty : OrderedMap κ α) [] where
  keys := rfl
  value := fun _ => rfl

theorem Records.insert {m : OrderedMap κ α} {pairs : List (κ × α)} (h : m.Records pairs) (key : κ)
    (value : α) : (m.insert key value).Records (pairs ++ [(key, value)]) where
  keys := by
    have hkeys : ((pairs ++ [(key, value)]).map Prod.fst).eraseDups =
        m.keys ++ ([key].filter fun k => !(pairs.map Prod.fst).elem k).eraseDups := by
      rw [List.map_append, List.eraseDups_append, h.keys]
      rfl
    have hmem : key ∈ m.keys ↔ key ∈ pairs.map Prod.fst := by rw [h.keys, List.mem_eraseDups]
    rw [keys_insert, hkeys]
    by_cases hkey : key ∈ pairs.map Prod.fst
    · rw [if_pos (hmem.2 hkey), List.filter_singleton, List.elem_eq_true_of_mem hkey]
      exact (List.append_nil _).symm
    · have hnew : (pairs.map Prod.fst).elem key = false := by simpa using hkey
      rw [if_neg fun hin => hkey (hmem.1 hin), List.filter_singleton, hnew]
      rfl
  value := fun other => by
    rw [List.reverse_append, List.reverse_singleton, List.singleton_append, List.lookup_cons,
      ← h.value]
    by_cases hother : other = key
    · rw [hother, get?_insert_self, beq_self_eq_true]
    · rw [get?_insert_of_ne m value hother, beq_false_of_ne hother]

theorem Records.insertAll {m : OrderedMap κ α} {pairs : List (κ × α)} (h : m.Records pairs)
    (more : List (κ × α)) : (m.insertAll more).Records (pairs ++ more) := by
  induction more generalizing m pairs with
  | nil => rwa [List.append_nil]
  | cons pair more ih =>
    have hrest := ih (h.insert pair.1 pair.2)
    rwa [List.append_assoc, List.singleton_append] at hrest

theorem records_ofList (pairs : List (κ × α)) : (ofList pairs).Records pairs :=
  records_empty.insertAll pairs

/-- Only no pairs make the map without entries. -/
theorem ofList_eq_empty_iff {pairs : List (κ × α)} : ofList pairs = empty ↔ pairs = [] := by
  constructor
  · intro h
    cases pairs with
    | nil => rfl
    | cons pair pairs =>
      have hkeys := (records_ofList (pair :: pairs)).keys
      rw [h, List.map_cons, List.eraseDups_cons] at hkeys
      cases hkeys
  · rintro rfl
    rfl

/-- Of all sequences that tell a map its entries are the shortest one. -/
theorem records_entries (m : OrderedMap κ α) : m.Records m.entries := by
  have hentries := records_ofList m.entries
  rwa [ofList_entries] at hentries

/-- A map with another one put into it is told by their sequences in a row. -/
theorem Records.merge {m other : OrderedMap κ α} {pairs more : List (κ × α)} (h : m.Records pairs)
    (hother : other.Records more) : (m.insertAll other.entries).Records (pairs ++ more) where
  keys := by
    have hkeys : other.entries.map Prod.fst = (more.map Prod.fst).eraseDups := hother.keys
    rw [(h.insertAll other.entries).keys, List.map_append, List.map_append, hkeys,
      eraseDups_append_eraseDups]
  value := fun key => by
    rw [(h.insertAll other.entries).value, List.reverse_append, List.reverse_append,
      List.lookup_append, List.lookup_append, ← other.records_entries.value, hother.value]

theorem mem_iff_lookupEntry {entries : List (κ × α)} (h : (entries.map Prod.fst).Nodup) {key : κ}
    {value : α} : (key, value) ∈ entries ↔ lookupEntry entries key = some value := by
  induction entries with
  | nil => simp [lookupEntry]
  | cons entry entries ih =>
    obtain ⟨k, v⟩ := entry
    obtain ⟨hk, h⟩ := List.nodup_cons.1 h
    rw [List.mem_cons, ih h, lookupEntry]
    split_ifs with heq
    · subst heq
      -- The key does not come again, so the entry can only be this one.
      have hrest : lookupEntry entries k ≠ some value := fun hvalue =>
        hk (List.mem_map.2 ⟨_, (ih h).2 hvalue, rfl⟩)
      simp [hrest, eq_comm]
    · simp [Ne.symm heq]

theorem mem_entries_iff {m : OrderedMap κ α} {key : κ} {value : α} :
    (key, value) ∈ m.entries ↔ m.get? key = some value :=
  mem_iff_lookupEntry m.nodup_keys

/-! ### Other values -/

/-- The map with other values under its keys. -/
def mapValues {β : Type} (f : α → β) (m : OrderedMap κ α) : OrderedMap κ β where
  entries := m.entries.map fun (key, value) => (key, f value)
  nodup_keys := by
    have hkeys : Prod.fst ∘ (fun ((key, value) : κ × α) => (key, f value)) = Prod.fst := rfl
    rw [List.map_map, hkeys]
    exact m.nodup_keys

theorem lookupEntry_map {β : Type} (f : α → β) (entries : List (κ × α)) (key : κ) :
    lookupEntry (entries.map fun (key, value) => (key, f value)) key =
      (lookupEntry entries key).map f := by
  induction entries with
  | nil => rfl
  | cons entry entries ih =>
    rw [List.map_cons, lookupEntry, lookupEntry]
    split_ifs
    · rfl
    · exact ih

theorem get?_mapValues {β : Type} (f : α → β) (m : OrderedMap κ α) (key : κ) :
    (m.mapValues f).get? key = (m.get? key).map f :=
  lookupEntry_map f m.entries key

end OrderedMap

end Stencil
