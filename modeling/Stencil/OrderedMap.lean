/-!
# Maps in order of insertion

Attributes and templates are kept under names, in the order in which the names first came: a name
that comes again keeps its place and takes the new value.

* `keys_insert`: inserting a known key leaves the keys as they are, a new one comes last;
* `mem_of_mem_keys_insertAll`: a map made of pairs has no other keys;
* `get?_insert_self`, `get?_insert_of_ne`: what is found after an insertion;
* `ofList_entries`: a map is made of its entries.
-/

namespace Stencil

/-- A map in order of insertion. -/
structure OrderedMap (κ α : Type) where
  /-- The entries, first inserted first. -/
  entries : List (κ × α)
  /-- No key has two entries. -/
  nodup_keys : (entries.map Prod.fst).Nodup

namespace OrderedMap

variable {κ α : Type} [DecidableEq κ]

/-- The entries after a key was bound to a value. -/
def insertEntry : List (κ × α) → κ → α → List (κ × α)
  | [], key, value => [(key, value)]
  | (k, v) :: rest, key, value =>
    if k = key then (k, value) :: rest else (k, v) :: insertEntry rest key value

/-- The value of a key in entries. -/
def lookupEntry : List (κ × α) → κ → Option α
  | [], _ => none
  | (k, v) :: rest, key => if k = key then some v else lookupEntry rest key

theorem map_fst_insertEntry (entries : List (κ × α)) (key : κ) (value : α) :
    (insertEntry entries key value).map Prod.fst =
      if key ∈ entries.map Prod.fst then entries.map Prod.fst else entries.map Prod.fst ++ [key] := by
  induction entries with
  | nil => simp [insertEntry]
  | cons entry rest ih =>
    obtain ⟨k, v⟩ := entry
    rw [insertEntry]
    by_cases hk : k = key
    · simp [hk]
    · have hk' : key ≠ k := fun h => hk h.symm
      simp only [if_neg hk, List.map_cons, ih, List.mem_cons, hk', false_or]
      split <;> simp

/-- The map without entries. -/
def empty : OrderedMap κ α := ⟨[], List.nodup_nil⟩

instance : Inhabited (OrderedMap κ α) := ⟨⟨[], List.nodup_nil⟩⟩

/-- The keys, first inserted first. -/
def keys (m : OrderedMap κ α) : List κ :=
  m.entries.map Prod.fst

/-- The number of entries. -/
def size (m : OrderedMap κ α) : Nat :=
  m.entries.length

/-- The value of a key. -/
def get? (m : OrderedMap κ α) (key : κ) : Option α :=
  lookupEntry m.entries key

/-- Whether a key has a value. -/
def contains (m : OrderedMap κ α) (key : κ) : Bool :=
  (m.get? key).isSome

/-- The map with a key bound to a value. -/
def insert (m : OrderedMap κ α) (key : κ) (value : α) : OrderedMap κ α where
  entries := insertEntry m.entries key value
  nodup_keys := by
    rw [map_fst_insertEntry]
    split
    · exact m.nodup_keys
    next h =>
      rw [List.nodup_append]
      refine ⟨m.nodup_keys, by simp, fun a ha b hb => ?_⟩
      rw [List.mem_singleton] at hb
      rintro rfl
      exact h (hb ▸ ha)

/-- The map with all pairs inserted, in order. -/
def insertAll (m : OrderedMap κ α) (pairs : List (κ × α)) : OrderedMap κ α :=
  pairs.foldl (fun m (k, v) => m.insert k v) m

/-- The map made of pairs. -/
def ofList (pairs : List (κ × α)) : OrderedMap κ α :=
  empty.insertAll pairs

theorem keys_insert (m : OrderedMap κ α) (key : κ) (value : α) :
    (m.insert key value).keys = if key ∈ m.keys then m.keys else m.keys ++ [key] :=
  map_fst_insertEntry m.entries key value

theorem lookupEntry_insertEntry (entries : List (κ × α)) (key other : κ) (value : α) :
    lookupEntry (insertEntry entries key value) other =
      if key = other then some value else lookupEntry entries other := by
  induction entries with
  | nil => rfl
  | cons entry rest ih =>
    obtain ⟨k, v⟩ := entry
    rw [insertEntry]
    by_cases hk : k = key
    · subst hk
      simp only [if_true, lookupEntry]
      split <;> rfl
    · simp only [if_neg hk, lookupEntry, ih]
      by_cases ho : k = other
      · have : key ≠ other := fun h => hk (ho.trans h.symm)
        simp [ho, this]
      · simp [ho]

theorem get?_insert_self (m : OrderedMap κ α) (key : κ) (value : α) :
    (m.insert key value).get? key = some value := by
  rw [get?, insert, lookupEntry_insertEntry, if_pos rfl]

theorem get?_insert_of_ne (m : OrderedMap κ α) {key other : κ} (value : α) (h : other ≠ key) :
    (m.insert key value).get? other = m.get? other := by
  rw [get?, insert, lookupEntry_insertEntry, if_neg h.symm, get?]

theorem mem_keys_of_get? {m : OrderedMap κ α} {key : κ} {value : α} (h : m.get? key = some value) :
    key ∈ m.keys := by
  have hentries : ∀ entries : List (κ × α), lookupEntry entries key = some value →
      key ∈ entries.map Prod.fst := by
    intro entries h
    induction entries with
    | nil => cases h
    | cons entry entries ih =>
      rw [lookupEntry] at h
      split at h
      next hkey => exact hkey ▸ List.mem_cons_self
      next => exact List.mem_cons_of_mem _ (ih h)
  exact hentries m.entries h

/-- Inserting pairs brings in no other keys than theirs. -/
theorem mem_of_mem_keys_insertAll {m : OrderedMap κ α} {pairs : List (κ × α)} {key : κ}
    (h : key ∈ (m.insertAll pairs).keys) : key ∈ m.keys ∨ key ∈ pairs.map Prod.fst := by
  induction pairs generalizing m with
  | nil => exact .inl h
  | cons pair pairs ih =>
    rw [List.map_cons, List.mem_cons]
    rcases ih h with hm | hpairs
    · rw [keys_insert] at hm
      split at hm
      · exact .inl hm
      · rw [List.mem_append, List.mem_singleton] at hm
        exact hm.imp_right .inl
    · exact .inr (.inr hpairs)

theorem insertEntry_of_not_mem {entries : List (κ × α)} {key : κ} (value : α)
    (h : key ∉ entries.map Prod.fst) : insertEntry entries key value = entries ++ [(key, value)] := by
  induction entries with
  | nil => rfl
  | cons entry rest ih =>
    obtain ⟨k, v⟩ := entry
    simp only [List.map_cons, List.mem_cons, not_or] at h
    rw [insertEntry, if_neg fun hk => h.1 hk.symm, ih h.2, List.cons_append]

theorem entries_insertAll (m : OrderedMap κ α) {pairs : List (κ × α)}
    (h : ((m.entries ++ pairs).map Prod.fst).Nodup) :
    (m.insertAll pairs).entries = m.entries ++ pairs := by
  induction pairs generalizing m with
  | nil => simp [insertAll]
  | cons pair pairs ih =>
    obtain ⟨key, value⟩ := pair
    have hkey : key ∉ m.entries.map Prod.fst := by
      intro hm
      rw [List.map_append, List.nodup_append] at h
      exact h.2.2 key hm key (by simp) rfl
    have hinsert : (m.insert key value).entries = m.entries ++ [(key, value)] :=
      insertEntry_of_not_mem value hkey
    have := ih (m.insert key value) (by simpa [hinsert] using h)
    rw [hinsert, List.append_assoc] at this
    exact this

/-- A map is made of its entries. -/
theorem ofList_entries (m : OrderedMap κ α) : ofList m.entries = m := by
  have h : (ofList m.entries).entries = m.entries := entries_insertAll empty m.nodup_keys
  obtain ⟨entries, nodup⟩ := m
  have : (ofList entries).entries = entries := h
  cases hof : ofList entries
  rw [hof] at this
  cases this
  rfl

end OrderedMap

end Stencil
