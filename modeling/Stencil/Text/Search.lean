/-!
# Cutting a text

A text is a list of characters while it is being read. These are the cuts that the readers make:
at the first occurrence of a word (`cut`), at the first of a character (`cutAt`), at the first
place where some mark can be read (`cutWhere`), at every occurrence of a character (`fields`), and
the inverse of the last (`join`).

* `append_of_dropLead?`: what `dropLead?` removes is the word it was asked for;
* `append_of_cut`: the two sides of a cut, with the word between them, are the text;
* `join_fields`: joining the fields of a text gives the text back.
-/

namespace Stencil.Text

/-- The rest of a text that starts with a word. -/
def dropLead? : (word s : List Char) → Option (List Char)
  | [], s => some s
  | _ :: _, [] => none
  | w :: word, c :: s => if w = c then dropLead? word s else none

/-- What stands before and after the first occurrence of a word. -/
def cut (word : List Char) : (s : List Char) → Option (List Char × List Char)
  | [] => (dropLead? word []).map ([], ·)
  | c :: s =>
    match dropLead? word (c :: s) with
    | some rest => some ([], rest)
    | none => (cut word s).map fun (before, after) => (c :: before, after)

/-- What stands before and after the first occurrence of a character. -/
def cutAt (mark : Char) : (s : List Char) → Option (List Char × List Char)
  | [] => none
  | c :: s => if c = mark then some ([], s) else (cutAt mark s).map fun (a, b) => (c :: a, b)

/-- What stands before the first place where a mark can be read, and what is left after it. -/
def cutWhere (mark? : List Char → Option (List Char)) :
    (s : List Char) → Option (List Char × List Char)
  | [] => (mark? []).map ([], ·)
  | c :: s =>
    match mark? (c :: s) with
    | some rest => some ([], rest)
    | none => (cutWhere mark? s).map fun (before, after) => (c :: before, after)

/-- Whether a word occurs in a text. -/
def occurs (word s : List Char) : Bool :=
  (cut word s).isSome

/-- The pieces between the occurrences of a character. There is always at least one. -/
def fields (mark : Char) : List Char → List (List Char)
  | [] => [[]]
  | c :: s =>
    if c = mark then [] :: fields mark s
    else
      match fields mark s with
      | [] => [[c]]
      | f :: fs => (c :: f) :: fs

/-- The pieces with a separator between each two. -/
def join (sep : List Char) : List (List Char) → List Char
  | [] => []
  | [s] => s
  | s :: t :: rest => s ++ sep ++ join sep (t :: rest)

/-- The text with every occurrence of a character replaced. -/
def replaceChar (mark : Char) (new s : List Char) : List Char :=
  s.flatMap fun c => if c = mark then new else [c]

theorem append_of_dropLead? {word s rest : List Char} (h : dropLead? word s = some rest) :
    s = word ++ rest := by
  fun_induction dropLead? word s with
  | case1 => simp_all
  | case2 => simp at h
  | case3 w word s ih => simp [ih h]
  | case4 => simp at h

theorem append_of_cut {word s before after : List Char} (h : cut word s = some (before, after)) :
    s = before ++ word ++ after := by
  induction s generalizing before with
  | nil =>
    simp only [cut, Option.map_eq_some_iff, Prod.mk.injEq] at h
    obtain ⟨rest, hr, rfl, rfl⟩ := h
    simpa using append_of_dropLead? hr
  | cons c s ih =>
    rw [cut] at h
    split at h
    next rest hr =>
      simp only [Option.some.injEq, Prod.mk.injEq] at h
      obtain ⟨rfl, rfl⟩ := h
      simpa using append_of_dropLead? hr
    next =>
      simp only [Option.map_eq_some_iff, Prod.mk.injEq] at h
      obtain ⟨⟨b, a⟩, hc, rfl, rfl⟩ := h
      simp [ih hc]

theorem append_of_cutAt {mark : Char} {s before after : List Char}
    (h : cutAt mark s = some (before, after)) : s = before ++ mark :: after := by
  induction s generalizing before with
  | nil => simp [cutAt] at h
  | cons c s ih =>
    rw [cutAt] at h
    split at h
    next hc =>
      simp only [Option.some.injEq, Prod.mk.injEq] at h
      obtain ⟨rfl, rfl⟩ := h
      simp [hc]
    next =>
      simp only [Option.map_eq_some_iff, Prod.mk.injEq] at h
      obtain ⟨⟨b, a⟩, hc, rfl, rfl⟩ := h
      simp [ih hc]

theorem fields_ne_nil (mark : Char) (s : List Char) : fields mark s ≠ [] := by
  cases s with
  | nil => simp [fields]
  | cons c s =>
    rw [fields]
    split
    · simp
    · split <;> simp

theorem fields_of_not_mem {mark : Char} {s : List Char} (h : mark ∉ s) : fields mark s = [s] := by
  induction s with
  | nil => rfl
  | cons c s ih =>
    simp only [List.mem_cons, not_or] at h
    rw [fields, if_neg fun hc => h.1 hc.symm, ih h.2]

theorem join_fields (mark : Char) (s : List Char) : join [mark] (fields mark s) = s := by
  induction s with
  | nil => rfl
  | cons c s ih =>
    have hne := fields_ne_nil mark s
    rw [fields]
    split
    next hc =>
      generalize fields mark s = fs at ih hne
      cases fs with
      | nil => exact absurd rfl hne
      | cons f fs => simp [join, ih, hc]
    next =>
      generalize fields mark s = fs at ih hne
      cases fs with
      | nil => exact absurd rfl hne
      | cons f fs => cases fs <;> simp_all [join]

end Stencil.Text
