import Stencil.Path
import Stencil.Proofs.Outcome
import Stencil.Proofs.Text.Search

/-!
# The texts that are paths

The documented paths (`Documented`) are keys, names in a mapping that is gone on from, and keys with an
accessor behind which there are only blanks. A text that leads to a value is such a path, or it goes on
behind the bracket that closes the accessor (`resolve_documented`): what stands there is not looked at,
and the text leads to the value of the path in front of it. So a second accessor is passed over in
silence (`resolve_second_subscript`).

* `resolveLast_documented`: the last piece of a path;
* `resolveMembers_documented`: its pieces, from the last one to the first.
-/

namespace Stencil.Path

open Text

/-- A key with an accessor, up to the first bracket that closes it. -/
inductive Accessed : List Char → Prop where
  | subscript {name token : List Char} : (∀ c ∈ ['.', '['], c ∉ name) → (∀ c ∈ ['.', ']'], c ∉ token) →
      Accessed (name ++ '[' :: (token ++ [']']))
  | call {name args : List Char} : (∀ c ∈ ['.', '[', '('], c ∉ name) →
      (∀ c ∈ ['.', '[', ')'], c ∉ args) → Accessed (name ++ '(' :: (args ++ [')']))

/-- A path that ends with the bracket that closes its accessor. -/
inductive Closed : List Char → Prop where
  | accessed {s : List Char} : Accessed s → Closed s
  | member {left path : List Char} : '.' ∉ left → Closed path → Closed (left ++ '.' :: path)

/-- A path of one of the documented forms. -/
inductive Documented : List Char → Prop where
  | key {s : List Char} : (∀ c ∈ ['.', '[', '('], c ∉ s) → Documented s
  | member {left path : List Char} : '.' ∉ left → Documented path → Documented (left ++ '.' :: path)
  | accessed {s after : List Char} : Accessed s → isBlank after = true → Documented (s ++ after)

variable {host : Host}

/-- What a text is if it leads to the value of some pieces: a documented path, or one that is closed with
    something behind it, which does not count. -/
def IsRead (host : Host) (context : Context) (s : List Char) (x : Evaluation Value) : Prop :=
  Documented s ∨ ∃ p ignored, s = p ++ ignored ∧ Closed p ∧ isBlank ignored = false ∧
    resolveMembers host (fields '.' p) context = x

/-! ### The last piece -/

theorem Accessed.exists_concat {s : List Char} (h : Accessed s) :
    ∃ t d, s = t ++ [d] ∧ isSpace d = false := by
  cases h with
  | subscript => exact ⟨_, ']', (List.append_assoc _ ('[' :: _) [']']).symm, by decide⟩
  | call => exact ⟨_, ')', (List.append_assoc _ ('(' :: _) [')']).symm, by decide⟩

theorem Accessed.not_mem {s : List Char} (h : Accessed s) : '.' ∉ s := by
  cases h with
  | subscript hname htoken => simp [hname '.' (by decide), htoken '.' (by decide)]
  | call hname hargs => simp [hname '.' (by decide), hargs '.' (by decide)]

/-- What stands behind the bracket of a subscript does not count if the subscript has a value. -/
theorem resolveSubscript_of_gives {path before inside rest : List Char} (hinside : ']' ∉ inside)
    {context : Context} {v : Value}
    (h : (resolveSubscript path before (inside ++ ']' :: rest) context).Gives v)
    (path' rest' : List Char) :
    resolveSubscript path' before (inside ++ ']' :: rest') context =
      resolveSubscript path before (inside ++ ']' :: rest) context := by
  simp only [resolveSubscript, cutAt_append hinside] at h ⊢
  obtain ⟨base, hbase, h⟩ := Evaluation.gives_bind.1 h
  refine Evaluation.bind_congr_of_gives fun base' hbase' => ?_
  obtain rfl := hbase.unique hbase'
  cases hquote : Literal.unquote? (trim inside) with
  | some key => rfl
  | none =>
    cases hindex : Numeral.readInt? (trim inside) with
    | some index => rfl
    | none =>
      rw [hquote, hindex] at h
      exact absurd h Evaluation.not_gives_throw

/-- What stands behind the parenthesis of a call does not count. -/
theorem resolveCall_append (path path' : List Char) {before inside : List Char} (hinside : ')' ∉ inside)
    (rest rest' : List Char) (context : Context) :
    resolveCall host path before (inside ++ ')' :: rest) context =
      resolveCall host path' before (inside ++ ')' :: rest') context := by
  simp only [resolveCall, cutAt_append hinside]

theorem not_mem_of_isBlank {s : List Char} (h : isBlank s = true) :
    ∀ c ∈ ['.', '[', '('], c ∉ s := by
  have hspace : ∀ c ∈ ['.', '[', '('], isSpace c = false := forall_mem_of_all (by decide)
  intro c hc hmem
  exact absurd (List.all_eq_true.1 h c hmem) (by simp [hspace c hc])

/-- A text that is trimmed stays so if it is cut off behind a character that is no blank. -/
theorem trim_of_append_eq {front rest t : List Char} (htrim : trim t = t) (ht : t = front ++ rest)
    (hfront : ∃ s d, front = s ++ [d] ∧ isSpace d = false) : trim front = front := by
  obtain ⟨s, d, rfl, hd⟩ := hfront
  refine trim_eq_self_iff.2 ⟨fun c hc => (trim_eq_self_iff.1 htrim).1 c ?_, fun c hc => ?_⟩
  · rw [ht, List.head?_append, hc, Option.some_or]
    rfl
  · rw [List.getLast?_concat, Option.mem_some_iff] at hc
    exact hc ▸ hd

/-- Blanks in front go to the key. -/
theorem Accessed.padded {lead s : List Char} (hlead : isBlank lead = true) (h : Accessed s) :
    Accessed (lead ++ s) := by
  have hmarks := not_mem_of_isBlank hlead
  cases h with
  | @subscript name token hname htoken =>
    rw [← List.append_assoc]
    refine .subscript (fun c hc => ?_) htoken
    have hc' : c ∈ ['.', '[', '('] := List.mem_append_left ['('] hc
    exact fun h => (List.mem_append.1 h).elim (hmarks c hc') (hname c hc)
  | @call name args hname hargs =>
    rw [← List.append_assoc]
    refine .call (fun c hc => ?_) hargs
    exact fun h => (List.mem_append.1 h).elim (hmarks c hc) (hname c hc)

section

variable {lead t trail before after : List Char} {context : Context} {v : Value}

/-- A piece leads to a value as its front does that ends with the bracket of its accessor. -/
theorem isRead_of_accessed {front rest : List Char} (hlead : isBlank lead = true) (htrim : trim t = t)
    (ht : t = front ++ rest) (hfront : Accessed front)
    (h : resolveLast host front context = resolveLast host t context) :
    IsRead host context (lead ++ (t ++ trail)) (resolveLast host t context) := by
  have happend : lead ++ (t ++ trail) = (lead ++ front) ++ (rest ++ trail) := by simp [ht]
  rw [happend]
  cases hblank : isBlank (rest ++ trail) with
  | true => exact .inl (.accessed (hfront.padded hlead) hblank)
  | false =>
    refine .inr ⟨lead ++ front, rest ++ trail, rfl, .accessed (hfront.padded hlead), hblank, ?_⟩
    have hself : trim (lead ++ front) = front := by
      have hpadded : trim (lead ++ (front ++ [])) = trim front := trim_padded hlead rfl front
      rw [List.append_nil] at hpadded
      rw [hpadded, trim_of_append_eq htrim ht hfront.exists_concat]
    rw [fields_of_not_mem (hfront.padded hlead).not_mem, resolveMembers, hself, h]

theorem isRead_subscript (hlead : isBlank lead = true) (htrim : trim t = t) (hdot : '.' ∉ t)
    (hcut : cutAt '[' t = some (before, after)) (h : (resolveLast host t context).Gives v) :
    IsRead host context (lead ++ (t ++ trail)) (resolveLast host t context) := by
  have hvalue : resolveLast host t context = resolveSubscript t before after context := by
    rw [resolveLast, hcut]
  rw [hvalue] at h
  cases hclose : cutAt ']' after with
  | none =>
    rw [resolveSubscript, hclose] at h
    exact absurd h Evaluation.not_gives_throw
  | some cut =>
    obtain ⟨inside, rest⟩ := cut
    have hbefore := not_mem_of_cutAt hcut
    have hinside := not_mem_of_cutAt hclose
    obtain rfl := append_of_cutAt hclose
    have ht := append_of_cutAt hcut
    simp only [ht, List.mem_append, List.mem_cons, not_or] at hdot
    have hfront : Accessed (before ++ '[' :: (inside ++ [']'])) :=
      .subscript (by simp [hbefore, hdot.1]) (by simp [hinside, hdot.2.2.1])
    have happend : t = (before ++ '[' :: (inside ++ [']'])) ++ rest := by simp [ht]
    refine isRead_of_accessed hlead htrim happend hfront ?_
    rw [hvalue, resolveLast, cutAt_append hbefore]
    exact resolveSubscript_of_gives hinside h _ []

theorem isRead_call (hlead : isBlank lead = true) (htrim : trim t = t) (hdot : '.' ∉ t)
    (hbracket : cutAt '[' t = none) (hcut : cutAt '(' t = some (before, after))
    (h : (resolveLast host t context).Gives v) :
    IsRead host context (lead ++ (t ++ trail)) (resolveLast host t context) := by
  have hvalue : resolveLast host t context = resolveCall host t before after context := by
    rw [resolveLast, hbracket, hcut]
  rw [hvalue] at h
  cases hclose : cutAt ')' after with
  | none =>
    rw [resolveCall, hclose] at h
    exact absurd h Evaluation.not_gives_throw
  | some cut =>
    obtain ⟨inside, rest⟩ := cut
    have hbefore := not_mem_of_cutAt hcut
    have hinside := not_mem_of_cutAt hclose
    obtain rfl := append_of_cutAt hclose
    have ht := append_of_cutAt hcut
    have hsquare := cutAt_eq_none_iff.1 hbracket
    simp only [ht, List.mem_append, List.mem_cons, not_or] at hdot hsquare
    have hfront : Accessed (before ++ '(' :: (inside ++ [')'])) :=
      .call (by simp [hbefore, hdot.1, hsquare.1]) (by simp [hinside, hdot.2.2.1, hsquare.2.2.1])
    have happend : t = (before ++ '(' :: (inside ++ [')'])) ++ rest := by simp [ht]
    have hno : cutAt '[' (before ++ '(' :: (inside ++ [')'])) = none := by
      rw [cutAt_eq_none_iff]
      simp [hsquare.1, hsquare.2.2.1]
    refine isRead_of_accessed hlead htrim happend hfront ?_
    rw [hvalue, resolveLast, hno]
    simp only [cutAt_append hbefore]
    exact resolveCall_append _ t hinside [] rest context

end

/-- The last piece of a path is a key or has an accessor, and what stands behind the accessor does not
    count. -/
theorem resolveLast_documented {piece : List Char} (hdot : '.' ∉ piece) {context : Context} {v : Value}
    (h : (resolveLast host (trim piece) context).Gives v) :
    IsRead host context piece (resolveLast host (trim piece) context) := by
  obtain ⟨lead, trail, hlead, htrail, hpiece⟩ := exists_eq_append_trim piece
  have htrim := trim_trim piece
  have hdot' : '.' ∉ trim piece := fun hmem => hdot (trim_subset piece hmem)
  generalize trim piece = t at htrim hpiece h hdot' ⊢
  subst hpiece
  cases hbracket : cutAt '[' t with
  | some cut => exact isRead_subscript hlead htrim hdot' hbracket h
  | none =>
    cases hparenthesis : cutAt '(' t with
    | some cut => exact isRead_call hlead htrim hdot' hbracket hparenthesis h
    | none =>
      refine .inl (.key ?_)
      simp [not_mem_of_isBlank hlead, not_mem_of_isBlank htrail, hdot', cutAt_eq_none_iff.1 hbracket,
        cutAt_eq_none_iff.1 hparenthesis]

/-! ### The pieces before -/

theorem Closed.exists_concat {s : List Char} (h : Closed s) :
    ∃ t d, s = t ++ [d] ∧ isSpace d = false := by
  induction h with
  | accessed h => exact h.exists_concat
  | @member left path _ _ ih =>
    obtain ⟨t, d, rfl, hd⟩ := ih
    exact ⟨left ++ '.' :: t, d, by simp, hd⟩

/-- The last piece of a path decides what the path is: the ones before it are names. -/
theorem resolveMembers_documented {pieces : List (List Char)} (hne : pieces ≠ [])
    (hdot : ∀ piece ∈ pieces, '.' ∉ piece) {context : Context} {v : Value}
    (h : (resolveMembers host pieces context).Gives v) :
    IsRead host context (join ['.'] pieces) (resolveMembers host pieces context) := by
  induction pieces generalizing context with
  | nil => exact absurd rfl hne
  | cons piece rest ih =>
    rw [List.forall_mem_cons] at hdot
    cases rest with
    | nil => exact resolveLast_documented hdot.1 h
    | cons next rest =>
      rw [resolveMembers_cons] at h ⊢
      obtain ⟨base, hbase, h⟩ := Evaluation.gives_bind.1 h
      cases base with
      | map entries =>
        have hjoin : join ['.'] (piece :: next :: rest) = piece ++ '.' :: join ['.'] (next :: rest) := by
          simp [join]
        rw [hjoin]
        rcases ih (List.cons_ne_nil next rest) hdot.2 h with hrest | ⟨p, ignored, hp, hclosed, hblank, hsame⟩
        · exact .inl (.member hdot.1 hrest)
        · refine .inr ⟨piece ++ '.' :: p, ignored, by simp [hp], .member hdot.1 hclosed, hblank, ?_⟩
          rw [fields_append hdot.1]
          obtain ⟨f, fs, hfields⟩ := List.exists_cons_of_ne_nil (fields_ne_nil '.' p)
          rw [hfields] at hsame ⊢
          rw [resolveMembers_cons]
          refine Evaluation.bind_congr_of_gives fun base' hbase' => ?_
          obtain rfl := hbase.unique hbase'
          exact hsame
      | _ => exact absurd h Evaluation.not_gives_throw

/-- A text that leads to a value is a documented path, but for what stands behind the bracket that
    closes its accessor: it leads to the value of the path in front of it, with the same calls. -/
theorem resolve_documented (host : Host) (s : List Char) (context : Context) (v : Value)
    (h : (resolve host s (.map context)).Gives v) :
    Documented (trim s) ∨
      ∃ p ignored, trim s = p ++ ignored ∧ Closed p ∧ isBlank ignored = false ∧
        resolve host p (.map context) = resolve host s (.map context) := by
  have hread := resolveMembers_documented (fields_ne_nil '.' (trim s))
    (fun piece hpiece => not_mem_of_mem_fields hpiece) h
  rw [join_fields] at hread
  refine hread.imp id ?_
  rintro ⟨p, ignored, hp, hclosed, hblank, hsame⟩
  have htrim : trim p = p := trim_of_append_eq (trim_trim s) hp hclosed.exists_concat
  refine ⟨p, ignored, hp, hclosed, hblank, ?_⟩
  rw [resolve, htrim]
  exact hsame

/-- A list in a list. -/
def nestedContext : Context := [(.str "a", .list [.list [.int 1, .int 2]])]

theorem resolve_documented_spaced :
    (resolve Host.none " a [ 0 ] ".toList (.map nestedContext)).Gives (.list [.int 1, .int 2]) ∧
      (Documented (trim " a [ 0 ] ".toList) ∨
        ∃ p ignored, trim " a [ 0 ] ".toList = p ++ ignored ∧ Closed p ∧ isBlank ignored = false ∧
          resolve Host.none p (.map nestedContext) =
            resolve Host.none " a [ 0 ] ".toList (.map nestedContext)) :=
  ⟨rfl, resolve_documented Host.none " a [ 0 ] ".toList nestedContext (.list [.int 1, .int 2]) rfl⟩

/-- A text that goes on behind the bracket of a subscript is no documented path. -/
theorem not_documented_of_cutAt {s before after inside rest : List Char} (hdot : '.' ∉ s)
    (hopen : cutAt '[' s = some (before, after)) (hclose : cutAt ']' after = some (inside, rest))
    (hrest : isBlank rest = false) : ¬Documented s := by
  have hbracket : '[' ∈ s := (subset_of_cutAt hopen).1
  intro h
  cases h with
  | key hmarks => exact hmarks '[' (by decide) hbracket
  | member => exact hdot (by simp)
  | @accessed s blanks haccessed hblank =>
    cases haccessed with
    | @subscript name token hname htoken =>
      have hs : name ++ '[' :: (token ++ [']']) ++ blanks = name ++ '[' :: (token ++ ']' :: blanks) := by
        simp
      rw [hs, cutAt_append (hname '[' (by decide))] at hopen
      cases hopen
      rw [cutAt_append (htoken ']' (by decide))] at hclose
      cases hclose
      rw [hblank] at hrest
      cases hrest
    | @call name args hname hargs =>
      simp [hname '[' (by decide), hargs '[' (by decide), not_mem_of_isBlank hblank] at hbracket

/-- A second subscript and a bracket that closes nothing are passed over in silence. -/
theorem resolve_second_subscript :
    ((resolve Host.none "a[0][1]".toList (.map nestedContext)).Gives (.list [.int 1, .int 2]) ∧
      ¬Documented (trim "a[0][1]".toList)) ∧
    (resolve Host.none "a[0]]".toList (.map nestedContext)).Gives (.list [.int 1, .int 2]) ∧
      ¬Documented (trim "a[0]]".toList) :=
  ⟨⟨rfl, not_documented_of_cutAt (by decide) rfl rfl rfl⟩,
    rfl, not_documented_of_cutAt (by decide) rfl rfl rfl⟩

end Stencil.Path
