import Stencil.Proofs.Path.Written

/-!
# Blanks in a path

A path may be written with blanks around its keys and in the brackets of its accessor. They are trimmed
off wherever a piece of the path is looked up, but in one place: what stands before a dot is trimmed at
its start only. So the blanks between a key and the dot behind it belong to the name that is looked up,
and all other blanks do not matter (`resolve_spaced`): the path leads to the same value with the same
calls, or ends in an error of the same kind. What is the same is told by `Evaluation.Resembles`, as an
error may show a part of the path as it is written.

* `resembles_resolveMembers`: pieces that are the same but for the blanks that are trimmed off;
* `resembles_fields`: the blanks at the ends of a path;
* `resembles_accessor`: the accessor of the last piece, one case for each of its brackets;
* `resolve_spaced`: which blanks matter, and which do not.
-/

namespace Stencil

/-- Two failures are of the same class: errors of a template are if they are of the same kind, all
    others only if they are the same. -/
def Failure.SameClass : Failure → Failure → Prop
  | .template e, .template e' => e.kind = e'.kind
  | failure, failure' => failure = failure'

theorem Failure.sameClass_refl (failure : Failure) : failure.SameClass failure := by
  cases failure <;> rfl

theorem Failure.SameClass.symm {a b : Failure} (h : a.SameClass b) : b.SameClass a := by
  cases a <;> cases b <;> exact Eq.symm h

theorem Failure.SameClass.trans {a b c : Failure} (hab : a.SameClass b) (hbc : b.SameClass c) :
    a.SameClass c := by
  cases a <;> cases b <;> cases c <;> first | exact Eq.trans hab hbc | cases hab | cases hbc

namespace Evaluation

variable {α β : Type} {x y z : Evaluation α}

/-- Two evaluations make the same calls and have the same result, or failures of the same class. -/
inductive Resembles : Evaluation α → Evaluation α → Prop
  | result (a : α) (calls : List Call) : Resembles ⟨.ok a, calls⟩ ⟨.ok a, calls⟩
  | failure {f g : Failure} (h : f.SameClass g) (calls : List Call) :
      Resembles ⟨.error f, calls⟩ ⟨.error g, calls⟩

theorem resembles_refl (x : Evaluation α) : Resembles x x := by
  obtain ⟨outcome, calls⟩ := x
  cases outcome with
  | ok a => exact .result a calls
  | error f => exact .failure f.sameClass_refl calls

theorem Resembles.symm (h : Resembles x y) : Resembles y x := by
  cases h with
  | result a calls => exact .result a calls
  | failure h calls => exact .failure h.symm calls

theorem Resembles.trans (hxy : Resembles x y) (hyz : Resembles y z) : Resembles x z := by
  cases hxy with
  | result a calls => exact hyz
  | failure h calls =>
    cases hyz with
    | failure h' => exact .failure (h.trans h') calls

/-- Evaluations with the same beginning resemble each other if what comes behind it does. -/
theorem resembles_bind (x : Evaluation α) {f g : α → Evaluation β}
    (h : ∀ a, Resembles (f a) (g a)) : Resembles (x >>= f) (x >>= g) := by
  obtain ⟨outcome, calls⟩ := x
  cases outcome with
  | error failure => exact .failure failure.sameClass_refl calls
  | ok a =>
    rw [Traced.bind_of_ok rfl, Traced.bind_of_ok rfl]
    have hfg := h a
    generalize f a = fa, g a = ga at hfg ⊢
    cases hfg with
    | result => exact .result _ _
    | failure h => exact .failure h _

/-- Errors of the same kind may be worded differently. -/
theorem resembles_throw {e e' : TemplateError} (h : e.kind = e'.kind) :
    Resembles (throw e : Evaluation α) (throw e') :=
  Resembles.failure (f := .template e) (g := .template e') h []

end Evaluation

namespace Path

open Text Evaluation

/-! ### How spaced paths are written -/

/-- Blanks. -/
structure Blanks where
  text : List Char
  isBlank_text : isBlank text = true

/-- No blanks. -/
def Blanks.none : Blanks := ⟨[], rfl⟩

/-- A key with blanks around it. -/
structure SpacedKey where
  before : Blanks
  key : Key
  after : Blanks

/-- The brackets of an accessor. -/
inductive Bracket where
  | square
  | round

/-- The bracket that opens. -/
def Bracket.opener : Bracket → Char
  | square => '['
  | round => '('

/-- The bracket that closes. -/
def Bracket.closer : Bracket → Char
  | square => ']'
  | round => ')'

/-- What does not stand in the brackets: what would close them, end the piece or make it another
    accessor. -/
def Bracket.marks : Bracket → List Char
  | square => ['.', ']']
  | round => ['.', ')', '[']

/-- What stands in brackets, with blanks around it. -/
structure Accessor where
  bracket : Bracket
  afterOpener : Blanks
  inside : List Char
  beforeCloser : Blanks
  isFree : ∀ c ∈ inside, c ∉ bracket.marks

/-- A path with blanks in it: the keys before its last piece, the key of that piece, and its accessor if
    it has one. -/
structure Spaced where
  keys : List SpacedKey
  last : SpacedKey
  accessor : Option Accessor

/-- How a key is written. -/
def SpacedKey.written (k : SpacedKey) : List Char :=
  k.before.text ++ (k.key.text ++ k.after.text)

/-- What stands between the brackets. -/
def Accessor.writtenInside (a : Accessor) : List Char :=
  a.afterOpener.text ++ (a.inside ++ a.beforeCloser.text)

/-- How an accessor is written. -/
def Accessor.written (a : Accessor) : List Char :=
  a.bracket.opener :: (a.writtenInside ++ [a.bracket.closer])

/-- How the last piece of a path is written. -/
def Spaced.writtenLast (p : Spaced) : List Char :=
  match p.accessor with
  | none => p.last.written
  | some a => p.last.before.text ++ ((p.last.key.text ++ p.last.after.text) ++ a.written)

/-- The pieces of a path. -/
def Spaced.pieces (p : Spaced) : List (List Char) :=
  p.keys.map SpacedKey.written ++ [p.writtenLast]

/-- How a path is written. -/
def Spaced.written (p : Spaced) : List Char :=
  join ['.'] p.pieces

/-- The key without the blanks before it. -/
def SpacedKey.narrowed (k : SpacedKey) : SpacedKey := { k with before := .none }

/-- The key without blanks around it. -/
def SpacedKey.bare (k : SpacedKey) : SpacedKey := { k with before := .none, after := .none }

/-- The accessor without blanks at its brackets. -/
def Accessor.bare (a : Accessor) : Accessor :=
  { a with afterOpener := .none, beforeCloser := .none }

/-- The path without blanks but those before dots. -/
def Spaced.narrowed (p : Spaced) : Spaced :=
  ⟨p.keys.map SpacedKey.narrowed, p.last.bare, p.accessor.map Accessor.bare⟩

/-- The path without blanks. -/
def Spaced.bare (p : Spaced) : Spaced :=
  ⟨p.keys.map SpacedKey.bare, p.last.bare, p.accessor.map Accessor.bare⟩

/-! ### The parts are found -/

theorem Blanks.not_mem (b : Blanks) {c : Char} (hc : isSpace c = false) : c ∉ b.text :=
  not_mem_blanks b.isBlank_text hc

theorem SpacedKey.not_mem (k : SpacedKey) {c : Char} (hc : c ∈ ['.', '[', ']', '(', ')']) :
    c ∉ k.written := by
  have hspace : ∀ c ∈ ['.', '[', ']', '(', ')'], isSpace c = false := forall_mem_of_all (by decide)
  simp [written, k.key.not_mem hc, k.before.not_mem (hspace c hc), k.after.not_mem (hspace c hc)]

theorem Bracket.isSpace_of_mem_marks (b : Bracket) : ∀ c ∈ b.marks, isSpace c = false := by
  cases b <;> exact forall_mem_of_all (by decide)

theorem Accessor.not_mem_inside (a : Accessor) {c : Char} (hc : c ∈ a.bracket.marks) :
    c ∉ a.writtenInside := by
  have hspace := a.bracket.isSpace_of_mem_marks c hc
  have hinside : c ∉ a.inside := fun h => a.isFree c h hc
  simp [writtenInside, hinside, a.afterOpener.not_mem hspace, a.beforeCloser.not_mem hspace]

theorem Spaced.not_mem_writtenLast (p : Spaced) : '.' ∉ p.writtenLast := by
  have hlast := p.last.not_mem (c := '.') (by decide)
  rw [writtenLast]
  split
  · exact hlast
  next a _ =>
    have hmark : '.' ∈ a.bracket.marks := by cases a.bracket <;> decide
    have hbrackets : '.' ≠ a.bracket.opener ∧ '.' ≠ a.bracket.closer := by
      cases a.bracket <;> decide
    have hinside := a.not_mem_inside hmark
    simp only [SpacedKey.written, List.mem_append, not_or] at hlast
    simp [Accessor.written, hlast, hinside, hbrackets]

theorem Spaced.fields_written (p : Spaced) : fields '.' p.written = p.pieces := by
  refine fields_join (by simp [pieces]) fun word hword => ?_
  rw [pieces, List.mem_append, List.mem_map, List.mem_singleton] at hword
  rcases hword with ⟨k, -, rfl⟩ | rfl
  · exact k.not_mem (by decide)
  · exact p.not_mem_writtenLast

/-! ### Pieces in a row -/

section

variable {host : Host}

/-- Pieces lead to the same if they are the same but for the blanks that are trimmed off. -/
theorem resembles_resolveMembers {fs gs : List (List Char)} {f g : List Char}
    (hpieces : fs.map trimStart = gs.map trimStart)
    (hlast : ∀ context, Resembles (resolveLast host (trim f) context)
      (resolveLast host (trim g) context)) (context : Context) :
    Resembles (resolveMembers host (fs ++ [f]) context) (resolveMembers host (gs ++ [g]) context) := by
  induction fs generalizing gs context with
  | nil =>
    obtain rfl : gs = [] := by simpa using hpieces.symm
    exact hlast context
  | cons piece fs ih =>
    cases gs with
    | nil => simp at hpieces
    | cons piece' gs =>
      rw [List.map_cons, List.map_cons, List.cons.injEq] at hpieces
      obtain ⟨next, rest, hrest⟩ := List.exists_cons_of_ne_nil (List.append_ne_nil_of_right_ne_nil fs
        (List.cons_ne_nil f []))
      obtain ⟨next', rest', hrest'⟩ := List.exists_cons_of_ne_nil
        (List.append_ne_nil_of_right_ne_nil gs (List.cons_ne_nil g []))
      rw [List.cons_append, List.cons_append, hrest, hrest', resolveMembers_cons, resolveMembers_cons,
        hpieces.1, ← hrest, ← hrest']
      refine resembles_bind _ fun v => ?_
      cases v with
      | map entries => exact ih hpieces.2 entries
      | _ => exact resembles_throw rfl

/-- The blanks at the ends of a path are those of its first and its last piece. -/
theorem resembles_fields (s : List Char) (context : Context) :
    Resembles (resolve host s (.map context)) (resolveMembers host (fields '.' s) context) := by
  obtain ⟨lead, trail, hlead, htrail, hs⟩ := exists_eq_append_trim s
  have hdot : isSpace '.' = false := by decide
  rw [resolve]
  generalize trim s = t at hs
  subst hs
  obtain ⟨gs, g, ht, htrail'⟩ := fields_append_right (not_mem_blanks htrail hdot) t
  obtain ⟨f, fs, hf, hlead'⟩ := fields_append_left (not_mem_blanks hlead hdot) (t ++ trail)
  rw [htrail'] at hf
  rw [ht, hlead']
  cases gs with
  | nil =>
    -- One piece, with blanks at both of its ends.
    obtain ⟨rfl, rfl⟩ := List.cons.inj hf
    rw [List.nil_append, resolveMembers, resolveMembers, trim_padded hlead htrail]
    exact resembles_refl _
  | cons piece gs =>
    rw [List.cons_append, List.cons.injEq] at hf
    obtain ⟨rfl, rfl⟩ := hf
    rw [← List.cons_append]
    refine resembles_resolveMembers ?_ (fun context => ?_) context
    · rw [List.map_cons, List.map_cons, trimStart_padded hlead]
    · rw [trim_append_blanks htrail]
      exact resembles_refl _

/-! ### The last piece -/

/-- Blanks around the name and the token of `name[token]` do not matter. -/
theorem resembles_resolveSubscript {path path' before before' after after' inside inside' rest rest' :
    List Char} (hclose : cutAt ']' after = some (inside, rest))
    (hclose' : cutAt ']' after' = some (inside', rest')) (hname : trim before = trim before')
    (htoken : trim inside = trim inside') (context : Context) :
    Resembles (resolveSubscript path before after context)
      (resolveSubscript path' before' after' context) := by
  simp only [resolveSubscript, hclose, hclose', hname, htoken]
  refine resembles_bind _ fun base => ?_
  split
  · exact resembles_refl _
  · split
    · exact resembles_throw rfl
    · exact resembles_refl _

theorem resolveArgument_trim (context : Context) (argument : List Char) :
    resolveArgument context (trim argument) = resolveArgument context argument := by
  rw [resolveArgument, resolveArgument, trim_trim]

theorem resolveArguments_map_trim (context : Context) (arguments : List (List Char)) :
    resolveArguments context (arguments.map trim) = resolveArguments context arguments := by
  induction arguments with
  | nil => rfl
  | cons argument rest ih =>
    rw [List.map_cons, resolveArguments, resolveArgument_trim, ih, resolveArguments]

/-- Blanks around the name and the arguments of `name(args)` do not matter. -/
theorem resolveCall_padded {path path' before before' after after' lead trail inside rest rest' :
    List Char} (hlead : isBlank lead = true) (htrail : isBlank trail = true)
    (hclose : cutAt ')' after = some (lead ++ (inside ++ trail), rest))
    (hclose' : cutAt ')' after' = some (inside, rest')) (hname : trim before = trim before')
    (context : Context) :
    resolveCall host path before after context = resolveCall host path' before' after' context := by
  have hblank : isBlank (lead ++ (inside ++ trail)) = isBlank inside := by
    simp only [isBlank, List.all_append] at hlead htrail ⊢
    rw [hlead, htrail, Bool.true_and, Bool.and_true]
  have harguments : resolveArguments context (fields ',' (lead ++ (inside ++ trail))) =
      resolveArguments context (fields ',' inside) := by
    rw [← resolveArguments_map_trim, map_trim_fields_padded (by decide) hlead htrail,
      resolveArguments_map_trim]
  simp only [resolveCall, hclose, hclose', hname, hblank, harguments]

/-- A last piece is trimmed up to its key, and up to the bracket that closes its accessor. -/
theorem Spaced.trim_writtenLast (p : Spaced) : trim p.writtenLast =
    match p.accessor with
    | none => p.last.key.text
    | some a => (p.last.key.text ++ p.last.after.text) ++ a.written := by
  rw [writtenLast]
  cases p.accessor with
  | none =>
    simp only [SpacedKey.written]
    rw [trim_padded p.last.before.isBlank_text p.last.after.isBlank_text, p.last.key.trim_text]
  | some a =>
    have hcloser : isSpace a.bracket.closer = false := by cases a.bracket <;> decide
    have hclosed : trim (p.last.key.text ++ (p.last.after.text ++ a.written)) =
        p.last.key.text ++ (p.last.after.text ++ a.written) := by
      refine trim_append p.last.key.trim_text p.last.key.ne_nil (by simp [Accessor.written])
        fun c hc => ?_
      rw [Accessor.written, ← List.cons_append, ← List.append_assoc, List.getLast?_concat,
        Option.mem_some_iff] at hc
      exact hc ▸ hcloser
    have hbefore := trim_blanks_append p.last.before.isBlank_text
      (p.last.key.text ++ (p.last.after.text ++ a.written))
    rw [hclosed] at hbefore
    simpa using hbefore

/-- A name with an accessor is cut at the bracket that opens. -/
theorem resolveLast_accessor (a : Accessor) {name : List Char}
    (hname : ∀ c ∈ ['[', '('], c ∉ name) (context : Context) :
    resolveLast host (name ++ a.written) context =
      match a.bracket with
      | .square =>
        resolveSubscript (name ++ a.written) name (a.writtenInside ++ [']']) context
      | .round =>
        resolveCall host (name ++ a.written) name (a.writtenInside ++ [')']) context := by
  cases hbracket : a.bracket with
  | square =>
    have hwritten : a.written = '[' :: (a.writtenInside ++ [']']) := by
      rw [Accessor.written, hbracket]
      rfl
    rw [resolveLast, hwritten, cutAt_append (hname '[' (by decide))]
  | round =>
    have hwritten : a.written = '(' :: (a.writtenInside ++ [')']) := by
      rw [Accessor.written, hbracket]
      rfl
    have hinside : '[' ∉ a.writtenInside := a.not_mem_inside (hbracket ▸ by decide)
    have hsquare : '[' ∉ name ++ a.written := by
      simp [hwritten, hname '[' (by decide), hinside]
    rw [resolveLast, cutAt_eq_none_iff.2 hsquare, hwritten, cutAt_append (hname '(' (by decide))]

theorem SpacedKey.trim_name (k : SpacedKey) : trim (k.key.text ++ k.after.text) = k.key.text := by
  rw [trim_append_blanks k.after.isBlank_text, k.key.trim_text]

theorem SpacedKey.not_mem_name (k : SpacedKey) :
    ∀ c ∈ ['[', '('], c ∉ k.key.text ++ k.after.text := by
  intro c hc h
  have hmarks : ['[', '('] ⊆ ['.', '[', ']', '(', ')'] := by simp
  exact k.not_mem (hmarks hc) (List.mem_append_right k.before.text h)

/-- Blanks between a name and its accessor and in the brackets do not matter. -/
theorem resembles_accessor {last last' : SpacedKey} (hkey : last.key = last'.key)
    (a : Accessor) (context : Context) :
    Resembles (resolveLast host ((last.key.text ++ last.after.text) ++ a.written) context)
      (resolveLast host ((last'.key.text ++ last'.after.text) ++ a.bare.written) context) := by
  have hname : trim (last.key.text ++ last.after.text) =
      trim (last'.key.text ++ last'.after.text) := by
    rw [last.trim_name, last'.trim_name, hkey]
  have hbare : a.bare.writtenInside = a.inside := List.append_nil a.inside
  rw [resolveLast_accessor a last.not_mem_name, resolveLast_accessor a.bare last'.not_mem_name, hbare]
  cases hbracket : a.bracket with
  | square =>
    have hclose : cutAt ']' (a.writtenInside ++ [']']) = some (a.writtenInside, []) :=
      cutAt_append (a.not_mem_inside (hbracket ▸ by decide)) []
    have hclose' : cutAt ']' (a.inside ++ [']']) = some (a.inside, []) :=
      cutAt_append (fun h => a.isFree _ h (hbracket ▸ by decide)) []
    have htoken : trim a.writtenInside = trim a.inside :=
      trim_padded a.afterOpener.isBlank_text a.beforeCloser.isBlank_text a.inside
    simp only [Accessor.bare, hbracket]
    exact resembles_resolveSubscript hclose hclose' hname htoken context
  | round =>
    have hclose : cutAt ')' (a.writtenInside ++ [')']) = some (a.writtenInside, []) :=
      cutAt_append (a.not_mem_inside (hbracket ▸ by decide)) []
    have hclose' : cutAt ')' (a.inside ++ [')']) = some (a.inside, []) :=
      cutAt_append (fun h => a.isFree _ h (hbracket ▸ by decide)) []
    simp only [Accessor.bare, hbracket]
    rw [resolveCall_padded a.afterOpener.isBlank_text a.beforeCloser.isBlank_text hclose hclose' hname]
    exact resembles_refl _

/-- Blanks in the last piece of a path do not matter. -/
theorem resembles_writtenLast (p : Spaced) (context : Context) :
    Resembles (resolveLast host (trim p.writtenLast) context)
      (resolveLast host (trim p.narrowed.writtenLast) context) := by
  rw [p.trim_writtenLast, p.narrowed.trim_writtenLast]
  cases haccessor : p.accessor with
  | none =>
    simp only [Spaced.narrowed, haccessor]
    exact resembles_refl _
  | some a =>
    simp only [Spaced.narrowed, haccessor, Option.map_some]
    exact @resembles_accessor host p.last p.last.bare rfl a context

/-! ### Paths -/

/-- A path leads where its pieces lead. -/
theorem resembles_pieces (p : Spaced) (context : Context) :
    Resembles (resolve host p.written (.map context)) (resolveMembers host p.pieces context) := by
  have hfields := @resembles_fields host p.written context
  rwa [p.fields_written] at hfields

/-- The blanks in a path do not matter but for those before its dots. -/
theorem resembles_narrowed (p : Spaced) (context : Context) :
    Resembles (resolve host p.written (.map context))
      (resolve host p.narrowed.written (.map context)) := by
  have hstart : ∀ k : SpacedKey, trimStart k.narrowed.written = trimStart k.written := fun k =>
    (trimStart_padded k.before.isBlank_text _).symm
  have hkeys : (p.keys.map SpacedKey.written).map trimStart =
      (p.narrowed.keys.map SpacedKey.written).map trimStart := by
    simp [Spaced.narrowed, hstart]
  have hpieces : Resembles (resolveMembers host p.pieces context)
      (resolveMembers host p.narrowed.pieces context) :=
    resembles_resolveMembers hkeys (resembles_writtenLast p) context
  exact (resembles_pieces p context).trans (hpieces.trans (resembles_pieces p.narrowed context).symm)

/-- What a path leads to that goes on behind a name. -/
def behind (host : Host) (name rest : List Char) (context : Context) : Evaluation Value := do
  match ← lookup name context with
  | .map entries => resolve host rest (.map entries)
  | _ => Evaluation.throw (.memberOfNonMapping (String.ofList name) (String.ofList rest))

/-- The name before a dot has the blanks before the dot. -/
theorem resembles_behind (p : Spaced) {k : SpacedKey} {keys : List SpacedKey}
    (h : p.keys = k :: keys) (context : Context) :
    Resembles (resolve host p.written (.map context))
      (behind host (k.key.text ++ k.after.text) { p with keys }.written context) := by
  refine (resembles_pieces p context).trans ?_
  have hpieces : p.pieces = k.written :: { p with keys }.pieces := by
    rw [Spaced.pieces, h]
    rfl
  have hname : trimStart k.written = k.key.text ++ k.after.text := by
    have hstart : Stops isSpace k.key.text := (trim_eq_self_iff.1 k.key.trim_text).1
    obtain ⟨c, text, hkey⟩ := List.exists_cons_of_ne_nil k.key.ne_nil
    rw [SpacedKey.written, trimStart_padded k.before.isBlank_text, trimStart_eq_self_iff, hkey]
    exact stops_cons (hstart c (by rw [hkey]; rfl)) _
  obtain ⟨next, rest, hrest⟩ := List.exists_cons_of_ne_nil
    (List.append_ne_nil_of_right_ne_nil (keys.map SpacedKey.written)
      (List.cons_ne_nil p.writtenLast []))
  have hrest : { p with keys }.pieces = next :: rest := hrest
  rw [hpieces, hrest, resolveMembers_cons, hname, ← hrest, behind]
  refine resembles_bind _ fun v => ?_
  cases v with
  | map entries => exact (resembles_pieces { p with keys } entries).symm
  | _ => exact resembles_throw rfl

/-- Blanks in a path do not matter, to what it leads to, what it calls and what kind of error it ends in,
    but for those before its dots. Those are part of the names before the dots; without them the
    path is the one without blanks. -/
theorem resolve_spaced (host : Host) (p : Spaced) (context : Context) :
    Resembles (resolve host p.written (.map context))
      (resolve host p.narrowed.written (.map context)) ∧
    (∀ k keys, p.keys = k :: keys → Resembles (resolve host p.written (.map context))
      (behind host (k.key.text ++ k.after.text) { p with keys }.written context)) ∧
    ((∀ k ∈ p.keys, k.after = .none) → Resembles (resolve host p.written (.map context))
      (resolve host p.bare.written (.map context))) := by
  refine ⟨resembles_narrowed p context, fun k keys h => resembles_behind p h context, fun h => ?_⟩
  have hbare : p.bare = p.narrowed := by
    have hkeys : p.keys.map SpacedKey.bare = p.keys.map SpacedKey.narrowed :=
      List.map_congr_left fun k hk => by rw [SpacedKey.bare, SpacedKey.narrowed, h k hk]
    rw [Spaced.bare, Spaced.narrowed, hkeys]
  exact hbare ▸ resembles_narrowed p context

end

theorem isBlank_space : isBlank [' '] = true := rfl

/-- A key, a blank, a dot, and another key. -/
def blankBeforeDot : Spaced where
  keys := [⟨.none, Key.ofLetter 'a' (by decide) (by decide), ⟨[' '], isBlank_space⟩⟩]
  last := ⟨.none, Key.ofLetter 'b' (by decide) (by decide), .none⟩
  accessor := none

/-- With the blank before its dot the path looks up another name. -/
theorem resolve_blankBeforeDot :
    let context : Context := [(.str "a", .map [(.str "b", .int 1)])]
    blankBeforeDot.written = "a .b".toList ∧ blankBeforeDot.bare.written = "a.b".toList ∧
    resolve Host.none "a .b".toList (.map context) = Evaluation.throw (.undefined "a ") ∧
    resolve Host.none "a.b".toList (.map context) = pure (.int 1) ∧
    ¬Resembles (resolve Host.none blankBeforeDot.written (.map context))
      (resolve Host.none blankBeforeDot.bare.written (.map context)) := by
  refine ⟨rfl, rfl, rfl, rfl, fun h => ?_⟩
  have hspaced : resolve Host.none blankBeforeDot.written
      (.map [(.str "a", .map [(.str "b", .int 1)])]) = Evaluation.throw (.undefined "a ") := rfl
  have hbare : resolve Host.none blankBeforeDot.bare.written
      (.map [(.str "a", .map [(.str "b", .int 1)])]) = pure (.int 1) := rfl
  rw [hspaced, hbare] at h
  cases h

end Path

end Stencil
