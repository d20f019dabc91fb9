import Stencil.Path
import Stencil.Proofs.Literal
import Stencil.Proofs.Outcome

/-!
# What a written path leads to

A path is written as *keys* with dots between them and a last piece, which is a key alone or a key with
an accessor: an index or a text in quotes in brackets, or arguments in parentheses. A key holds none of
the punctuation that pieces and accessors are told by. A text in quotes may hold all of it but the dot
and the closing bracket, and an argument its own closing bracket; so no accessor is taken for another
one, and no dot of an accessor ends a piece.

Such a path leads to what it says (`resolve_written`): the keys are looked up one in the other, as long
as there are mappings, and the accessor is applied to what the last one leads to. The first step that
cannot be taken decides the error. A function is called once at most, when all arguments have values.

* `resolveLast_written`: the last piece, one case for each of its forms;
* `resolveMembers_written`: the keys before it, one after the other;
* `length_calls_value`, `length_calls_valueBehind`: what is called.
-/

namespace Stencil.Path

open Text

/-! ### How paths are written -/

/-- A name in a path. -/
structure Key where
  text : List Char
  ne_nil : text ≠ []
  trim_text : trim text = text
  isFree : ∀ c ∈ text, c ∉ ['.', '[', ']', '(', ')']

/-- A sign and digits in brackets, few enough to be an integer. -/
structure Index where
  numeral : Numeral.Form
  fraction_eq : numeral.fraction = none
  exponent_eq : numeral.exponent = none
  length_le : numeral.whole.length ≤ NumberFault.maxDigits

/-- A text in quotes in brackets. -/
structure Quoted where
  quote : Char
  text : List Char
  isQuote : Literal.isQuote quote = true
  isFree : ∀ c ∈ text, c ∉ ['.', ']', '\x27', '"']

/-- What an argument is: a literal, or a reference to a key. -/
inductive Token where
  | literal (l : Literal.Form)
  | reference (before : List Char) (key : Key) (after : List Char)
      (isBlank_before : isBlank before = true) (isBlank_after : isBlank after = true)

/-- How a literal or a reference is written. -/
def Token.written : Token → List Char
  | literal l => l.written
  | reference before key after _ _ =>
    '\x7b' :: '\x7b' :: ((before ++ (key.text ++ after)) ++ ['\x7d', '\x7d'])

/-- An argument with the blanks around it. -/
structure Argument where
  before : List Char
  token : Token
  after : List Char
  isBlank_before : isBlank before = true
  isBlank_after : isBlank after = true
  isFree : ∀ c ∈ token.written, c ∉ ['.', ',', '(', ')', '[']

/-- The last piece of a path. -/
inductive Last where
  | key (k : Key)
  | index (k : Key) (i : Index)
  | property (k : Key) (q : Quoted)
  | call (k : Key) (args : List Argument)

/-- A path: the keys before its last piece, and that piece. -/
structure Form where
  keys : List Key
  last : Last

/-- How an argument is written. -/
def Argument.written (a : Argument) : List Char := a.before ++ (a.token.written ++ a.after)

/-- How a text in quotes is written. -/
def Quoted.written (q : Quoted) : List Char := q.quote :: (q.text ++ [q.quote])

/-- How the last piece of a path is written. -/
def Last.written : Last → List Char
  | key k => k.text
  | index k i => k.text ++ '[' :: (i.numeral.written ++ [']'])
  | property k q => k.text ++ '[' :: (q.written ++ [']'])
  | call k args => k.text ++ '(' :: (join [','] (args.map Argument.written) ++ [')'])

/-- How keys are written before the last piece of a path. -/
def Last.writtenBehind (last : Last) : List Key → List Char
  | [] => last.written
  | k :: keys => k.text ++ '.' :: last.writtenBehind keys

/-- How a path is written. -/
def Form.written (p : Form) : List Char := p.last.writtenBehind p.keys

/-! ### What paths lead to -/

/-- The name that a key looks up. -/
def Key.name (k : Key) : String := String.ofList k.text

/-- The text in the quotes. -/
def Quoted.name (q : Quoted) : String := String.ofList q.text

/-- The integer in the brackets. -/
def Index.value (i : Index) : Int :=
  i.numeral.sign.apply (Numeral.ofDigits (digitValues i.numeral.whole))

/-- The elements that an index counts: the characters of a text, those of a sequence, and the numbers
    of bytes. -/
def elements? : Value → Option (List Value)
  | .str s => some (s.toList.map fun c => .str (String.singleton c))
  | .list items => some items
  | .tuple items => some items
  | .bytes data => some (data.map fun b => .int b.toNat)
  | _ => none

/-- What a literal or a reference stands for. -/
def Token.value (context : Context) : Token → Evaluation Value
  | literal l => l.value
  | reference _ key _ _ _ => lookup key.text context

/-- What the last piece of a path leads to from a context. -/
def Last.value (host : Host) (context : Context) : Last → Evaluation Value
  | key k => lookup k.text context
  | index k i => do
    match elements? (← lookup k.text context) with
    | none => Evaluation.throw (.indexOfNonSequence i.value k.name)
    | some items =>
      if h : 0 ≤ i.value ∧ i.value < items.length then
        return items[i.value.toNat]
      else Evaluation.throw (.indexOutOfRange i.value k.name items.length)
  | property k q => do
    match ← lookup k.text context with
    | .map entries =>
      match Context.get? entries q.name with
      | some v => return v
      | none => Evaluation.throw (.undefinedProperty q.name k.name)
    | _ => Evaluation.throw (.propertyOfNonMapping q.name k.name)
  | call k args =>
    match Context.get? context k.name with
    | none => Evaluation.throw (.undefinedFunction k.name)
    | some (.fn function) => do
      let values ← args.mapM fun a => a.token.value context
      Evaluation.call host function values
    | some _ => Evaluation.throw (.notFunction k.name)

/-- What keys before the last piece of a path lead to from a context. -/
def Last.valueBehind (host : Host) (last : Last) : List Key → Context → Evaluation Value
  | [], context => last.value host context
  | k :: keys, context => do
    match ← lookup k.text context with
    | .map entries => last.valueBehind host keys entries
    | _ =>
      Evaluation.throw (.memberOfNonMapping k.name (String.ofList (last.writtenBehind keys)))

/-- What a path leads to from a context. -/
def Form.value (host : Host) (p : Form) (context : Context) : Evaluation Value :=
  p.last.valueBehind host p.keys context

/-! ### The parts are found -/

theorem Key.not_mem (k : Key) {c : Char} (hc : c ∈ ['.', '[', ']', '(', ')']) : c ∉ k.text :=
  fun h => k.isFree c h hc

/-- An index is written without a point. -/
theorem Index.written_eq (i : Index) :
    i.numeral.written = i.numeral.sign.written ++ i.numeral.whole := by
  simp [Numeral.Form.written, Numeral.Form.tail, i.fraction_eq, i.exponent_eq, Numeral.exponentText]

theorem Index.not_mem (i : Index) {c : Char} (hc : c ∈ ['.', '[', ']', '(', ')']) :
    c ∉ i.numeral.written := by
  have hmarks : ∀ c ∈ ['.', '[', ']', '(', ')'], c ∉ ['+', '-'] ∧ isDigit c = false :=
    forall_mem_of_all (by decide)
  rw [i.written_eq, List.mem_append, not_or]
  refine ⟨fun h => (hmarks c hc).1 (i.numeral.sign.written_subset h), fun h => ?_⟩
  exact absurd (i.numeral.isDigits_whole c h) (by simp [(hmarks c hc).2])

theorem Index.readInt?_written (i : Index) : Numeral.readInt? i.numeral.written = some i.value := by
  have hne := i.numeral.ne_nil
  rw [i.fraction_eq, Option.getD_none, List.append_nil] at hne
  rw [i.written_eq]
  exact Numeral.readInt?_written _ i.numeral.isDigits_whole hne i.length_le

theorem Quoted.not_mem (q : Quoted) {c : Char} (hc : c ∈ ['.', ']']) : c ∉ q.written := by
  have hquote : c ≠ q.quote := by
    have hquotes : ∀ c ∈ ['.', ']'], Literal.isQuote c = false := forall_mem_of_all (by decide)
    rintro rfl
    exact absurd q.isQuote (by simp [hquotes q.quote hc])
  have htext : c ∉ q.text := fun h => q.isFree c h (List.mem_append_left ['\x27', '"'] hc)
  simp [Quoted.written, hquote, htext]

theorem Token.trim_written (t : Token) : trim t.written = t.written := by
  cases t with
  | literal l => exact l.trim_written
  | reference before key after _ _ =>
    rw [trim_eq_self_iff]
    have hlast : ('\x7b' :: '\x7b' :: ((before ++ (key.text ++ after)) ++ ['\x7d', '\x7d'])).getLast? =
        some '\x7d' := by
      rw [← List.cons_append, ← List.cons_append, List.getLast?_append]
      rfl
    refine ⟨stops_cons (by decide) _, fun c hc => ?_⟩
    rw [written, hlast, Option.mem_some_iff] at hc
    exact hc ▸ by decide

theorem Token.written_ne_nil (t : Token) : t.written ≠ [] := by
  cases t with
  | literal l => exact l.written_ne_nil
  | reference => exact List.cons_ne_nil _ _

theorem Quoted.trim_written (q : Quoted) : trim q.written = q.written :=
  (Literal.Form.quoted q.quote q.isQuote q.text).trim_written

/-- The punctuation that an argument does not hold. -/
theorem Argument.not_mem (a : Argument) {c : Char} (hc : c ∈ ['.', ',', '(', ')', '[']) :
    c ∉ a.written := by
  have hspace : ∀ c ∈ ['.', ',', '(', ')', '['], isSpace c = false := forall_mem_of_all (by decide)
  have hblank : ∀ {s : List Char}, isBlank s = true → c ∉ s := fun hs h =>
    absurd (List.all_eq_true.1 hs c h) (by simp [hspace c hc])
  rw [Argument.written, List.mem_append, List.mem_append, not_or, not_or]
  exact ⟨hblank a.isBlank_before, fun h => a.isFree c h hc, hblank a.isBlank_after⟩

theorem not_mem_join_arguments (args : List Argument) {c : Char} (hc : c ∈ ['.', '(', ')', '[']) :
    c ∉ join [','] (args.map Argument.written) := by
  have hcomma : ∀ c ∈ ['.', '(', ')', '['], c ∉ [','] ∧ c ∈ ['.', ',', '(', ')', '['] :=
    forall_mem_of_all (by decide)
  intro h
  rcases mem_of_mem_join h with h | ⟨word, hword, h⟩
  · exact (hcomma c hc).1 h
  · obtain ⟨a, -, rfl⟩ := List.mem_map.1 hword
    exact a.not_mem (hcomma c hc).2 h

theorem fields_arguments {args : List Argument} (hne : args ≠ []) :
    fields ',' (join [','] (args.map Argument.written)) = args.map Argument.written := by
  refine fields_join (by simpa using hne) fun word hword => ?_
  obtain ⟨a, -, rfl⟩ := List.mem_map.1 hword
  exact a.not_mem (by decide)

/-- Arguments are not blank. -/
theorem isBlank_arguments {args : List Argument} (hne : args ≠ []) :
    isBlank (join [','] (args.map Argument.written)) = false := by
  obtain ⟨a, rest, rfl⟩ := List.exists_cons_of_ne_nil hne
  by_contra hblank
  rw [Bool.not_eq_false, isBlank, List.all_eq_true] at hblank
  have hsubset : a.written ⊆ join [','] ((a :: rest).map Argument.written) :=
    subset_of_mem_fields (by rw [fields_arguments hne]; exact List.mem_cons_self)
  have htoken : isBlank a.token.written = true := List.all_eq_true.2 fun c hc =>
    hblank c (hsubset (List.mem_append_right a.before (List.mem_append_left a.after hc)))
  exact a.token.written_ne_nil (a.token.trim_written ▸ trim_of_forall htoken)

/-! ### The last piece -/

section

variable (host : Host) (context : Context)

theorem reference?_literal (l : Literal.Form) : reference? l.written = none := by
  have hhead := l.head_written
  cases hl : l.written with
  | nil => rfl
  | cons c s =>
    rw [hl] at hhead
    have hc : c ≠ '\x7b' := by simpa using hhead c rfl
    rw [reference?]
    exact fun rest h => hc (List.cons.inj h).1

/-- An argument has the value of the literal or the reference that it is. -/
theorem resolveArgument_written (a : Argument) :
    resolveArgument context a.written = a.token.value context := by
  have htrim : trim a.written = a.token.written := by
    rw [Argument.written, trim_padded a.isBlank_before a.isBlank_after, a.token.trim_written]
  rw [resolveArgument, htrim]
  cases a.token with
  | literal l => simp only [Token.written, reference?_literal, l.read_written, Token.value]
  | reference before key after hbefore hafter =>
    have hreference : reference? (Token.reference before key after hbefore hafter).written =
        some (before ++ (key.text ++ after)) := by
      simp [Token.written, reference?]
    rw [hreference]
    simp only [trim_padded hbefore hafter, key.trim_text, if_neg (key.not_mem (by decide) : '(' ∉ key.text),
      Token.value]

theorem resolveArguments_written (args : List Argument) :
    resolveArguments context (args.map Argument.written) =
      args.mapM fun a => a.token.value context := by
  induction args with
  | nil => rfl
  | cons a args ih =>
    rw [List.map_cons, resolveArguments, resolveArgument_written, ih, List.mapM_cons]

theorem get?_eq {α : Type} (i : Int) (items : List α) :
    element?.get? i items =
      if h : 0 ≤ i ∧ i < items.length then some items[i.toNat] else none := by
  rw [element?.get?]
  by_cases hneg : i < 0
  · rw [if_pos hneg, dif_neg fun h => absurd h.1 (Int.not_le.2 hneg)]
  · rw [if_neg hneg]
    split_ifs with h
    · exact List.getElem?_eq_getElem (by omega)
    · exact List.getElem?_eq_none (by omega)

/-- An index counts the elements of a value from zero on. -/
theorem element?_eq (i : Int) (v : Value) :
    element? i v = (elements? v).map fun items => (element?.get? i items, items.length) := by
  have hmap : ∀ {α : Type} (f : α → Value) (items : List α),
      (element?.get? i items).map f = element?.get? i (items.map f) := by
    intro α f items
    rw [element?.get?, element?.get?]
    split_ifs
    · rfl
    · exact List.getElem?_map.symm
  cases v with
  | str s => simp [element?, elements?, hmap]
  | bytes data => simp [element?, elements?, hmap]
  | _ => rfl

theorem resolveLast_key (k : Key) :
    resolveLast host (Last.key k).written context = (Last.key k).value host context := by
  have hbracket : cutAt '[' k.text = none := cutAt_eq_none_iff.2 (k.not_mem (by decide))
  have hparenthesis : cutAt '(' k.text = none := cutAt_eq_none_iff.2 (k.not_mem (by decide))
  simp only [Last.written, resolveLast, hbracket, hparenthesis, Last.value]

theorem resolveLast_index (k : Key) (i : Index) :
    resolveLast host (Last.index k i).written context = (Last.index k i).value host context := by
  have hcut : cutAt '[' (Last.index k i).written = some (k.text, i.numeral.written ++ [']']) :=
    cutAt_append (k.not_mem (by decide)) _
  have hclose : cutAt ']' (i.numeral.written ++ [']']) = some (i.numeral.written, []) :=
    cutAt_append (i.not_mem (by decide)) []
  have htrim : trim i.numeral.written = i.numeral.written :=
    trim_of_forall_not_space fun c hc => i.numeral.isSpace_of_mem_written hc
  simp only [resolveLast, hcut, resolveSubscript, hclose, k.trim_text, htrim,
    Literal.Form.unquote?_numeral, i.readInt?_written, Last.value, element?_eq]
  refine congrArg (_ >>= ·) (funext fun base => ?_)
  cases elements? base with
  | none => rfl
  | some items =>
    simp only [Option.map_some, get?_eq]
    split_ifs <;> rfl

theorem resolveLast_property (k : Key) (q : Quoted) :
    resolveLast host (Last.property k q).written context = (Last.property k q).value host context := by
  have hcut : cutAt '[' (Last.property k q).written = some (k.text, q.written ++ [']']) :=
    cutAt_append (k.not_mem (by decide)) _
  have hclose : cutAt ']' (q.written ++ [']']) = some (q.written, []) :=
    cutAt_append (q.not_mem (by decide)) []
  have hunquote : Literal.unquote? q.written = some q.text := Literal.unquote?_quoted q.isQuote q.text
  simp only [resolveLast, hcut, resolveSubscript, hclose, k.trim_text, q.trim_written, hunquote,
    Last.value]
  rfl

theorem resolveLast_call (k : Key) (args : List Argument) :
    resolveLast host (Last.call k args).written context = (Last.call k args).value host context := by
  have hbracket : cutAt '[' (Last.call k args).written = none := by
    refine cutAt_eq_none_iff.2 ?_
    simp [Last.written, k.not_mem, not_mem_join_arguments]
  have hcut : cutAt '(' (Last.call k args).written =
      some (k.text, join [','] (args.map Argument.written) ++ [')']) :=
    cutAt_append (k.not_mem (by decide)) _
  have hclose : cutAt ')' (join [','] (args.map Argument.written) ++ [')']) =
      some (join [','] (args.map Argument.written), []) :=
    cutAt_append (not_mem_join_arguments args (by decide)) []
  simp only [resolveLast, hbracket, hcut, resolveCall, hclose, k.trim_text, Last.value, Key.name]
  cases Context.get? context (String.ofList k.text) with
  | none => rfl
  | some v =>
    cases v with
    | fn function =>
      by_cases hne : args = []
      · subst hne
        rfl
      · simp only [isBlank_arguments hne, if_neg Bool.false_ne_true, fields_arguments hne,
          resolveArguments_written]
    | _ => rfl

/-- The last piece of a path leads to what it says. -/
theorem resolveLast_written (last : Last) :
    resolveLast host last.written context = last.value host context := by
  cases last with
  | key k => exact resolveLast_key host context k
  | index k i => exact resolveLast_index host context k i
  | property k q => exact resolveLast_property host context k q
  | call k args => exact resolveLast_call host context k args

end

/-! ### The pieces before -/

/-- The last piece of a path holds no dot. -/
theorem Last.not_mem_written (last : Last) : '.' ∉ last.written := by
  cases last with
  | key k => exact k.not_mem (by decide)
  | index k i =>
    simp [written, k.not_mem, i.not_mem]
  | property k q => simp [written, k.not_mem, q.not_mem]
  | call k args => simp [written, k.not_mem, not_mem_join_arguments]

theorem Last.written_ne_nil (last : Last) : last.written ≠ [] := by
  cases last <;> simp [written, Key.ne_nil]

theorem Last.trim_written (last : Last) : trim last.written = last.written := by
  -- What stands behind the key ends in the bracket that closes it.
  have hclosed : ∀ (k : Key) (c d : Char) (inside : List Char), isSpace d = false →
      trim (k.text ++ c :: (inside ++ [d])) = k.text ++ c :: (inside ++ [d]) := by
    intro k c d inside hd
    refine trim_append k.trim_text k.ne_nil (List.cons_ne_nil c _) fun e he => ?_
    rw [← List.cons_append, List.getLast?_concat, Option.mem_some_iff] at he
    exact he ▸ hd
  cases last with
  | key k => exact k.trim_text
  | index k i => exact hclosed k _ _ _ (by decide)
  | property k q => exact hclosed k _ _ _ (by decide)
  | call k args => exact hclosed k _ _ _ (by decide)

/-- A path has no blanks at its ends. -/
theorem trim_writtenBehind (last : Last) (keys : List Key) :
    trim (last.writtenBehind keys) = last.writtenBehind keys ∧ last.writtenBehind keys ≠ [] := by
  induction keys with
  | nil => exact ⟨last.trim_written, last.written_ne_nil⟩
  | cons k keys ih =>
    refine ⟨trim_append k.trim_text k.ne_nil (List.cons_ne_nil _ _) fun c hc => ?_, by
      simp [Last.writtenBehind]⟩
    obtain ⟨d, s, hds⟩ := List.exists_cons_of_ne_nil ih.2
    rw [hds, List.getLast?_cons_cons, ← hds] at hc
    exact (trim_eq_self_iff.1 ih.1).2 c hc

/-- The keys of a path are looked up one in the other, and its last piece in what they lead to. -/
theorem resolveMembers_written (host : Host) (last : Last) (keys : List Key) (context : Context) :
    resolveMembers host (fields '.' (last.writtenBehind keys)) context =
      last.valueBehind host keys context := by
  induction keys generalizing context with
  | nil =>
    rw [Last.writtenBehind, fields_of_not_mem last.not_mem_written, resolveMembers,
      last.trim_written, resolveLast_written, Last.valueBehind]
  | cons k keys ih =>
    have hjoin := join_fields '.' (last.writtenBehind keys)
    have hstart : trimStart k.text = k.text := trimStart_eq_self_iff.2 (trim_eq_self_iff.1 k.trim_text).1
    rw [Last.writtenBehind, fields_append (k.not_mem (by decide))]
    obtain ⟨next, rest, hfields⟩ :=
      List.exists_cons_of_ne_nil (fields_ne_nil '.' (last.writtenBehind keys))
    rw [hfields] at hjoin ih ⊢
    rw [resolveMembers_cons, hjoin, hstart, Last.valueBehind]
    refine congrArg (_ >>= ·) (funext fun v => ?_)
    cases v with
    | map entries => exact ih entries
    | _ => rfl

/-! ### Calls -/

/-- How many calls a path with this last piece makes, if it leads to a value. -/
def Last.callCount : Last → Nat
  | call _ _ => 1
  | _ => 0

section

open Evaluation

theorem calls_lookup (name : List Char) (context : Context) : (lookup name context).calls = [] := by
  rw [lookup]
  split <;> rfl

theorem calls_token (context : Context) (t : Token) : (t.value context).calls = [] := by
  cases t with
  | literal l =>
    cases l with
    | number n =>
      rw [Token.value, Literal.Form.value, Literal.Form.ofNumeral.eq_def]
      split
      · exact calls_bind_eq_nil rfl fun _ _ => rfl
      · rfl
    | _ => rfl
  | reference _ key _ _ _ => exact calls_lookup key.text context

/-- The last piece of a path calls its function once if it leads to a value, and else at most once. -/
theorem length_calls_value (host : Host) (context : Context) (last : Last) :
    (last.value host context).calls.length ≤ last.callCount ∧
      ∀ v, (last.value host context).Gives v →
        (last.value host context).calls.length = last.callCount := by
  have hsilent : ∀ {x : Evaluation Value}, x.calls = [] →
      x.calls.length ≤ 0 ∧ ∀ v, x.Gives v → x.calls.length = 0 := by
    intro x hx
    simp [hx]
  cases last with
  | key k => exact hsilent (calls_lookup k.text context)
  | index k i =>
    refine hsilent (calls_bind_eq_nil (calls_lookup k.text context) fun base _ => ?_)
    split
    · rfl
    · split_ifs <;> rfl
  | property k q =>
    refine hsilent (calls_bind_eq_nil (calls_lookup k.text context) fun base _ => ?_)
    split
    · split <;> rfl
    · rfl
  | call k args =>
    rw [Last.value, Last.callCount]
    split
    · exact ⟨Nat.zero_le 1, fun v hv => absurd hv not_gives_throw⟩
    next function _ =>
      have hargs : (args.mapM fun (a : Argument) => a.token.value context).calls = [] :=
        calls_mapM_eq_nil fun a _ => calls_token context a.token
      cases houtcome : (args.mapM fun (a : Argument) => a.token.value context).outcome with
      | ok values =>
        rw [calls_bind_of_gives hargs houtcome]
        exact ⟨Nat.le_refl 1, fun _ _ => rfl⟩
      | error failure =>
        rw [Traced.bind_of_error houtcome, hargs]
        exact ⟨Nat.zero_le 1, fun v hv => by cases hv⟩
    · exact ⟨Nat.zero_le 1, fun v hv => absurd hv not_gives_throw⟩

/-- The keys before the last piece call nothing. -/
theorem length_calls_valueBehind (host : Host) (last : Last) (keys : List Key) (context : Context) :
    (last.valueBehind host keys context).calls.length ≤ last.callCount ∧
      ∀ v, (last.valueBehind host keys context).Gives v →
        (last.valueBehind host keys context).calls.length = last.callCount := by
  induction keys generalizing context with
  | nil => exact length_calls_value host context last
  | cons k keys ih =>
    rw [Last.valueBehind]
    have hk := calls_lookup k.text context
    cases houtcome : (lookup k.text context).outcome with
    | error failure =>
      rw [Traced.bind_of_error houtcome, hk]
      exact ⟨Nat.zero_le _, fun v hv => by cases hv⟩
    | ok v =>
      rw [calls_bind_of_gives hk houtcome]
      simp only [Gives, Gives.outcome_bind houtcome]
      cases v with
      | map entries => exact ih entries
      | _ => exact ⟨Nat.zero_le _, fun v hv => absurd hv not_gives_throw⟩

end

/-! ### Paths -/

/-- A written path leads to what it says, and says why if it leads nowhere. If it ends in arguments its
    function is called once, when all of them have values; nothing else is called. -/
theorem resolve_written (host : Host) (p : Form) (context : Context) :
    resolve host p.written (.map context) = p.value host context ∧
      (resolve host p.written (.map context)).calls.length ≤ p.last.callCount ∧
      ∀ v, (resolve host p.written (.map context)).Gives v →
        (resolve host p.written (.map context)).calls.length = p.last.callCount := by
  have hvalue : resolve host p.written (.map context) = p.value host context := by
    rw [resolve, Form.written, (trim_writtenBehind p.last p.keys).1, resolveMembers_written, Form.value]
  rw [hvalue]
  exact ⟨rfl, length_calls_valueBehind host p.last p.keys context⟩

/-- A key that is one letter. -/
def Key.ofLetter (c : Char) (hspace : isSpace c = false) (hfree : c ∉ ['.', '[', ']', '(', ')']) : Key where
  text := [c]
  ne_nil := List.cons_ne_nil c []
  trim_text := trim_of_forall_not_space (by simpa using hspace)
  isFree := by simpa using hfree

example :
    let a := Key.ofLetter 'a' (by decide) (by decide)
    let f := Key.ofLetter 'f' (by decide) (by decide)
    let word : Argument := ⟨[' '], .literal (.bool true), [], rfl, rfl, forall_mem_of_all (by decide)⟩
    let reference : Argument :=
      ⟨[], .reference [' '] a [' '] rfl rfl, [], rfl, rfl, forall_mem_of_all (by decide)⟩
    (Form.mk [a] (.call f [word, reference])).written = "a.f( true,\x7b\x7b a \x7d\x7d)".toList := by
  decide

end Stencil.Path
