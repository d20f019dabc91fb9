import Stencil.Condition
import Stencil.Proofs.Outcome
import Stencil.Proofs.Text.Search

/-!
# What a written condition means

A condition is written as a row of *terms* with combinators between them. A term is one operand, or
two with a sign between them, and there may be blanks around every operand. An operand holds none of
the characters that conditions may not hold, and none that signs and combinators are made of.

A condition that is written in this way is cut into the terms that it was written from, whatever the
signs are that stand in it: the combinators are found because no operand holds one, and no sign is
found where another one stands. So the condition has the meaning of the row (`evaluate_written`): all
terms are evaluated from left to right, the first one that fails decides, and otherwise the results are
combined from left to right.

* `pieces_written`: the terms are found;
* `divide?_written`: so is the sign of a term.
-/

namespace Stencil.Condition

open Text

/-- The characters that no operand holds. -/
def reserved : List Char := forbidden ++ ['&', '|', '=', '<', '>']

/-- A text holds none of the characters that conditions may not hold or are told by. -/
def IsFree (s : List Char) : Prop := ∀ c ∈ s, c ∉ reserved

instance (s : List Char) : Decidable (IsFree s) :=
  List.decidableBAll (· ∉ reserved) s

/-- An operand as it is written, with the blanks around it. -/
structure Operand where
  before : List Char
  text : List Char
  after : List Char
  isBlank_before : isBlank before = true
  isFree_text : IsFree text
  isBlank_after : isBlank after = true

/-- A sign that conditions may hold. -/
inductive Sign where
  | strict
  | loose
  | atLeast
  | atMost
  | above
  | below
  deriving DecidableEq, Repr

/-- A term of a condition. -/
inductive Term where
  | single (operand : Operand)
  | pair (left : Operand) (sign : Sign) (right : Operand)

/-- A condition: its first term, and the others with the combinators before them. -/
structure Row where
  first : Term
  rest : List (Combinator × Term)

/-! ### How conditions are written -/

/-- An operand with the blanks around it. -/
def Operand.written (o : Operand) : List Char := o.before ++ (o.text ++ o.after)

/-- How a sign is written. -/
def Sign.text : Sign → List Char
  | strict => ['=', '=', '=']
  | loose => ['=', '=']
  | atLeast => ['>', '=']
  | atMost => ['<', '=']
  | above => ['>']
  | below => ['<']

/-- What a sign asks of two values. -/
def Sign.comparison : Sign → Comparison
  | strict => .strict
  | loose => .loose
  | atLeast => .order .atLeast
  | atMost => .order .atMost
  | above => .order .above
  | below => .order .below

/-- How a term is written. -/
def Term.written : Term → List Char
  | single operand => operand.written
  | pair left sign right => left.written ++ (sign.text ++ right.written)

/-- How a combinator is written. -/
def combinatorText : Combinator → List Char
  | .and => ['&', '&']
  | .or => ['|', '|']

/-- How terms with combinators before them are written. -/
def writtenRest : List (Combinator × Term) → List Char
  | [] => []
  | (combinator, term) :: rest => combinatorText combinator ++ (term.written ++ writtenRest rest)

/-- How a condition is written. -/
def Row.written (row : Row) : List Char := row.first.written ++ writtenRest row.rest

/-! ### What conditions mean -/

/-- The result of a term: the truth of its operand, or what its sign asks of its operands, the left one
    evaluated before the right one. -/
def Term.result (host : Host) (data : Value) : Term → Evaluation Bool
  | single operand => do return (← Path.resolveOperand host operand.text data).truthy
  | pair left sign right => do
    let a ← Path.resolveOperand host left.text data
    let b ← Path.resolveOperand host right.text data
    Evaluation.ofNumber (sign.comparison.holds a b)

/-- The terms of a condition, from left to right. -/
def Row.terms (row : Row) : List Term := row.first :: row.rest.map Prod.snd

/-- The results of the terms combined from left to right. -/
def Row.combine (row : Row) (result : Term → Bool) : Bool :=
  row.rest.foldl (fun value (combinator, term) => combinator.apply value (result term))
    (result row.first)

/-! ### Free texts -/

theorem isFree_of_isBlank {s : List Char} (h : isBlank s = true) : IsFree s := by
  have hreserved : (reserved.all fun c => !isSpace c) = true := by decide
  intro c hc hmem
  exact absurd (List.all_eq_true.1 h c hc) (by simpa using List.all_eq_true.1 hreserved c hmem)

theorem Operand.isFree_written (o : Operand) : IsFree o.written := by
  intro c hc
  rw [Operand.written, List.mem_append, List.mem_append] at hc
  rcases hc with hc | hc | hc
  · exact isFree_of_isBlank o.isBlank_before c hc
  · exact o.isFree_text c hc
  · exact isFree_of_isBlank o.isBlank_after c hc

theorem IsFree.not_mem {s : List Char} (h : IsFree s) {c : Char} (hc : c ∈ reserved) : c ∉ s :=
  fun hs => h c hs hc

/-- A term holds only those characters of its operands and its sign. -/
theorem Term.not_mem_written {c : Char} (hc : c ∈ reserved) (hsign : c ∉ ['=', '<', '>'])
    (term : Term) : c ∉ term.written := by
  have hchars : ∀ sign : Sign, sign.text ⊆ ['=', '<', '>'] := by
    intro sign
    cases sign <;> decide
  cases term with
  | single operand => exact operand.isFree_written.not_mem hc
  | pair left sign right =>
    rw [Term.written, List.mem_append, List.mem_append, not_or, not_or]
    exact ⟨left.isFree_written.not_mem hc, fun hs => hsign (hchars sign hs),
      right.isFree_written.not_mem hc⟩

/-! ### The terms are found -/

/-- A character that begins no combinator goes to the piece in front. -/
theorem pieces_cons {c : Char} (hand : c ≠ '&') (hor : c ≠ '|') (s : List Char) :
    pieces (c :: s) = (c :: (pieces s).1, (pieces s).2) := by
  cases s with
  | nil => rfl
  | cons d s => rw [pieces, if_neg fun h => hand h.1, if_neg fun h => hor h.1]

theorem pieces_combinatorText (combinator : Combinator) (s : List Char) :
    pieces (combinatorText combinator ++ s) =
      ([], (combinator, (pieces s).1) :: (pieces s).2) := by
  cases combinator <;> rfl

/-- A text without the characters of combinators goes to the piece in front. -/
theorem pieces_append {piece : List Char} (hand : '&' ∉ piece) (hor : '|' ∉ piece) (s : List Char) :
    pieces (piece ++ s) = (piece ++ (pieces s).1, (pieces s).2) := by
  induction piece with
  | nil => rfl
  | cons c piece ih =>
    rw [List.mem_cons, not_or] at hand hor
    rw [List.cons_append, pieces_cons (Ne.symm hand.1) (Ne.symm hor.1), ih hand.2 hor.2]
    rfl

theorem pieces_writtenRest (rest : List (Combinator × Term)) :
    pieces (writtenRest rest) = ([], rest.map fun (combinator, term) => (combinator, term.written)) := by
  induction rest with
  | nil => rfl
  | cons entry rest ih =>
    obtain ⟨combinator, term⟩ := entry
    rw [writtenRest, pieces_combinatorText, pieces_append (term.not_mem_written (by decide) (by decide))
      (term.not_mem_written (by decide) (by decide)), ih, List.append_nil]
    rfl

/-- The pieces of a condition are the terms that it is written from. -/
theorem pieces_written (row : Row) :
    pieces row.written =
      (row.first.written, row.rest.map fun (combinator, term) => (combinator, term.written)) := by
  rw [Row.written, pieces_append (row.first.not_mem_written (by decide) (by decide))
    (row.first.not_mem_written (by decide) (by decide)), pieces_writtenRest, List.append_nil]

/-! ### The sign of a term is found -/

theorem Sign.text_ne_nil (sign : Sign) : sign.text ≠ [] := by
  cases sign <;> exact List.cons_ne_nil _ _

theorem Sign.isSpace_text (sign : Sign) : ∀ c ∈ sign.text, isSpace c = false := by
  have hall : (sign.text.all fun c => !isSpace c) = true := by cases sign <;> decide
  exact fun c hc => by simpa using List.all_eq_true.1 hall c hc

/-- No sign is found in a text of a single operand. -/
theorem divide?_of_isFree {s : List Char} (h : IsFree s) : divide? s = none := by
  have hsigns : ∀ entry ∈ Comparison.signs, ∃ c word, entry.1 = c :: word ∧ c ∈ reserved := by
    simp only [Comparison.signs, List.forall_mem_cons]
    exact ⟨⟨_, _, rfl, by decide⟩, ⟨_, _, rfl, by decide⟩, ⟨_, _, rfl, by decide⟩,
      ⟨_, _, rfl, by decide⟩, ⟨_, _, rfl, by decide⟩, ⟨_, _, rfl, by decide⟩,
      ⟨_, _, rfl, by decide⟩, ⟨_, _, rfl, by decide⟩, nofun⟩
  rw [divide?, List.findSome?_eq_none_iff]
  rintro ⟨sign, comparison⟩ hentry
  obtain ⟨c, word, rfl, hc⟩ := hsigns _ hentry
  simp only [cut_eq_none_of_not_mem (h.not_mem hc), Option.map_none]

/-- The sign between two operands is found, and no other one. -/
theorem divide?_written {left right : List Char} (hleft : IsFree left) (hright : IsFree right)
    (sign : Sign) :
    divide? (left ++ (sign.text ++ right)) = some (sign.comparison, left, right) := by
  -- A sign that is looked for before is no part of this one, and no operand goes on with it.
  have hfound {c : Char} (hc : c ∈ reserved) := cut_append_of_not_mem (hleft.not_mem hc)
  have hlead : ∀ {c : Char}, c ∈ reserved → ∀ word : List Char, dropLead? (c :: word) right = none :=
    fun hc => dropLead?_of_not_mem (hright.not_mem hc)
  have hcut : ∀ {c : Char}, c ∈ reserved → ∀ word : List Char, cut (c :: word) right = none :=
    fun hc => cut_eq_none_of_not_mem (hright.not_mem hc)
  have hnot : '!' ∈ reserved := by decide
  have heq : '=' ∈ reserved := by decide
  have hlt : '<' ∈ reserved := by decide
  have hgt : '>' ∈ reserved := by decide
  simp only [divide?, Comparison.signs, List.findSome?_cons, hfound, hnot, heq, hlt, hgt]
  cases sign <;>
    simp [Sign.text, Sign.comparison, cut, dropLead?, hlead, hcut, hnot, heq, hlt, hgt]

/-! ### Evaluation -/

theorem resolveOperand_congr {host : Host} {data : Value} {s t : List Char} (h : trim s = trim t) :
    Path.resolveOperand host s data = Path.resolveOperand host t data := by
  rw [Path.resolveOperand, Path.resolveOperand, h]

/-- The blanks around an operand do not matter. -/
theorem Operand.trim_written (o : Operand) : trim o.written = trim o.text :=
  trim_padded o.isBlank_before o.isBlank_after o.text

variable {host : Host} {data : Value}

/-- What a piece of a condition evaluates to is the result of the term that it is. -/
theorem evaluateComparison_written (term : Term) :
    evaluateComparison host (trim term.written) data = term.result host data := by
  cases term with
  | single operand =>
    have hfree : IsFree (trim operand.written) := fun c hc =>
      operand.isFree_written c (trim_subset _ hc)
    have htrim : trim (trim operand.written) = trim operand.text := by
      rw [trim_trim, operand.trim_written]
    rw [Term.written, evaluateComparison, divide?_of_isFree hfree, Term.result]
    simp only [resolveOperand_congr htrim]
  | pair left sign right =>
    have hleft : IsFree (trimStart left.written) := fun c hc =>
      left.isFree_written c ((List.dropWhile_sublist isSpace).subset hc)
    have hright : IsFree (trimEnd right.written) := fun c hc =>
      right.isFree_written c (trimEnd_subset _ hc)
    have htrimLeft : trim (trimStart left.written) = trim left.text := by
      rw [trim_trimStart, left.trim_written]
    have htrimRight : trim (trimEnd right.written) = trim right.text := by
      rw [trim_trimEnd, right.trim_written]
    rw [Term.written, trim_append_word sign.text_ne_nil sign.isSpace_text, evaluateComparison,
      divide?_written hleft hright, Term.result]
    simp only [resolveOperand_congr htrimLeft, resolveOperand_congr htrimRight]

theorem evaluateRest_written (rest : List (Combinator × Term)) :
    evaluateRest host data (rest.map fun (combinator, term) => (combinator, trim term.written)) =
      rest.mapM fun (combinator, term) => do return (combinator, ← term.result host data) := by
  induction rest with
  | nil => rfl
  | cons entry rest ih =>
    obtain ⟨combinator, term⟩ := entry
    rw [List.map_cons, evaluateRest, evaluateComparison_written, ih, List.mapM_cons]
    simp only [bind_assoc, pure_bind]

theorem forbiddenIn_written (row : Row) : forbiddenIn row.written = [] := by
  have hforbidden : (forbidden.all fun c => c ∈ reserved ∧ c ∉ ['=', '<', '>'] ∧ c ∉ ['&', '|']) =
      true := by
    decide
  have hcombinator : ∀ combinator : Combinator, combinatorText combinator ⊆ ['&', '|'] := by
    intro combinator
    cases combinator <;> decide
  rw [forbiddenIn, List.filter_eq_nil_iff]
  intro c hc
  obtain ⟨hreserved, hsign, hbetween⟩ := of_decide_eq_true (List.all_eq_true.1 hforbidden c hc)
  have hrest : ∀ rest, c ∉ writtenRest rest := by
    intro rest
    induction rest with
    | nil => exact List.not_mem_nil
    | cons entry rest ih =>
      obtain ⟨combinator, term⟩ := entry
      rw [writtenRest, List.mem_append, List.mem_append, not_or, not_or]
      exact ⟨fun h => hbetween (hcombinator combinator h), term.not_mem_written hreserved hsign, ih⟩
  rw [decide_eq_true_eq, Row.written, List.mem_append, not_or]
  exact ⟨row.first.not_mem_written hreserved hsign, hrest row.rest⟩

/-- A written condition is evaluated term by term. -/
theorem evaluate_eq_terms (row : Row) :
    evaluate host row.written data = (do
      let first ← row.first.result host data
      let others ← row.rest.mapM fun (combinator, term) => do
        return (combinator, ← term.result host data)
      return reduce first others) := by
  rw [evaluate, forbiddenIn_written, split, pieces_written]
  simp only [List.map_map, evaluateComparison_written]
  exact congrArg _ (funext fun first => congrArg (· >>= _) (evaluateRest_written row.rest))

theorem outcome_evaluate_of_error {row : Row} {before after : List Term} {term : Term}
    {failure : Failure} (hterms : row.terms = before ++ term :: after)
    (hbefore : ∀ t ∈ before, ∃ b, (t.result host data).Gives b)
    (hterm : (term.result host data).outcome = .error failure) :
    (evaluate host row.written data).outcome = .error failure := by
  rw [evaluate_eq_terms]
  cases before with
  | nil =>
    obtain ⟨rfl, -⟩ := List.cons.inj hterms
    rw [Traced.bind_of_error hterm]
  | cons first before =>
    obtain ⟨rfl, hrest⟩ := List.cons.inj hterms
    rw [List.forall_mem_cons] at hbefore
    obtain ⟨⟨b, hb⟩, hbefore⟩ := hbefore
    obtain ⟨others, more, hothers, rfl, hmore⟩ := List.map_eq_append_iff.1 hrest
    obtain ⟨⟨combinator, t⟩, others', rfl, rfl, -⟩ := List.map_eq_cons_iff.1 hmore
    -- The combinator of a term has no part in its failure.
    have hfails : (do return (combinator, ← t.result host data) :
        Evaluation (Combinator × Bool)).outcome = .error failure := by
      rw [Traced.bind_of_error hterm]
    have hgive : ∀ entry ∈ others, ∃ value, (do return (entry.1, ← entry.2.result host data) :
        Evaluation (Combinator × Bool)).Gives value := by
      intro entry hentry
      obtain ⟨value, hvalue⟩ := hbefore _ (List.mem_map_of_mem hentry)
      exact ⟨_, Evaluation.gives_bind.2 ⟨value, hvalue, Evaluation.gives_pure.2 rfl⟩⟩
    have hrow := @Evaluation.outcome_mapM_of_error _ _ _ others others' (combinator, t) _ hgive hfails
    rw [Traced.bind_of_ok hb, hothers]
    exact congrArg Traced.outcome (Traced.bind_of_error hrow _)

theorem gives_evaluate {row : Row} {result : Term → Bool}
    (h : ∀ term ∈ row.terms, (term.result host data).Gives (result term)) :
    (evaluate host row.written data).Gives (row.combine result) := by
  rw [Row.terms, List.forall_mem_cons] at h
  have hrest : ∀ entry ∈ row.rest, (do return (entry.1, ← entry.2.result host data) :
      Evaluation (Combinator × Bool)).Gives (entry.1, result entry.2) := fun entry hentry =>
    Evaluation.gives_bind.2 ⟨_, h.2 _ (List.mem_map_of_mem hentry), Evaluation.gives_pure.2 rfl⟩
  rw [evaluate_eq_terms]
  refine Evaluation.gives_bind_bind_pure.2 ⟨_, _, h.1, Evaluation.gives_mapM hrest, ?_⟩
  rw [reduce, List.foldl_map, Row.combine]

/-- The meaning of a written condition: its terms are evaluated from left to right, all of them as long
    as none fails. The first one that fails decides. If none does, their results are combined from left
    to right, and no combinator goes before another. -/
theorem evaluate_written (host : Host) (row : Row) (data : Value) :
    (evaluate host row.written data = do
      let first ← row.first.result host data
      let others ← row.rest.mapM fun (combinator, term) => do
        return (combinator, ← term.result host data)
      return others.foldl (fun value (combinator, result) => combinator.apply value result) first) ∧
    (∀ result : Term → Bool, (∀ term ∈ row.terms, (term.result host data).Gives (result term)) →
      (evaluate host row.written data).Gives (row.combine result)) ∧
    ∀ before term after failure, row.terms = before ++ term :: after →
      (∀ t ∈ before, ∃ b, (t.result host data).Gives b) →
      (term.result host data).outcome = .error failure →
      (evaluate host row.written data).outcome = .error failure :=
  ⟨evaluate_eq_terms row, fun _ h => gives_evaluate h,
    fun _ _ _ _ hterms hbefore hterm => outcome_evaluate_of_error hterms hbefore hterm⟩

/-- An operand with one blank on either side. -/
def Operand.spaced (text : List Char) (h : IsFree text) : Operand :=
  ⟨[' '], text, [' '], rfl, h, rfl⟩

/-- Three terms with both combinators, and two of which the second one is no literal: it fails, although
    the first one already decides the result. -/
theorem evaluate_written_terms :
    (evaluate Host.none " \x7b\x7ba\x7d\x7d === 'x' && 'x' == 'y' || true ".toList
      (.map [(.str "a", .str "x")])).Gives true ∧
    (evaluate Host.none " true || x ".toList (.map [])).outcome =
      .error (.template (.badLiteral "'x'")) := by
  let equal := Term.pair (.spaced "\x7b\x7ba\x7d\x7d".toList (by decide)) .strict
    (.spaced "'x'".toList (by decide))
  let same := Term.pair (.spaced "'x'".toList (by decide)) .loose (.spaced "'y'".toList (by decide))
  let holds := Term.single (.spaced "true".toList (by decide))
  let name := Term.single (.spaced ['x'] (by decide))
  constructor
  · let result : Term → Bool := fun term =>
      match term with
      | .pair _ .loose _ => false
      | _ => true
    have hwritten : (⟨equal, [(.and, same), (.or, holds)]⟩ : Row).written =
      " \x7b\x7ba\x7d\x7d === 'x' && 'x' == 'y' || true ".toList := by decide
    rw [← hwritten]
    refine (evaluate_written Host.none ⟨equal, [(.and, same), (.or, holds)]⟩
      (.map [(.str "a", .str "x")])).2.1 result ?_
    simp only [Row.terms, List.map_cons, List.map_nil, List.forall_mem_cons]
    exact ⟨rfl, rfl, rfl, nofun⟩
  · refine (evaluate_written Host.none ⟨holds, [(.or, name)]⟩ (.map [])).2.2 [holds] name [] _ rfl ?_ rfl
    rw [List.forall_mem_singleton]
    exact ⟨true, rfl⟩

end Stencil.Condition
