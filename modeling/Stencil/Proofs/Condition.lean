import Stencil.Condition
import Stencil.Proofs.Path

/-!
# Errors of conditions

The characters that conditions may not hold are looked for first. A condition without them ends in
errors about values only, and in none about a malformed accessor: its operands are pieces of it, and so
they have neither brackets nor parentheses (`ensures_evaluate`). The only malformed accessor that a
condition is reported for is thus one of those characters (`forbidden_of_raises`).
-/

namespace Stencil.Condition

variable {host : Host} {data : Value} {s : List Char}

/-! ### Operands are pieces of the condition -/

theorem isInfix_of_reference? {inside : List Char} (h : Path.reference? s = some inside) :
    inside <:+: s := by
  unfold Path.reference? at h
  split at h
  next rest =>
    split at h
    next reversed heq =>
      obtain rfl := Option.some.inj h
      have hrest : rest = reversed.reverse ++ ['}', '}'] := by
        rw [← List.reverse_inj, heq]
        simp
      exact ⟨['{', '{'], ['}', '}'], by rw [hrest]; rfl⟩
    · cases h
  · cases h

theorem isInfix_of_divide? {comparison : Comparison} {left right : List Char}
    (h : divide? s = some (comparison, left, right)) : left <:+: s ∧ right <:+: s := by
  rw [divide?, List.findSome?_eq_some_iff] at h
  obtain ⟨_, ⟨sign, _⟩, _, -, hfound, -⟩ := h
  obtain ⟨⟨before, after⟩, hcut, hparts⟩ := Option.map_eq_some_iff.1 hfound
  obtain ⟨rfl, rfl⟩ := Prod.mk.inj (Prod.mk.inj hparts).2
  exact Text.isInfix_of_cut hcut

/-- What is in a tail of a text is in the text. -/
theorem isInfix_cons_pieces {s t : List Char} {combinator : Combinator} {piece : List Char}
    {rest : List (Combinator × List Char)}
    (h : piece <+: s ∧ ∀ piece ∈ rest, piece.2 <:+: s) (hs : s <:+: t) :
    ∀ p ∈ (combinator, piece) :: rest, p.2 <:+: t :=
  List.forall_mem_cons.2 ⟨h.1.isInfix.trans hs, fun p hp => (h.2 p hp).trans hs⟩

theorem isInfix_pieces (s : List Char) :
    (pieces s).1 <+: s ∧ ∀ piece ∈ (pieces s).2, piece.2 <:+: s := by
  -- The cases are those of `pieces`: nothing is left, one character is, a combinator starts, or
  -- the first character goes to the piece in front.
  fun_induction pieces s with
  | case1 => exact ⟨List.prefix_refl _, nofun⟩
  | case2 c => exact ⟨List.prefix_refl _, nofun⟩
  | case3 c d s hd piece rest heq ih =>
    rw [heq] at ih
    exact ⟨List.nil_prefix, isInfix_cons_pieces ih (List.suffix_append [c, d] s).isInfix⟩
  | case4 c d s _ hd piece rest heq ih =>
    rw [heq] at ih
    exact ⟨List.nil_prefix, isInfix_cons_pieces ih (List.suffix_append [c, d] s).isInfix⟩
  | case5 c d s _ _ piece rest heq ih =>
    rw [heq] at ih
    exact ⟨(List.prefix_cons_inj c).2 ih.1,
      fun p hp => (ih.2 p hp).trans (List.suffix_cons c (d :: s)).isInfix⟩

theorem isInfix_split (s : List Char) :
    (split s).1 <:+: s ∧ ∀ piece ∈ (split s).2, piece.2 <:+: s := by
  obtain ⟨hfirst, hrest⟩ := isInfix_pieces s
  refine ⟨(Text.isInfix_trim _).trans hfirst.isInfix, fun p hp => ?_⟩
  obtain ⟨⟨combinator, piece⟩, hpiece, rfl⟩ := List.mem_map.1 hp
  exact (Text.isInfix_trim piece).trans (hrest _ hpiece)

/-! ### Errors -/

theorem ensures_resolveOperand (operand : List Char) (h : operand ⊆ s) :
    Evaluation.Ensures (Path.MayRaise s) (fun _ => True) (Path.resolveOperand host operand data) := by
  rw [Path.resolveOperand]
  split
  next inside hinside =>
    have htrimmed := List.Subset.trans (Text.trim_subset operand) h
    have hsubset := List.Subset.trans (isInfix_of_reference? hinside).subset htrimmed
    cases data with
    | map context =>
      exact (Path.ensures_resolve inside context).imp (fun _ he => he.mono hsubset)
        fun _ _ _ => trivial
    | _ => exact Evaluation.ensures_throw ⟨trivial, False.elim⟩
  · exact Path.ensures_read _

theorem ensures_evaluateComparison (comparison : List Char) (h : comparison ⊆ s) :
    Evaluation.Ensures (Path.MayRaise s) (fun _ => True)
      (evaluateComparison host comparison data) := by
  rw [evaluateComparison]
  split
  next sign left right hdivide =>
    obtain ⟨hleft, hright⟩ := isInfix_of_divide? hdivide
    refine (ensures_resolveOperand left (List.Subset.trans hleft.subset h)).bind fun a _ _ => ?_
    refine (ensures_resolveOperand right (List.Subset.trans hright.subset h)).bind fun b _ _ => ?_
    exact Evaluation.ensures_ofNumber fun _ _ => trivial
  · exact (ensures_resolveOperand comparison h).bind fun _ _ _ => Evaluation.ensures_pure trivial

theorem ensures_evaluateRest (rest : List (Combinator × List Char)) (h : ∀ piece ∈ rest, piece.2 ⊆ s) :
    Evaluation.Ensures (Path.MayRaise s) (fun _ => True) (evaluateRest host data rest) := by
  induction rest with
  | nil => exact Evaluation.ensures_pure trivial
  | cons piece rest ih =>
    refine (ensures_evaluateComparison piece.2 (h piece List.mem_cons_self)).bind fun _ _ _ => ?_
    refine (ih fun p hp => h p (List.mem_cons_of_mem piece hp)).bind fun _ _ _ => ?_
    exact Evaluation.ensures_pure trivial

/-- A condition without forbidden characters ends in errors about values only, and in none about a
    malformed accessor. -/
theorem ensures_evaluate (h : forbiddenIn s = []) :
    Evaluation.Ensures (fun e => e.IsOfValue ∧ ¬e.IsAccessor) (fun _ => True)
      (evaluate host s data) := by
  obtain ⟨hfirst, hrest⟩ := isInfix_split s
  have hpieces : Evaluation.Ensures (Path.MayRaise s) (fun _ => True) (evaluate host s data) := by
    rw [evaluate, h]
    refine (ensures_evaluateComparison _ hfirst.subset).bind fun _ _ _ => ?_
    refine (ensures_evaluateRest _ fun piece hpiece => (hrest piece hpiece).subset).bind fun _ _ _ => ?_
    exact Evaluation.ensures_pure trivial
  have hnone : ∀ c ∈ forbidden, c ∉ s := by
    simpa [forbiddenIn, List.filter_eq_nil_iff] using h
  refine hpieces.imp (fun e he => ⟨he.ofValue, fun haccessor => ?_⟩) fun _ _ _ => trivial
  rcases he.accessor haccessor with hs | hs
  · exact hnone '[' (by decide) hs
  · exact hnone '(' (by decide) hs

/-- A malformed accessor in a condition is a forbidden character. -/
theorem forbidden_of_raises {e : TemplateError} (h : (evaluate host s data).Raises e)
    (haccessor : e.IsAccessor) : ∃ c, e = .forbiddenCharacter (String.ofList s) c := by
  cases hforbidden : forbiddenIn s with
  | nil => exact absurd haccessor ((ensures_evaluate hforbidden).error e h).2
  | cons c cs =>
    rw [evaluate_of_forbidden host data hforbidden, Evaluation.raises_throw] at h
    exact ⟨c, h.symm⟩

end Stencil.Condition
