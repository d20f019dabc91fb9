import Stencil.Proofs.Condition
import Stencil.Proofs.Issue

/-!
# What a condition can reach

The paths in a condition have neither members nor subscripts nor arguments, as it holds none of the
characters for them: a condition with one of these is refused before anything of it is evaluated, and
that is what its issue says. So all that a condition does is to look up names that stand in it. It calls
no function, and it cannot tell contexts apart that agree on those names (`evaluate_confined`).

* `resolve_name`: a path of one piece is a name;
* `coincides_evaluate`: conditions in contexts that agree;
* `raises_malformed_iff`: when a condition is refused;
* `invalidCondition_mem_iff`: when its issue is reported.
-/

namespace Stencil

namespace Evaluation

variable {α β : Type}

/-- Two evaluations are the same, and they make no calls. -/
structure Coincides (x y : Evaluation α) : Prop where
  same : x = y
  silent : x.calls = []

theorem coincides_pure (a : α) : Coincides (pure a) (pure a) := ⟨rfl, rfl⟩

theorem coincides_throw (e : TemplateError) : Coincides (throw e : Evaluation α) (throw e) := ⟨rfl, rfl⟩

theorem coincides_ofNumber (x : Except NumberFault α) : Coincides (ofNumber x) (ofNumber x) := ⟨rfl, rfl⟩

theorem Coincides.bind {x y : Evaluation α} (h : x.Coincides y) {f g : α → Evaluation β}
    (hfg : ∀ a, (f a).Coincides (g a)) : (x >>= f).Coincides (y >>= g) where
  same := by rw [h.same, funext fun a => (hfg a).same]
  silent := by
    rw [calls_bind, h.silent, List.nil_append]
    split
    · exact (hfg _).silent
    · rfl

end Evaluation

open Evaluation

/-- Two contexts agree on the names that stand in a text. -/
def Context.AgreeOn (s : List Char) (c c' : Context) : Prop :=
  ∀ name : String, name.toList <:+: s → c.get? name = c'.get? name

theorem Context.AgreeOn.mono {s t : List Char} {c c' : Context} (h : c.AgreeOn s c') (hts : t <:+: s) :
    c.AgreeOn t c' :=
  fun name hname => h name (hname.trans hts)

theorem Literal.coincides_read (s : List Char) : (read s).Coincides (read s) := by
  rw [read]
  split_ifs
  · exact coincides_pure _
  · exact coincides_pure _
  split
  · exact coincides_pure _
  split
  · exact (coincides_ofNumber _).bind fun _ => coincides_pure _
  · exact coincides_pure _
  · exact coincides_throw _

namespace Path

variable {host host' : Host} {s : List Char} {c c' : Context}

/-- A path without the characters of members, subscripts and calls is a name. -/
theorem resolve_name (hdot : '.' ∉ s) (hbracket : '[' ∉ s) (hparenthesis : '(' ∉ s) :
    resolve host s (.map c) = lookup (Text.trim s) c := by
  have hnone (mark : Char) (h : mark ∉ s) : Text.cutAt mark (Text.trim s) = none := by
    cases hcut : Text.cutAt mark (Text.trim s) with
    | none => rfl
    | some parts => exact absurd (Text.trim_subset s (Text.subset_of_cutAt hcut).1) h
  rw [resolve, Text.fields_of_not_mem fun h => hdot (Text.trim_subset s h), resolveMembers,
    Text.trim_trim, resolveLast, hnone _ hbracket, hnone _ hparenthesis]

theorem coincides_lookup {name : List Char} (h : c.AgreeOn s c') (hname : name <:+: s) :
    (lookup name c).Coincides (lookup name c') := by
  rw [lookup, lookup, h (String.ofList name) (by rwa [String.toList_ofList])]
  split
  · exact coincides_pure _
  · exact coincides_throw _

end Path

namespace Condition

variable {host host' : Host} {s t : List Char} {c c' : Context}

/-- A text holds no forbidden character. -/
def IsAllowed (s : List Char) : Prop := ∀ d ∈ forbidden, d ∉ s

theorem IsAllowed.mono (h : IsAllowed s) (hts : t <:+: s) : IsAllowed t :=
  fun d hd hdt => h d hd (hts.subset hdt)

theorem forbiddenIn_eq_nil : forbiddenIn s = [] ↔ IsAllowed s := by
  simp [forbiddenIn, IsAllowed, List.filter_eq_nil_iff]

theorem coincides_resolveOperand (hs : IsAllowed s) (h : c.AgreeOn s c') :
    (Path.resolveOperand host s (.map c)).Coincides (Path.resolveOperand host' s (.map c')) := by
  rw [Path.resolveOperand, Path.resolveOperand]
  split
  next inside hinside =>
    have hinfix : inside <:+: s := (isInfix_of_reference? hinside).trans (Text.isInfix_trim s)
    have hallowed := hs.mono hinfix
    have hname (host : Host) (c : Context) :
        Path.resolve host inside (.map c) = Path.lookup (Text.trim inside) c :=
      Path.resolve_name (hallowed '.' (by decide)) (hallowed '[' (by decide)) (hallowed '(' (by decide))
    rw [hname, hname]
    exact Path.coincides_lookup h ((Text.isInfix_trim inside).trans hinfix)
  · exact Literal.coincides_read _

theorem coincides_evaluateComparison (hs : IsAllowed s) (h : c.AgreeOn s c') :
    (evaluateComparison host s (.map c)).Coincides (evaluateComparison host' s (.map c')) := by
  rw [evaluateComparison, evaluateComparison]
  split
  next comparison left right hdivide =>
    obtain ⟨hleft, hright⟩ := isInfix_of_divide? hdivide
    refine (coincides_resolveOperand (hs.mono hleft) (h.mono hleft)).bind fun a => ?_
    refine (coincides_resolveOperand (hs.mono hright) (h.mono hright)).bind fun b => ?_
    exact coincides_ofNumber _
  · exact (coincides_resolveOperand hs h).bind fun _ => coincides_pure _

theorem coincides_evaluateRest {rest : List (Combinator × List Char)}
    (hrest : ∀ piece ∈ rest, IsAllowed piece.2 ∧ c.AgreeOn piece.2 c') :
    (evaluateRest host (.map c) rest).Coincides (evaluateRest host' (.map c') rest) := by
  induction rest with
  | nil => exact coincides_pure _
  | cons piece rest ih =>
    obtain ⟨⟨hs, h⟩, hrest⟩ := List.forall_mem_cons.1 hrest
    exact (coincides_evaluateComparison hs h).bind fun _ => (ih hrest).bind fun _ => coincides_pure _

/-- A condition comes to the same in contexts that agree on the names that stand in it, and calls
    nothing, whatever functions there are. -/
theorem coincides_evaluate (h : c.AgreeOn s c') :
    (evaluate host s (.map c)).Coincides (evaluate host' s (.map c')) := by
  rw [evaluate, evaluate]
  split
  · exact coincides_throw _
  next hforbidden =>
    have hs := forbiddenIn_eq_nil.1 hforbidden
    obtain ⟨hfirst, hrest⟩ := isInfix_split s
    refine (coincides_evaluateComparison (hs.mono hfirst) (h.mono hfirst)).bind fun _ => ?_
    refine (coincides_evaluateRest fun piece hpiece => ?_).bind fun _ => coincides_pure _
    exact ⟨hs.mono (hrest piece hpiece), h.mono (hrest piece hpiece)⟩

/-- A condition is refused as malformed if and only if it holds a forbidden character. -/
theorem raises_malformed_iff {data : Value} :
    (∃ e, (evaluate host s data).Raises e ∧ e.kind = "MalformedAccessor") ↔ ∃ d ∈ forbidden, d ∈ s := by
  constructor
  · rintro ⟨e, he, hkind⟩
    by_contra hnone
    have hs : forbiddenIn s = [] := forbiddenIn_eq_nil.2 fun d hd hds => hnone ⟨d, hd, hds⟩
    exact ((ensures_evaluate hs).error e he).2 (TemplateError.isAccessor_of_kind hkind)
  · rintro ⟨d, hd, hds⟩
    cases hs : forbiddenIn s with
    | nil => exact absurd hds (forbiddenIn_eq_nil.1 hs d hd)
    | cons d' ds =>
      exact ⟨_, by rw [evaluate_of_forbidden host data hs, raises_throw], rfl⟩

end Condition

namespace Issue

open Node

/-- The issue of a condition with forbidden characters, which lists them. -/
def invalidCondition (condition : String) : Issue :=
  let shown := " ".intercalate ((Condition.forbiddenIn condition.toList).map String.singleton)
  ⟨.error, Directive.ifTag, s!"Condition \"{condition}\" contains invalid character(s): {shown}"⟩

variable {registry : Option Registry} {template : Node} {issue : Issue}

/-! ### Which condition an issue is about -/

/-- What stands behind the condition in its issue. -/
def behindCondition (condition : String) : List Char :=
  " contains invalid character(s): ".toList ++
    [' '].intercalate ((Condition.forbiddenIn condition.toList).map fun d => [d])

theorem toList_append_mark {mark : Char} {tail : List Char} {after : String}
    (h : after.toList = mark :: tail) (before word shown : String) :
    (before ++ word ++ after ++ shown).toList =
      before.toList ++ (word.toList ++ mark :: (tail ++ shown.toList)) := by
  simp only [String.toList_append, h, List.append_assoc, List.cons_append]

theorem message_invalidCondition (condition : String) : (invalidCondition condition).message.toList =
    "Condition \"".toList ++ (condition.toList ++ '"' :: behindCondition condition) := by
  have hshown :
      (" ".intercalate ((Condition.forbiddenIn condition.toList).map String.singleton)).toList =
        [' '].intercalate ((Condition.forbiddenIn condition.toList).map fun d => [d]) := by
    rw [String.toList_intercalate, List.map_map]
    exact congrArg _ (List.map_congr_left fun d _ => String.toList_singleton d)
  have hmark : "\" contains invalid character(s): ".toList =
      '"' :: " contains invalid character(s): ".toList := by decide
  have hmessage := toList_append_mark hmark "Condition \"" condition
    (" ".intercalate ((Condition.forbiddenIn condition.toList).map String.singleton))
  rw [hshown] at hmessage
  exact hmessage

/-- No forbidden character is a quote. -/
theorem not_mem_behindCondition (condition : String) : '"' ∉ behindCondition condition := by
  intro h
  rcases List.mem_append.1 h with h | h
  · exact absurd h (by decide)
  rcases Text.mem_of_mem_intercalate h with h | ⟨word, hword, h⟩
  · exact absurd h (by decide)
  · obtain ⟨d, hd, rfl⟩ := List.mem_map.1 hword
    obtain rfl := List.mem_singleton.1 h
    exact absurd (List.mem_of_mem_filter hd) (by decide)

/-- An issue is about one condition only. -/
theorem invalidCondition_injective : Function.Injective invalidCondition := by
  intro c c' h
  have hmessage := congrArg (fun issue => issue.message.toList) h
  simp only [message_invalidCondition] at hmessage
  exact String.toList_inj.1 (Text.append_mark_inj (not_mem_behindCondition c) (not_mem_behindCondition c')
    (List.append_cancel_left hmessage))

/-- The issues of a conditional that has a condition. -/
theorem ofCondition_of_attrNonempty {condition : String} {n : Node}
    (htag : n.hasTag Directive.ifTag = true) (hcond : n.attrNonempty? "cond" = some condition) :
    ofCondition n =
      if Condition.forbiddenIn condition.toList = [] then [] else [invalidCondition condition] := by
  rw [ofCondition, if_pos htag, hcond, invalidCondition]
  cases h : Condition.forbiddenIn condition.toList with
  | nil => simp [h]
  | cons d ds => simp [h]

theorem invalidCondition_mem_ofCondition {condition : String} {n : Node} :
    invalidCondition condition ∈ ofCondition n ↔ Condition.forbiddenIn condition.toList ≠ [] ∧
      n.hasTag Directive.ifTag = true ∧ n.attr? "cond" = some condition := by
  constructor
  · intro h
    have htag : n.hasTag Directive.ifTag = true := by
      by_contra htag
      rw [ofCondition, if_neg htag] at h
      cases h
    cases hcond : n.attrNonempty? "cond" with
    | none =>
      rw [ofCondition, if_pos htag, hcond] at h
      have hmessage := congrArg (fun issue => issue.message.toList) (List.mem_singleton.1 h)
      simp only [message_invalidCondition] at hmessage
      cases hmessage
    | some other =>
      rw [ofCondition_of_attrNonempty htag hcond] at h
      split_ifs at h with hallowed
      · cases h
      · obtain rfl := invalidCondition_injective (List.mem_singleton.1 h)
        exact ⟨hallowed, htag, (Option.filter_eq_some_iff.1 hcond).1⟩
  · rintro ⟨hforbidden, htag, hattr⟩
    have hne : condition ≠ "" := fun h => hforbidden (by rw [h]; decide)
    have hcond : n.attrNonempty? "cond" = some condition :=
      Option.filter_eq_some_iff.2 ⟨hattr, by simpa using hne⟩
    rw [ofCondition_of_attrNonempty htag hcond, if_neg hforbidden]
    exact List.mem_singleton_self _

/-- A condition is reported as invalid if and only if it holds a forbidden character and some conditional
    has it. -/
theorem invalidCondition_mem_iff {condition : List Char} :
    invalidCondition (String.ofList condition) ∈ ofTemplate registry template ↔
      (∃ d ∈ Condition.forbidden, d ∈ condition) ∧ ∃ n ∈ elementsOf template.content,
        n.hasTag Directive.ifTag = true ∧ n.attr? "cond" = some (String.ofList condition) := by
  have hforbidden : Condition.forbiddenIn (String.ofList condition).toList ≠ [] ↔
      ∃ d ∈ Condition.forbidden, d ∈ condition := by
    rw [String.toList_ofList, Ne, Condition.forbiddenIn_eq_nil, Condition.IsAllowed]
    push Not
    rfl
  rw [mem_ofTemplate_iff_of_ifTag rfl]
  simp only [invalidCondition_mem_ofCondition, hforbidden]
  constructor
  · rintro ⟨n, hn, hd, htag, hattr⟩
    exact ⟨hd, n, hn, htag, hattr⟩
  · rintro ⟨hd, n, hn, htag, hattr⟩
    exact ⟨n, hn, hd, htag, hattr⟩

end Issue

namespace Condition

/-- A condition is confined to the names that stand in it: it calls no function; it is refused as
    malformed if and only if it holds a forbidden character, which is just when a conditional that has it
    is reported for it; and it comes to the same in every context that agrees on the names that stand in
    it, with whatever functions. -/
theorem evaluate_confined (host : Host) (s : List Char) (c : Context) :
    (evaluate host s (.map c)).calls = [] ∧
    ((∃ e, (evaluate host s (.map c)).Raises e ∧ e.kind = "MalformedAccessor") ↔
      ∃ d ∈ forbidden, d ∈ s) ∧
    (∀ (registry : Option Registry) (template : Node),
      Issue.invalidCondition (String.ofList s) ∈ Issue.ofTemplate registry template ↔
        (∃ d ∈ forbidden, d ∈ s) ∧ ∃ n ∈ Node.elementsOf template.content,
          n.hasTag Directive.ifTag = true ∧ n.attr? "cond" = some (String.ofList s)) ∧
    ∀ (host' : Host) (c' : Context), c.AgreeOn s c' →
      evaluate host s (.map c) = evaluate host' s (.map c') := by
  have hself : (evaluate host s (.map c)).Coincides (evaluate host s (.map c)) :=
    coincides_evaluate fun _ _ => rfl
  exact ⟨hself.silent, raises_malformed_iff, fun _ _ => Issue.invalidCondition_mem_iff,
    fun host' c' h => (coincides_evaluate h).same⟩

/-- A function that does not stand in the condition makes no difference. -/
theorem evaluate_confined_function :
    evaluate .none "\x7b\x7ba\x7d\x7d > 1".toList (.map [(.str "a", .int 2)]) =
      evaluate (fun _ _ => .ok (.int 3)) "\x7b\x7ba\x7d\x7d > 1".toList
        (.map [(.str "b", .fn "f"), (.str "a", .int 2)]) := by
  have hagree : Context.AgreeOn "\x7b\x7ba\x7d\x7d > 1".toList [(.str "a", .int 2)]
      [(.str "b", .fn "f"), (.str "a", .int 2)] := by
    intro name hname
    have hne : "b" ≠ name := by
      rintro rfl
      have hmem : 'b' ∈ "\x7b\x7ba\x7d\x7d > 1".toList := hname.subset (by decide)
      exact absurd hmem (by decide)
    exact ((Context.get?_cons "b" name (.fn "f") [(.str "a", .int 2)]).trans (if_neg hne)).symm
  obtain ⟨-, -, -, hsame⟩ := evaluate_confined .none "\x7b\x7ba\x7d\x7d > 1".toList [(.str "a", .int 2)]
  exact hsame (fun _ _ => .ok (.int 3)) [(.str "b", .fn "f"), (.str "a", .int 2)] hagree

end Condition

end Stencil
