import Stencil.Proofs.Condition
import Stencil.Proofs.Expansion.Placeholder
import Stencil.Proofs.Failing

/-!
# Evaluations that come to an end

The model of an expansion has two bounds, one for the depth and one for the replacements in a text. An
evaluation *finishes* if neither is what it ends at. Paths and conditions always do, and so does the
replacing of placeholders if no value brings in braces: every replacement takes braces away.

Where the bounds do matter, an evaluation is looked at as a family over them. It *ends* if it finishes
at some bounds, and at larger ones is the same there or goes further than before (`Ends`). So it has an
outcome that does not depend on the bounds, as long as these are large enough (`Ends.exists_eq`).

* `finishes_resolve`, `finishes_evaluate`: paths and conditions;
* `Ends.bind`: two evaluations in a row;
* `ends_interpolate`: the placeholders of a text.
-/

namespace Stencil

namespace Evaluation

variable {α β : Type}

/-- An evaluation does not end at a bound. -/
def Finishes (x : Evaluation α) : Prop := x.outcome ≠ .error .unfinished

theorem finishes_pure (a : α) : (pure a : Evaluation α).Finishes := nofun

theorem finishes_throw (e : TemplateError) : (throw e : Evaluation α).Finishes := nofun

theorem finishes_ofNumber (x : Except NumberFault α) : (ofNumber x).Finishes := by
  cases x <;> exact nofun

theorem finishes_ofMarkup (x : Except Markup.Fault α) : (ofMarkup x).Finishes := by
  cases x <;> exact nofun

/-- What fails in a class of failures without the bounds does not end at one. -/
theorem finishes_of_failsIn {allowed : Failure → Prop} {x : Evaluation α}
    (h : FailsIn allowed x.outcome) (hbounds : ¬allowed .unfinished) : x.Finishes :=
  fun hunfinished => hbounds (h _ hunfinished)

theorem not_finishes_bind {x : Evaluation α} (h : ¬x.Finishes) (f : α → Evaluation β) :
    ¬(x >>= f).Finishes := by
  have houtcome : x.outcome = .error .unfinished := not_not.1 h
  rw [Finishes, Traced.bind_of_error houtcome]
  exact not_not.2 rfl

theorem Gives.finishes_bind {x : Evaluation α} {a : α} (h : x.Gives a) (f : α → Evaluation β) :
    (x >>= f).Finishes ↔ (f a).Finishes := by
  rw [Finishes, Finishes, h.outcome_bind]

theorem Finishes.bind {x : Evaluation α} {f : α → Evaluation β} (hx : x.Finishes)
    (hf : ∀ a, x.Gives a → (f a).Finishes) : (x >>= f).Finishes := by
  cases houtcome : x.outcome with
  | ok a => exact (Gives.finishes_bind houtcome f).2 (hf a houtcome)
  | error failure =>
    rw [Finishes, Traced.bind_of_error houtcome]
    intro h
    obtain rfl : failure = .unfinished := Except.error.inj h
    exact hx houtcome

theorem finishes_mapM {f : α → Evaluation β} {as : List α} (h : ∀ a ∈ as, (f a).Finishes) :
    (as.mapM f).Finishes := by
  induction as with
  | nil => exact finishes_pure []
  | cons a as ih =>
    rw [List.mapM_cons]
    refine (h a List.mem_cons_self).bind fun b _ => ?_
    exact (ih fun c hc => h c (List.mem_cons_of_mem a hc)).bind fun bs _ => finishes_pure (b :: bs)

end Evaluation

/-! ### Paths and conditions -/

namespace Path

/-- The value of a path is found, or there is a reason why not. -/
theorem finishes_resolve {host : Host} (path : List Char) (data : Value) :
    (resolve host path data).Finishes :=
  Evaluation.finishes_of_failsIn (failsIn_resolve path data) nofun

end Path

namespace Condition

/-- A condition has a result, or there is a reason why not. -/
theorem finishes_evaluate {host : Host} (condition : List Char) (data : Value) :
    (evaluate host condition data).Finishes :=
  Evaluation.finishes_of_failsIn (failsIn_evaluate condition data) nofun

end Condition

/-! ### Families over the bounds -/

namespace Evaluation

variable {α β : Type}

/-- An evaluation is another one, or ends at a bound before that does. -/
def Approximates (x y : Evaluation α) : Prop := x = y ∨ ¬x.Finishes

theorem Approximates.refl (x : Evaluation α) : x.Approximates x := .inl rfl

theorem Approximates.bind {x y : Evaluation α} {f g : α → Evaluation β} (h : x.Approximates y)
    (hf : ∀ a, x.Gives a → (f a).Approximates (g a)) : (x >>= f).Approximates (y >>= g) := by
  rcases h with rfl | h
  · cases houtcome : x.outcome with
    | ok a =>
      rcases hf a houtcome with hfg | hfg
      · exact .inl (by rw [Traced.bind_of_ok houtcome, Traced.bind_of_ok houtcome, hfg])
      · exact .inr (mt (Gives.finishes_bind houtcome f).1 hfg)
    | error failure =>
      exact .inl (by rw [Traced.bind_of_error houtcome, Traced.bind_of_error houtcome])
  · exact .inr (not_finishes_bind h f)

/-- A family of evaluations over the bounds finishes at some of them, and larger bounds change nothing
    but that it goes further. What it gives has the property `post`. -/
structure Ends (post : α → Prop) (x : (depth replacements : Nat) → Evaluation α) : Prop where
  mono : ∀ {d d' n n'}, d ≤ d' → n ≤ n' → (x d n).Approximates (x d' n')
  ends : ∃ d n, (x d n).Finishes
  result : ∀ d n a, (x d n).Gives a → post a

section

variable {post : α → Prop} {post' : β → Prop} {x : Nat → Nat → Evaluation α}

/-- What finishes at some bounds is the same at all larger ones. -/
theorem Ends.exists_eq (h : Ends post x) :
    ∃ bound y, Finishes y ∧ ∀ d n, bound ≤ d → bound ≤ n → x d n = y := by
  obtain ⟨d, n, hfinishes⟩ := h.ends
  refine ⟨max d n, x d n, hfinishes, fun d' n' hd hn => ?_⟩
  rcases h.mono (le_trans (le_max_left d n) hd) (le_trans (le_max_right d n) hn) with heq | hnot
  · exact heq.symm
  · exact absurd hfinishes hnot

/-- An evaluation without bounds. -/
theorem ends_const {y : Evaluation α} (h : y.Finishes) (hpost : ∀ a, y.Gives a → post a) :
    Ends post fun _ _ => y :=
  ⟨fun _ _ => .refl y, ⟨0, 0, h⟩, fun _ _ => hpost⟩

theorem ends_pure {a : α} (h : post a) : Ends post fun _ _ => pure a :=
  ends_const (finishes_pure a) fun _ hb => gives_pure.1 hb ▸ h

theorem ends_throw (e : TemplateError) : Ends post fun _ _ => throw e :=
  ends_const (finishes_throw e) fun _ ha => absurd ha not_gives_throw

theorem Ends.imp {post' : α → Prop} (h : Ends post x) (himp : ∀ a, post a → post' a) :
    Ends post' x :=
  ⟨h.mono, h.ends, fun d n a ha => himp a (h.result d n a ha)⟩

theorem Ends.bind {f : Nat → Nat → α → Evaluation β} (hx : Ends post x)
    (hf : ∀ a, post a → Ends post' fun d n => f d n a) :
    Ends post' fun d n => x d n >>= f d n where
  mono hd hn := (hx.mono hd hn).bind fun a ha => (hf a (hx.result _ _ a ha)).mono hd hn
  ends := by
    obtain ⟨d, n, hfinishes⟩ := hx.ends
    cases houtcome : (x d n).outcome with
    | error failure =>
      exact ⟨d, n, hfinishes.bind fun a ha => by rw [Gives, houtcome] at ha; cases ha⟩
    | ok a =>
      -- Both parts finish at bounds that are large enough for each of them.
      obtain ⟨d', n', hfinishes'⟩ := (hf a (hx.result d n a houtcome)).ends
      have hfirst : x (max d d') (max n n') = x d n :=
        ((hx.mono (le_max_left d d') (le_max_left n n')).resolve_right (not_not.2 hfinishes)).symm
      have hsecond := ((hf a (hx.result d n a houtcome)).mono (le_max_right d d')
        (le_max_right n n')).resolve_right (not_not.2 hfinishes')
      refine ⟨max d d', max n n', ?_⟩
      rw [hfirst]
      refine hfinishes.bind fun b hb => ?_
      obtain rfl : a = b := Except.ok.inj (houtcome.symm.trans hb)
      exact hsecond ▸ hfinishes'
  result d n b hb := by
    obtain ⟨a, ha, hb⟩ := gives_bind.1 hb
    exact (hf a (hx.result d n a ha)).result d n b hb

/-- At the bound of the depth nothing has been given yet. -/
theorem Ends.of_succ (hzero : ∀ n, ¬(x 0 n).Finishes) (h : Ends post fun d n => x (d + 1) n) :
    Ends post x where
  mono {d d' n n'} hd hn := by
    cases d with
    | zero => exact .inr (hzero n)
    | succ d =>
      obtain ⟨d', rfl⟩ : ∃ m, d' = m + 1 := ⟨d' - 1, by omega⟩
      exact h.mono (Nat.le_of_succ_le_succ hd) hn
  ends := by
    obtain ⟨d, n, hfinishes⟩ := h.ends
    exact ⟨d + 1, n, hfinishes⟩
  result d n a ha := by
    cases d with
    | zero => exact absurd (fun hunfinished => by rw [Gives, hunfinished] at ha; cases ha) (hzero n)
    | succ d => exact h.result d n a ha

end

end Evaluation

/-! ### Placeholders -/

open Evaluation

variable {host : Host} {data : Value}

theorem finishes_renderPlaceholder (inside : List Char) :
    (renderPlaceholder host data inside).Finishes :=
  (Path.finishes_resolve _ data).bind fun _ _ =>
    (finishes_ofNumber _).bind fun _ _ => finishes_pure _

theorem approximates_interpolate {n n' : Nat} (h : n ≤ n') (s : List Char) :
    (interpolate host data n s).Approximates (interpolate host data n' s) := by
  induction n generalizing n' s with
  | zero =>
    rw [interpolate, interpolate]
    split
    · exact .refl _
    · exact .inr (not_not.2 rfl)
  | succ n ih =>
    obtain ⟨n', rfl⟩ : ∃ m, n' = m + 1 := ⟨n' - 1, by omega⟩
    rw [interpolate, interpolate]
    split
    · exact .refl _
    · exact (Approximates.refl _).bind fun text _ => ih (Nat.le_of_succ_le_succ h) _

/-- As many replacements as there are opening braces are enough, if no value brings in one. -/
theorem finishes_interpolate
    (hvalues : ∀ inside text, (renderPlaceholder host data inside).Gives text → '\x7b' ∉ text)
    {n : Nat} {s : List Char} (h : s.count '\x7b' ≤ n) : (interpolate host data n s).Finishes := by
  induction n generalizing s with
  | zero =>
    rw [interpolate]
    split
    · exact finishes_pure _
    next hfound =>
      rw [eq_of_placeholder? hfound] at h
      simp at h
  | succ n ih =>
    rw [interpolate]
    split
    · exact finishes_pure _
    next before inside after hfound =>
      refine (finishes_renderPlaceholder inside).bind fun text htext => ih ?_
      have hcount : text.count '\x7b' = 0 := List.count_eq_zero.2 (hvalues inside text htext)
      rw [eq_of_placeholder? hfound] at h
      have hclosing : ('\x7d' :: '\x7d' :: after).count '\x7b' = after.count '\x7b' := by simp
      simp only [List.count_append, List.count_cons_self, hclosing] at h ⊢
      omega

/-- The replacing of placeholders ends, if no value brings in an opening brace. -/
theorem ends_interpolate
    (hvalues : ∀ inside text, (renderPlaceholder host data inside).Gives text → '\x7b' ∉ text)
    (s : List Char) :
    Ends (fun t => ∃ n, (interpolate host data n s).Gives t) fun _ n => interpolate host data n s where
  mono _ hn := approximates_interpolate hn s
  ends := ⟨0, s.count '\x7b', finishes_interpolate hvalues le_rfl⟩
  result _ n _ ht := ⟨n, ht⟩

end Stencil
