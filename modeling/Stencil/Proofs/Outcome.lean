import Stencil.Evaluation

/-!
# What an evaluation gives and raises

An evaluation *gives* a result if it ends with it, and it *raises* an error of the template if it ends
in it, whatever it called on the way. An evaluation in two parts gives a result exactly if the first
part gives one from which the second part gives it.

An evaluation *ensures* something of its results, and raises no errors but allowed ones: it may also
end early for a reason that is no mistake of the template.

An evaluation *concludes* in something if it calls nothing and all its results are that, and its failures
are allowed ones, whatever their reason.

An evaluation *extends* another one if it gives whatever that gives. It may do so *unless* it raises an
allowed error instead; of an evaluation that gives nothing, nothing is asked.

* `gives_bind`, `gives_bind_bind_pure`, `raises_bind`: the parts of an evaluation;
* `gives_mapM`, `outcome_mapM_of_error`: evaluations in a row;
* `Gives.unique`: an evaluation gives one result at most;
* `Ensures.bind`, `Concludes.bind`: what the second part ensures or concludes in, given what the first
  part does;
* `ExtendsUnless.bind`: an evaluation in two parts is extended part by part.
-/

namespace Stencil.Evaluation

variable {α β γ : Type}

/-- An evaluation ends with a result. -/
def Gives (x : Evaluation α) (a : α) : Prop := x.outcome = .ok a

@[simp] theorem gives_pure {a b : α} : (pure a : Evaluation α).Gives b ↔ a = b := by
  rw [Gives, Traced.pure_def, Except.ok.injEq]

@[simp] theorem not_gives_fail {failure : Failure} {a : α} : ¬(fail failure : Evaluation α).Gives a :=
  nofun

@[simp] theorem not_gives_throw {error : TemplateError} {a : α} :
    ¬(throw error : Evaluation α).Gives a :=
  nofun

@[simp] theorem gives_bind {x : Evaluation α} {f : α → Evaluation β} {b : β} :
    (x >>= f).Gives b ↔ ∃ a, x.Gives a ∧ (f a).Gives b := by
  cases hx : x.outcome with
  | ok a => simp [Gives, Traced.bind_of_ok hx, hx]
  | error failure => simp [Gives, Traced.bind_of_error hx, hx]

/-- What a function of two results in a row gives. -/
theorem gives_bind_bind_pure {x : Evaluation α} {y : α → Evaluation β} {f : α → β → γ} {c : γ} :
    (x >>= fun a => y a >>= fun b => pure (f a b)).Gives c ↔
      ∃ a b, x.Gives a ∧ (y a).Gives b ∧ c = f a b := by
  rw [gives_bind]
  constructor
  · rintro ⟨a, ha, h⟩
    obtain ⟨b, hb, h⟩ := gives_bind.1 h
    exact ⟨a, b, ha, hb, (gives_pure.1 h).symm⟩
  · rintro ⟨a, b, ha, hb, rfl⟩
    exact ⟨a, ha, gives_bind.2 ⟨b, hb, gives_pure.2 rfl⟩⟩

/-- What is given after a decision. -/
theorem gives_bind_ite {x : Evaluation Bool} {y : Evaluation β} {f : β → γ} {c d : γ} :
    (x >>= fun holds => if holds = true then y >>= fun b => pure (f b) else pure d).Gives c ↔
      (x.Gives true ∧ ∃ b, y.Gives b ∧ c = f b) ∨ (x.Gives false ∧ c = d) := by
  rw [gives_bind]
  constructor
  · rintro ⟨_ | _, hx, h⟩
    · exact .inr ⟨hx, (gives_pure.1 h).symm⟩
    · obtain ⟨b, hb, h⟩ := gives_bind.1 h
      exact .inl ⟨hx, b, hb, (gives_pure.1 h).symm⟩
  · rintro (⟨hx, b, hb, rfl⟩ | ⟨hx, rfl⟩)
    · exact ⟨true, hx, gives_bind.2 ⟨b, hb, gives_pure.2 rfl⟩⟩
    · exact ⟨false, hx, gives_pure.2 rfl⟩

/-- Evaluations in a row give the results of each in turn. -/
theorem gives_mapM {f : α → Evaluation β} {g : α → β} {as : List α}
    (h : ∀ a ∈ as, (f a).Gives (g a)) : (as.mapM f).Gives (as.map g) := by
  induction as with
  | nil => rfl
  | cons a as ih =>
    rw [List.mapM_cons]
    exact gives_bind_bind_pure.2 ⟨_, _, h a List.mem_cons_self,
      ih fun b hb => h b (List.mem_cons_of_mem a hb), rfl⟩

/-- Of evaluations in a row the first one that fails decides. -/
theorem outcome_mapM_of_error {f : α → Evaluation β} {before after : List α} {a : α}
    {failure : Failure} (hbefore : ∀ b ∈ before, ∃ c, (f b).Gives c)
    (ha : (f a).outcome = .error failure) :
    ((before ++ a :: after).mapM f).outcome = .error failure := by
  induction before with
  | nil => rw [List.nil_append, List.mapM_cons, Traced.bind_of_error ha]
  | cons b before ih =>
    obtain ⟨c, hc⟩ := hbefore b List.mem_cons_self
    have ih := ih fun d hd => hbefore d (List.mem_cons_of_mem b hd)
    rw [List.cons_append, List.mapM_cons, Traced.bind_of_ok hc]
    exact congrArg Traced.outcome (Traced.bind_of_error ih _)

theorem Gives.unique {x : Evaluation α} {a b : α} (ha : x.Gives a) (hb : x.Gives b) : a = b :=
  Except.ok.inj (ha.symm.trans hb)

/-- What comes behind a result decides. -/
theorem Gives.outcome_bind {x : Evaluation α} {a : α} (h : x.Gives a) (f : α → Evaluation β) :
    (x >>= f).outcome = (f a).outcome := by
  rw [Traced.bind_of_ok h]

/-- What comes behind an evaluation has to be the same for its result only. -/
theorem bind_congr_of_gives {x : Evaluation α} {f g : α → Evaluation β}
    (h : ∀ a, x.Gives a → f a = g a) : x >>= f = x >>= g := by
  cases hx : x.outcome with
  | ok a => rw [Traced.bind_of_ok hx, Traced.bind_of_ok hx, h a hx]
  | error failure => rw [Traced.bind_of_error hx, Traced.bind_of_error hx]

/-! ### Calls -/

/-- What is called behind a result is called behind nothing, if nothing was called for it. -/
theorem calls_bind_of_gives {x : Evaluation α} {a : α} (hx : x.calls = []) (h : x.Gives a)
    (f : α → Evaluation β) : (x >>= f).calls = (f a).calls := by
  rw [Traced.bind_of_ok h]
  exact (congrArg (· ++ _) hx).trans (List.nil_append _)

theorem calls_bind_eq_nil {x : Evaluation α} {f : α → Evaluation β} (hx : x.calls = [])
    (hf : ∀ a, x.Gives a → (f a).calls = []) : (x >>= f).calls = [] := by
  cases houtcome : x.outcome with
  | ok a => rw [calls_bind_of_gives hx houtcome, hf a houtcome]
  | error failure => rw [Traced.bind_of_error houtcome, hx]

theorem calls_mapM_eq_nil {f : α → Evaluation β} {as : List α} (h : ∀ a ∈ as, (f a).calls = []) :
    (as.mapM f).calls = [] := by
  induction as with
  | nil => rfl
  | cons a as ih =>
    rw [List.mapM_cons]
    refine calls_bind_eq_nil (h a List.mem_cons_self) fun b _ => ?_
    exact calls_bind_eq_nil (ih fun c hc => h c (List.mem_cons_of_mem a hc)) fun bs _ => rfl

/-! ### Errors -/

/-- An evaluation ends in an error of the template. -/
def Raises (x : Evaluation α) (e : TemplateError) : Prop := x.outcome = .error (.template e)

@[simp] theorem not_raises_pure {a : α} {e : TemplateError} : ¬(pure a : Evaluation α).Raises e :=
  nofun

@[simp] theorem raises_throw {e e' : TemplateError} :
    (throw e : Evaluation α).Raises e' ↔ e = e' := by
  rw [Raises, throw, fail, Traced.fail, Except.error.injEq, Failure.template.injEq]

theorem raises_bind {x : Evaluation α} {f : α → Evaluation β} {e : TemplateError} :
    (x >>= f).Raises e ↔ x.Raises e ∨ ∃ a, x.Gives a ∧ (f a).Raises e := by
  cases hx : x.outcome with
  | ok a => simp [Raises, Gives, Traced.bind_of_ok hx, hx]
  | error failure => simp [Raises, Gives, Traced.bind_of_error hx, hx]

/-- An evaluation raises no errors but allowed ones, and `post` holds of its results. -/
structure Ensures (allowed : TemplateError → Prop) (post : α → Prop) (x : Evaluation α) : Prop where
  result : ∀ a, x.Gives a → post a
  error : ∀ e, x.Raises e → allowed e

section

variable {allowed allowed' : TemplateError → Prop} {post : α → Prop}

theorem ensures_pure {a : α} (h : post a) : Ensures allowed post (pure a) where
  result _ hb := gives_pure.1 hb ▸ h
  error _ he := absurd he not_raises_pure

theorem ensures_throw {e : TemplateError} (h : allowed e) :
    Ensures allowed post (throw e : Evaluation α) where
  result _ ha := absurd ha not_gives_throw
  error _ he' := raises_throw.1 he' ▸ h

theorem ensures_unfinished : Ensures allowed post (fail .unfinished : Evaluation α) where
  result _ ha := absurd ha not_gives_fail
  error _ he := by cases he

theorem Ensures.bind {x : Evaluation α} {f : α → Evaluation β} {post' : β → Prop}
    (hx : Ensures allowed post x) (hf : ∀ a, x.Gives a → post a → Ensures allowed post' (f a)) :
    Ensures allowed post' (x >>= f) where
  result b hb := by
    obtain ⟨a, ha, hb⟩ := gives_bind.1 hb
    exact (hf a ha (hx.result a ha)).result b hb
  error e he := by
    rcases raises_bind.1 he with he | ⟨a, ha, he⟩
    · exact hx.error e he
    · exact (hf a ha (hx.result a ha)).error e he

theorem Ensures.imp {x : Evaluation α} {post' : α → Prop} (h : Ensures allowed post x)
    (ha : ∀ e, allowed e → allowed' e) (hp : ∀ a, x.Gives a → post a → post' a) :
    Ensures allowed' post' x :=
  ⟨fun a hx => hp a hx (h.result a hx), fun e he => ha e (h.error e he)⟩

theorem ensures_ofNumber {x : Except NumberFault α} (h : ∀ a, x = .ok a → post a) :
    Ensures allowed post (ofNumber x) := by
  cases x with
  | ok a => exact ensures_pure (h a rfl)
  | error fault => exact ⟨nofun, nofun⟩

theorem ensures_ofMarkup {x : Except Markup.Fault α} (h : ∀ a, x = .ok a → post a) :
    Ensures allowed post (ofMarkup x) := by
  cases x with
  | ok a => exact ensures_pure (h a rfl)
  | error fault => exact ⟨nofun, nofun⟩

end

/-! ### Faults of numbers -/

section

variable {fault : NumberFault}

/-- An evaluation ends in a fault of numbers, which is no error of the template. -/
def BreaksOff (x : Evaluation α) (fault : NumberFault) : Prop := x.outcome = .error (.number fault)

@[simp] theorem not_breaksOff_pure {a : α} : ¬(pure a : Evaluation α).BreaksOff fault :=
  nofun

@[simp] theorem not_breaksOff_throw {e : TemplateError} : ¬(throw e : Evaluation α).BreaksOff fault :=
  nofun

theorem breaksOff_ofNumber {x : Except NumberFault α} :
    (ofNumber x).BreaksOff fault ↔ x = .error fault := by
  cases x with
  | ok a =>
    constructor <;> intro h <;> cases h
  | error e =>
    constructor <;> intro h <;> cases h <;> rfl

theorem breaksOff_bind {x : Evaluation α} {f : α → Evaluation β} :
    (x >>= f).BreaksOff fault ↔ x.BreaksOff fault ∨ ∃ a, x.Gives a ∧ (f a).BreaksOff fault := by
  cases hx : x.outcome with
  | ok a => simp [BreaksOff, Gives, Traced.bind_of_ok hx, hx]
  | error failure => simp [BreaksOff, Gives, Traced.bind_of_error hx, hx]

theorem breaksOff_bind_pure {x : Evaluation α} {f : α → β} :
    (x >>= fun a => pure (f a)).BreaksOff fault ↔ x.BreaksOff fault := by
  rw [breaksOff_bind, or_iff_left]
  exact fun ⟨_, _, h⟩ => not_breaksOff_pure h

end

/-! ### Conclusions -/

/-- An evaluation calls nothing. `post` holds of its results, and its failures are allowed ones. -/
structure Concludes (allowed : Failure → Prop) (post : α → Prop) (x : Evaluation α) : Prop where
  result : ∀ a, x.Gives a → post a
  failure : ∀ failure, x.outcome = .error failure → allowed failure
  silent : x.calls = []

section

variable {allowed allowed' : Failure → Prop} {post : α → Prop}

theorem concludes_pure {a : α} (h : post a) : Concludes allowed post (pure a) where
  result _ hb := gives_pure.1 hb ▸ h
  failure _ := nofun
  silent := rfl

theorem concludes_throw {e : TemplateError} (h : allowed (.template e)) :
    Concludes allowed post (throw e : Evaluation α) where
  result _ ha := absurd ha not_gives_throw
  failure _ hfailure := Except.error.inj hfailure ▸ h
  silent := rfl

theorem concludes_ofNumber {x : Except NumberFault α} (h : ∀ fault, allowed (.number fault)) :
    Concludes allowed (fun _ => True) (ofNumber x) where
  result _ _ := trivial
  failure failure hfailure := by
    cases x with
    | ok a => cases hfailure
    | error fault => exact Except.error.inj hfailure ▸ h fault
  silent := rfl

theorem Concludes.bind {x : Evaluation α} {f : α → Evaluation β} {post' : β → Prop}
    (hx : Concludes allowed post x) (hf : ∀ a, x.Gives a → post a → Concludes allowed post' (f a)) :
    Concludes allowed post' (x >>= f) := by
  cases houtcome : x.outcome with
  | ok a =>
    have ha := hf a houtcome (hx.result a houtcome)
    refine ⟨fun b hb => ha.result b ?_, fun failure hfailure => ha.failure failure ?_, ?_⟩
    · rwa [Gives, Gives.outcome_bind houtcome] at hb
    · rwa [Gives.outcome_bind houtcome] at hfailure
    · rw [calls_bind_of_gives hx.silent houtcome, ha.silent]
  | error failure =>
    rw [Traced.bind_of_error houtcome, show x.trace = [] from hx.silent]
    exact ⟨nofun, fun _ h => Except.error.inj h ▸ hx.failure failure houtcome, rfl⟩

theorem Concludes.imp {x : Evaluation α} {post' : α → Prop} (h : Concludes allowed post x)
    (ha : ∀ failure, allowed failure → allowed' failure) (hp : ∀ a, post a → post' a) :
    Concludes allowed' post' x :=
  ⟨fun a hx => hp a (h.result a hx), fun failure hx => ha failure (h.failure failure hx), h.silent⟩

/-- An evaluation that concludes gives a result or ends in an allowed failure. -/
theorem Concludes.gives_or_fails {x : Evaluation α} (h : Concludes allowed post x) :
    (∃ a, x.Gives a ∧ post a) ∨ ∃ failure, x.outcome = .error failure ∧ allowed failure := by
  cases houtcome : x.outcome with
  | ok a => exact .inl ⟨a, houtcome, h.result a houtcome⟩
  | error failure => exact .inr ⟨failure, rfl, h.failure failure houtcome⟩

end

/-! ### Results that stay -/

/-- Whatever one evaluation gives, another one gives too. -/
def Extends (x y : Evaluation α) : Prop := ∀ a, x.Gives a → y.Gives a

/-- Whatever one evaluation gives, another one gives too, unless it raises an allowed error. -/
def ExtendsUnless (allowed : TemplateError → Prop) (x y : Evaluation α) : Prop :=
  ∀ a, x.Gives a → y.Gives a ∨ ∃ e, allowed e ∧ y.Raises e

theorem Extends.refl (x : Evaluation α) : x.Extends x := fun _ h => h

theorem not_gives_extends {x y : Evaluation α} (h : ∀ a, ¬x.Gives a) : x.Extends y :=
  fun a ha => absurd ha (h a)

/-- Without allowed errors nothing excuses. -/
theorem extendsUnless_false {x y : Evaluation α} :
    ExtendsUnless (fun _ => False) x y ↔ x.Extends y := by
  simp [ExtendsUnless, Extends]

section

variable {allowed : TemplateError → Prop} {x y : Evaluation α} {f g : α → Evaluation β}

theorem Extends.unless (h : x.Extends y) : ExtendsUnless allowed x y := fun a ha => .inl (h a ha)

theorem ExtendsUnless.refl (x : Evaluation α) : ExtendsUnless allowed x x := (Extends.refl x).unless

theorem ExtendsUnless.bind (h : ExtendsUnless allowed x y)
    (hf : ∀ a, ExtendsUnless allowed (f a) (g a)) : ExtendsUnless allowed (x >>= f) (y >>= g) := by
  intro b hb
  obtain ⟨a, ha, hb⟩ := gives_bind.1 hb
  rcases h a ha with ha' | ⟨e, he, hy⟩
  · refine (hf a b hb).imp (fun hb' => gives_bind.2 ⟨a, ha', hb'⟩) ?_
    rintro ⟨e, he, hg⟩
    exact ⟨e, he, raises_bind.2 (.inr ⟨a, ha', hg⟩)⟩
  · exact .inr ⟨e, he, raises_bind.2 (.inl hy)⟩

theorem ExtendsUnless.map {γ : Type} (h : ExtendsUnless allowed x y) (f : α → γ) :
    ExtendsUnless allowed (x >>= fun a => pure (f a)) (y >>= fun a => pure (f a)) :=
  h.bind fun _ => .refl _

theorem Extends.bind (h : x.Extends y) (hf : ∀ a, (f a).Extends (g a)) :
    (x >>= f).Extends (y >>= g) :=
  extendsUnless_false.1 (h.unless.bind fun a => (hf a).unless)

theorem Extends.map {γ : Type} (h : x.Extends y) (f : α → γ) :
    (x >>= fun a => pure (f a)).Extends (y >>= fun a => pure (f a)) :=
  h.bind fun _ => .refl _

end

end Stencil.Evaluation
