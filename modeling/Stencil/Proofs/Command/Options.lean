import Mathlib.Tactic.Common
import Stencil.Command.Options
import Stencil.Proofs.Text.Search

/-!
# Spellings of options

Arguments are read from left to right, and what was read to its end does not depend on what follows
(`parse_append`). An option with a value can thus be spelled in two ways wherever it stands: with the
value behind an equals sign or in the next argument. This goes for all values but the empty one. With
nothing behind it the equals sign counts for nothing, and the next argument is the value.

* `classify_text`, `classify_inline`: how the spellings of an option are read;
* `parse_spelling`: both spellings in the middle of arguments.
-/

namespace Stencil.Options

/-- The arguments of two lists in a row. -/
def append (first second : Options) : Options :=
  ⟨first.positional ++ second.positional, first.given ++ second.given⟩

theorem append_consPositional (arg : String) (first second : Options) :
    (consPositional arg first).append second = consPositional arg (first.append second) := rfl

theorem append_consGiven (name : OptionName) (value : String) (first second : Options) :
    (consGiven name value first).append second = consGiven name value (first.append second) := rfl

/-! ### One argument -/

variable {arg inline : String} {name : String} {option : OptionName}

theorem parse_flag (hclass : classify arg = .option name inline)
    (hname : OptionName.ofText? name = some option) (h : option.takesValue = false)
    (rest : List String) : parse (arg :: rest) = (parse rest).map (consGiven option "") := by
  rw [parse.eq_def]
  simp [hclass, hname, h]

theorem parse_inline (hclass : classify arg = .option name inline)
    (hname : OptionName.ofText? name = some option) (h : option.takesValue = true)
    (hne : inline ≠ "") (rest : List String) :
    parse (arg :: rest) = (parse rest).map (consGiven option inline) := by
  rw [parse.eq_def]
  simp [hclass, hname, h, hne]

/-- Without a value behind an equals sign the next argument is the value. -/
theorem parse_apart (hclass : classify arg = .option name "")
    (hname : OptionName.ofText? name = some option) (h : option.takesValue = true)
    (value : String) (rest : List String) :
    parse (arg :: value :: rest) = (parse rest).map (consGiven option value) := by
  rw [parse.eq_def]
  simp [hclass, hname, h]

/-- There is no value behind the last argument. -/
theorem parse_last (hclass : classify arg = .option name "")
    (hname : OptionName.ofText? name = some option) (h : option.takesValue = true) :
    parse [arg] = .error (.noValue option) := by
  rw [parse.eq_def]
  simp [hclass, hname, h]

/-! ### Arguments in a row -/

/-- What is read behind arguments that are read to their end is put behind what they give. -/
theorem map_append {pre : List String} {post : Except OptionFault Options}
    {whole : Except OptionFault Options} {o : Options} {f : Options → Options}
    (hf : ∀ first second : Options, (f first).append second = f (first.append second))
    (ih : ∀ {o : Options}, parse pre = .ok o → whole = post.map o.append)
    (h : (parse pre).map f = .ok o) : whole.map f = post.map o.append := by
  cases hpre : parse pre with
  | error fault =>
    rw [hpre] at h
    cases h
  | ok first =>
    rw [hpre] at h
    cases h
    rw [ih hpre]
    cases post with
    | error fault => rfl
    | ok second => exact congrArg Except.ok (hf first second).symm

/-- The reading of arguments goes on behind arguments that are read to their end. -/
theorem parse_append {pre : List String} {o : Options} (h : parse pre = .ok o)
    (post : List String) : parse (pre ++ post) = (parse post).map o.append := by
  fun_induction parse pre generalizing o with
  | case1 =>
    cases h
    rw [List.nil_append]
    cases parse post <;> rfl
  | case2 arg rest hclass ih =>
    rw [List.cons_append, parse_positional _ hclass]
    exact map_append (append_consPositional arg) ih h
  | case3 => cases h
  | case4 arg rest name inline hclass option hname hflag ih =>
    have hflag : option.takesValue = false := by simpa using hflag
    rw [List.cons_append, parse_flag hclass hname hflag]
    exact map_append (append_consGiven option "") ih h
  | case5 arg rest name inline hclass option hname hvalue hne ih =>
    have hvalue : option.takesValue = true := by simpa using hvalue
    rw [List.cons_append, parse_inline hclass hname hvalue hne]
    exact map_append (append_consGiven option inline) ih h
  | case6 => cases h
  | case7 arg name inline hclass option hname hvalue hempty value rest ih =>
    have hvalue : option.takesValue = true := by simpa using hvalue
    have hclass : classify arg = .option name "" := by rw [hclass, not_not.1 hempty]
    rw [List.cons_append, List.cons_append, parse_apart hclass hname hvalue]
    exact map_append (append_consGiven option value) ih h

/-! ### The spellings of an option -/

theorem ofText?_text (name : OptionName) : OptionName.ofText? name.text = some name := by
  cases name <;> decide

/-- An option on its own. -/
theorem classify_text (name : OptionName) : classify name.text = .option name.text "" := by
  cases name <;> rfl

/-- An option with an equals sign and what stands behind it. -/
theorem classify_inline (name : OptionName) (value : String) :
    classify (name.text ++ "=" ++ value) = .option name.text value := by
  have hlist : (name.text ++ "=" ++ value).toList = name.text.toList ++ '=' :: value.toList := by
    rw [String.toList_append, String.toList_append, List.append_assoc]
    rfl
  have hcut : Text.cutAt '=' (name.text.toList ++ '=' :: value.toList) =
      some (name.text.toList, value.toList) :=
    Text.cutAt_append (by cases name <;> decide) _
  have hdashes : ∃ rest, Text.dropLead? ['-', '-'] (name.text.toList ++ '=' :: value.toList) =
      some rest := by
    cases name <;> exact ⟨_, rfl⟩
  obtain ⟨rest, hrest⟩ := hdashes
  rw [classify, hlist, hrest]
  simp only [hcut, String.ofList_toList]

/-- Both spellings of an option that takes a value mean the same in the middle of arguments: what
    stands before it is read first, then the option with its value, then the rest. If nothing stands
    behind the equals sign, it may as well be left out: the value is the next argument. -/
theorem parse_spelling {pre : List String} {o : Options} (hpre : parse pre = .ok o)
    {name : OptionName} (hname : name.takesValue = true) (value : String) (post : List String) :
    parse (pre ++ name.text :: value :: post) =
      (parse post).map (fun rest => o.append (consGiven name value rest)) ∧
    (value ≠ "" → parse (pre ++ (name.text ++ "=" ++ value) :: post) =
      parse (pre ++ name.text :: value :: post)) ∧
    parse (pre ++ (name.text ++ "=") :: post) = parse (pre ++ name.text :: post) := by
  have hapart (value : String) (post : List String) : parse (name.text :: value :: post) =
      (parse post).map (consGiven name value) :=
    parse_apart (classify_text name) (ofText?_text name) hname value post
  refine ⟨?_, ?_, ?_⟩
  · rw [parse_append hpre, hapart]
    cases parse post <;> rfl
  · intro hne
    rw [parse_append hpre, parse_append hpre, hapart,
      parse_inline (classify_inline name value) (ofText?_text name) hname hne]
  · have hclass : classify (name.text ++ "=") = .option name.text "" := by
      simpa using classify_inline name ""
    rw [parse_append hpre, parse_append hpre]
    cases post with
    | nil =>
      rw [parse_last hclass (ofText?_text name) hname,
        parse_last (classify_text name) (ofText?_text name) hname]
    | cons value post =>
      rw [hapart, parse_apart hclass (ofText?_text name) hname]

/-- Data and a flag behind a page. -/
theorem parse_spelling_page :
    parse ["page.html"] = .ok ⟨["page.html"], []⟩ ∧ OptionName.data.takesValue = true ∧
    parse (["page.html"] ++ "--data" :: "d.json" :: ["--tables"]) =
      .ok ⟨["page.html"], [(.data, "d.json"), (.tables, "")]⟩ ∧
    parse (["page.html"] ++ ("--data" ++ "=" ++ "d.json") :: ["--tables"]) =
      parse (["page.html"] ++ "--data" :: "d.json" :: ["--tables"]) ∧
    parse (["page.html"] ++ ("--data" ++ "=") :: ["--tables"]) =
      parse (["page.html"] ++ "--data" :: ["--tables"]) := by
  have hpre : parse ["page.html"] = .ok ⟨["page.html"], []⟩ := by rfl
  obtain ⟨hgiven, hinline, hnothing⟩ :=
    parse_spelling hpre (by rfl : OptionName.data.takesValue = true) "d.json" ["--tables"]
  exact ⟨hpre, rfl, hgiven, hinline (by decide), hnothing⟩

/-- The empty value, spelled with an equals sign, is not taken: the next argument is. -/
theorem parse_spelling_empty :
    parse ([] ++ ("--data" ++ "=" ++ "") :: ["a"]) = .ok ⟨[], [(.data, "a")]⟩ ∧
    parse ([] ++ "--data" :: "" :: ["a"]) = .ok ⟨["a"], [(.data, "")]⟩ ∧
    parse ([] ++ ("--data" ++ "=" ++ "") :: ["a"]) ≠ parse ([] ++ "--data" :: "" :: ["a"]) := by
  have hinline : parse ([] ++ ("--data" ++ "=" ++ "") :: ["a"]) = .ok ⟨[], [(.data, "a")]⟩ := by
    rfl
  have hapart : parse ([] ++ "--data" :: "" :: ["a"]) = .ok ⟨["a"], [(.data, "")]⟩ := by rfl
  refine ⟨hinline, hapart, ?_⟩
  rw [hinline, hapart]
  intro h
  cases h

end Stencil.Options
