import Mathlib.Data.List.Basic
import Stencil.Command.Run
import Stencil.Proofs.OrderedMap
import Stencil.Yaml.Read

/-!
# The verdict of a check

A check looks at the page, without the definitions in it, and at every template that is loaded with it,
and fails if it finds an error in any of them. A template that has the name of the page takes the place
of the page, which is then not looked at (`run_check`). The configuration may be read in any way: the
reader of YAML is the platform's.

* `get?_pageTargets`, `mem_pageTargets_iff`: what is looked at;
* `isFailed_checkAll`: a check fails at an error in what it looks at.
-/

namespace Stencil

/-- There is an error among the issues of a tree. -/
def Issue.Flaws (registry : Registry) (tree : Node) : Prop :=
  ∃ issue ∈ Issue.ofTemplate (some registry) tree, issue.level = .error

namespace Command

/-- What is checked of a page if no template of it is chosen. -/
def pageTargets (name : String) (document : Node) (registry : Registry) : OrderedMap String Node :=
  (OrderedMap.empty.insert name document.stripDefinitions).insertAll registry.entries

variable {name : String} {document : Node} {registry : Registry}

/-- Templates come before the page that has their name. -/
theorem get?_pageTargets (key : String) : (pageTargets name document registry).get? key =
    (registry.get? key).or (if key = name then some document.stripDefinitions else none) := by
  have hrecords : (pageTargets name document registry).Records
      ([(name, document.stripDefinitions)] ++ registry.entries) :=
    (OrderedMap.records_empty.insert name document.stripDefinitions).merge registry.records_entries
  rw [hrecords.value, List.reverse_append, List.lookup_append, ← registry.records_entries.value,
    List.reverse_singleton, List.lookup_cons]
  by_cases hkey : key = name
  · rw [if_pos hkey, hkey, beq_self_eq_true]
  · rw [if_neg hkey, beq_false_of_ne hkey, List.lookup_nil]

/-- Every template is checked, and the page if none has its name. -/
theorem mem_pageTargets_iff {key : String} {tree : Node} :
    (key, tree) ∈ (pageTargets name document registry).entries ↔ registry.get? key = some tree ∨
      registry.get? name = none ∧ key = name ∧ tree = document.stripDefinitions := by
  rw [OrderedMap.mem_entries_iff, get?_pageTargets, Option.or_eq_some_iff]
  refine or_congr_right ⟨?_, ?_⟩
  · rintro ⟨hnone, htree⟩
    split_ifs at htree with hkey
    exact ⟨hkey ▸ hnone, hkey, (Option.some.inj htree).symm⟩
  · rintro ⟨hnone, rfl, rfl⟩
    exact ⟨hnone, if_pos rfl⟩

theorem hasErrors_iff {tree : Node} :
    Issue.hasErrors (Issue.ofTemplate (some registry) tree) = true ↔ Issue.Flaws registry tree := by
  simp [Issue.hasErrors, Issue.Flaws]

theorem isFailed_checkAll {targets : OrderedMap String Node} :
    isFailed (checkAll targets registry) = true ↔
      ∃ target ∈ targets.entries, Issue.Flaws registry target.2 := by
  simp only [isFailed, checkAll, List.any_map, List.any_eq_true, Function.comp_apply, hasErrors_iff]

/-- A check fails at an error in a template, or in the page if no template has its name. -/
theorem isFailed_pageTargets :
    isFailed (checkAll (pageTargets name document registry) registry) = true ↔
      (registry.get? name = none ∧ Issue.Flaws registry document.stripDefinitions) ∨
        ∃ id template, registry.get? id = some template ∧ Issue.Flaws registry template := by
  rw [isFailed_checkAll]
  constructor
  · rintro ⟨⟨key, tree⟩, htarget, hflaws⟩
    rcases mem_pageTargets_iff.1 htarget with htemplate | ⟨hnone, rfl, rfl⟩
    · exact .inr ⟨key, tree, htemplate, hflaws⟩
    · exact .inl ⟨hnone, hflaws⟩
  · rintro (⟨hnone, hflaws⟩ | ⟨id, template, htemplate, hflaws⟩)
    · exact ⟨_, mem_pageTargets_iff.2 (.inr ⟨hnone, rfl, rfl⟩), hflaws⟩
    · exact ⟨_, mem_pageTargets_iff.2 (.inl htemplate), hflaws⟩

end Command

namespace Disk

variable {disk : Disk} {path : FilePath}

/-- A file whose template was loaded is there. -/
theorem find?_of_loadTemplate {tree : Node} (h : disk.loadTemplate path = .ok tree) :
    ∃ entry, disk.find? path = .ok (some entry) := by
  cases hfind : disk.find path with
  | ok entry => exact ⟨entry, by rw [find?, hfind]⟩
  | error reason =>
    have hread : disk.read path = .error ⟨path, reason⟩ := by rw [read, hfind]
    rw [loadTemplate, readText_of_missing hread] at h
    cases h

end Disk

namespace Command

/-- The arguments give the name of one page and choose no template of it, and the page and all templates
    can be loaded. -/
inductive Loads (platform : Platform) (disk : Disk) (args : List String) :
    String → Node → Registry → Prop where
  | intro {o : Options} {config : Config} {name : String} {document : Node} {registry : Registry} :
      Options.parse args = .ok o → o.positional = [name] → o.last? .id = none →
      disk.loadConfig platform disk.currentPath = .ok config →
      disk.loadTemplate (disk.currentPath.join (.ofString name)) = .ok document →
      (disk.loadRegistry (config.templates ++ o.values .templates) (some document)).outcome =
        .ok registry →
      Loads platform disk args name document registry

variable {platform : Platform} {disk : Disk} {args : List String} {name : String} {document : Node}
  {registry : Registry}

theorem outcome_loadPage {config : Config} {path : FilePath} {sources : List String}
    (hconfig : disk.loadConfig platform disk.currentPath = .ok config)
    (hpage : disk.loadTemplate path = .ok document)
    (hregistry : (disk.loadRegistry (config.templates ++ sources) (some document)).outcome =
      .ok registry) : (loadPage platform disk path sources).outcome = .ok (document, registry) := by
  have houtcome (loading : Loading Registry) :
      (loading >>= fun r => pure (document, r)).outcome = loading.outcome.map (document, ·) := by
    cases h : loading.outcome with
    | ok r => rw [Traced.bind_of_ok h]; rfl
    | error fault => rw [Traced.bind_of_error h]; rfl
  rw [loadPage, hconfig, hpage]
  refine (houtcome _).trans ?_
  rw [hregistry]
  rfl

/-- A command whose loading has a result ends as the result does, with the warnings in front of its
    errors. -/
theorem exitCode_ofLoading_of_ok {α : Type} (templateText : TemplateError → Option String)
    (finish : α → Except LoadFault Report) {x : Loading α} {a : α} {r : Report} (h : x.outcome = .ok a)
    (hfinish : finish a = .ok r) :
    ∃ report, Report.ofLoading templateText x finish = .ok report ∧ report.exitCode = r.exitCode := by
  rw [Report.ofLoading, h]
  simp only [hfinish]
  exact ⟨_, rfl, rfl⟩

/-- A check of what can be loaded fails at an error in what it looks at. -/
theorem exitCode_check (h : Loads platform disk args name document registry) :
    ∃ report, run platform disk ("check" :: args) = .ok report ∧ report.exitCode =
      if isFailed (checkAll (pageTargets name document registry) registry) then 1 else 0 := by
  cases h with
  | @intro o config _ _ _ hargs hname hid hconfig hpage hregistry =>
    obtain ⟨entry, hfind⟩ := Disk.find?_of_loadTemplate hpage
    obtain ⟨report, hreport, hcode⟩ := exitCode_ofLoading_of_ok (fun _ => none)
      (fun page => .ok (checkPage name none page)) (outcome_loadPage hconfig hpage hregistry) rfl
    refine ⟨report, ?_, hcode⟩
    rw [run, ← hreport]
    simp only [check, hargs, hname, hfind, hid]
    rfl

/-- If everything can be loaded, a check of a page succeeds if and only if there is no error in any
    template that was loaded, and none in the page without its definitions, unless a template has the name
    that the page is given as; otherwise it exits with 1. -/
theorem run_check (h : Loads platform disk args name document registry) :
    ∃ report, run platform disk ("check" :: args) = .ok report ∧
      (report.exitCode = 0 ↔
        (registry.get? name = none → ¬Issue.Flaws registry document.stripDefinitions) ∧
          ∀ id template, registry.get? id = some template → ¬Issue.Flaws registry template) ∧
      (report.exitCode ≠ 0 → report.exitCode = 1) := by
  obtain ⟨report, hrun, hcode⟩ := exitCode_check h
  have hpassed : ((registry.get? name = none → ¬Issue.Flaws registry document.stripDefinitions) ∧
      ∀ id template, registry.get? id = some template → ¬Issue.Flaws registry template) ↔
      ¬isFailed (checkAll (pageTargets name document registry) registry) = true := by
    rw [isFailed_pageTargets, not_or, not_and]
    simp only [not_exists, not_and]
  refine ⟨report, hrun, ?_⟩
  rw [hpassed, hcode]
  split_ifs with hfailed
  · exact ⟨iff_of_false (by decide) (not_not.2 hfailed), fun _ => rfl⟩
  · exact ⟨iff_of_true rfl hfailed, fun h => absurd rfl h⟩

/-- A disk with one file. -/
def fileDisk (name text : String) : Disk where
  root := .directory [(name, .file (text.toList.map (UInt8.ofNat ·.toNat)))]
  current := []

/-- A disk with one page. -/
def pageDisk (text : String) : Disk := fileDisk "page.html" text

theorem loads_pageDisk {text : String} (hpage : (pageDisk text).loadTemplate
    ((pageDisk text).currentPath.join (.ofString "page.html")) = .ok document) :
    Loads .standard (pageDisk text) ["page.html"] "page.html" document
      (Registry.update .empty (.ofDocument document)) := by
  have hargs : Options.parse ["page.html"] = .ok ⟨["page.html"], []⟩ := by decide
  have hconfig : (pageDisk text).loadConfig .standard (pageDisk text).currentPath = .ok .default :=
    rfl
  exact .intro hargs rfl rfl hconfig hpage rfl

/-- An error in the page is found. -/
theorem run_check_page :
    ∃ report, run .standard (pageDisk "<template id=row>ok</template><if></if>")
      ["check", "page.html"] = .ok report ∧ report.exitCode = 1 := by
  have hpage : (pageDisk "<template id=row>ok</template><if></if>").loadTemplate
      ((pageDisk "<template id=row>ok</template><if></if>").currentPath.join (.ofString "page.html")) =
      .ok (.fragment [.element "template" (.ofList [("id", "row")]) [.text "ok" false] false,
        .element "if" .empty [] false]) := rfl
  obtain ⟨report, hrun, hverdict, hcode⟩ := run_check (loads_pageDisk hpage)
  refine ⟨report, hrun, hcode fun hpassed => (hverdict.1 hpassed).1 rfl ?_⟩
  exact ⟨_, List.mem_singleton_self _, rfl⟩

/-- An error in a page goes unnoticed if a template has the name of the page. -/
theorem not_run_check : ¬∀ (disk : Disk) (args : List String) (name : String) (document : Node)
    (registry : Registry), Loads .standard disk args name document registry →
    ∃ report, run .standard disk ("check" :: args) = .ok report ∧
      (report.exitCode = 0 ↔ ¬Issue.Flaws registry document.stripDefinitions ∧
        ∀ id template, registry.get? id = some template → ¬Issue.Flaws registry template) ∧
      (report.exitCode ≠ 0 → report.exitCode = 1) := by
  intro h
  have hpage : (pageDisk "<template id=page.html>ok</template><if></if>").loadTemplate
      ((pageDisk "<template id=page.html>ok</template><if></if>").currentPath.join
        (.ofString "page.html")) =
      .ok (.fragment [.element "template" (.ofList [("id", "page.html")]) [.text "ok" false] false,
        .element "if" .empty [] false]) := rfl
  obtain ⟨report, hrun, hverdict, -⟩ := h _ _ _ _ _ (loads_pageDisk hpage)
  obtain ⟨report', hrun', hcode⟩ := exitCode_check (loads_pageDisk hpage)
  obtain rfl := Except.ok.inj (hrun.symm.trans hrun')
  exact (hverdict.1 hcode).1 ⟨_, List.mem_singleton_self _, rfl⟩

end Command

end Stencil
