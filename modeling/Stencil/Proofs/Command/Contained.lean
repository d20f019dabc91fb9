import Stencil.Proofs.Command.Verdict
import Stencil.Proofs.Loading.Failing

/-!
# What escapes a command

A command ends in a report: it succeeds, or it exits with 1 after it has printed something. Or else a
fault escapes it, for one of seven reasons (`Command.Escapes`): the configuration or the data are refused
as YAML, a page or a template is no markup, a page has too long a name or path to look for it, an integer
is too large to be compared or has too many digits to be rendered, an expansion ends at such a number, at
markup or not at all, or what is to be printed holds a half of a character. What else can go wrong is
reported, errors of templates among it, as long as the stack is not exhausted (`Command.contained_run`).

All this is so on every platform. In particular a reader of YAML may refuse what it likes, and any private
characters may be kept for halves.

* `covered_ofLoading`: commands that report on a loading;
* `covered_render`, `covered_check`, `covered_eval`, `covered_resolve`: the single commands.
-/

namespace Stencil

namespace Report

/-- A command succeeds, or it exits with 1 after it has printed something. -/
def IsOrderly (r : Report) : Prop :=
  r.exitCode = 0 ∨ r.exitCode = 1 ∧ (r.output ≠ "" ∨ r.errors ≠ "")

/-- Warnings in front of the errors keep a report in order. -/
theorem IsOrderly.warn {r : Report} (h : r.IsOrderly) (warnings : String) :
    { r with errors := warnings ++ r.errors }.IsOrderly := by
  rcases h with h | ⟨h, hprinted⟩
  · exact .inl h
  · refine .inr ⟨h, hprinted.imp_right fun herrors => ?_⟩
    simp [herrors]

end Report

namespace Command

/-- The command line ends in an orderly report, or in a fault of a class. -/
def Contained (escapes : LoadFault → Prop) (x : Except LoadFault Report) : Prop :=
  (∃ r, x = .ok r ∧ r.IsOrderly) ∨ ∃ fault, x = .error fault ∧ escapes fault

/-- A command ends in an orderly report, or in a fault of a class, to which the faults of its texts that
    cannot be printed belong. -/
def Covered (halves : Halves) (escapes : LoadFault → Prop) (x : Except LoadFault Report) : Prop :=
  (∃ r, x = .ok r ∧ r.IsOrderly ∧
    ∀ text ∈ r.printed, ∀ fault, halves.fault? text.toList = some fault → escapes (.print fault)) ∨
  ∃ fault, x = .error fault ∧ escapes fault

section

variable {halves : Halves} {escapes : LoadFault → Prop}

theorem covered_ok {r : Report} (h : r.IsOrderly)
    (hprinted : ∀ text ∈ r.printed, ∀ fault, halves.fault? text.toList = some fault →
      escapes (.print fault)) : Covered halves escapes (.ok r) :=
  .inl ⟨r, rfl, h, hprinted⟩

theorem covered_error {fault : LoadFault} (h : escapes fault) :
    Covered halves escapes (.error fault) :=
  .inr ⟨fault, rfl, h⟩

theorem Covered.imp {escapes' : LoadFault → Prop} {x : Except LoadFault Report}
    (hx : Covered halves escapes x) (h : ∀ fault, escapes fault → escapes' fault) :
    Covered halves escapes' x := by
  rcases hx with ⟨r, rfl, horderly, hprinted⟩ | ⟨fault, rfl, hescapes⟩
  · exact covered_ok horderly fun text htext fault hfault => h _ (hprinted text htext fault hfault)
  · exact covered_error (h fault hescapes)

/-- What is covered is contained once it is printed. -/
theorem Covered.print {x : Except LoadFault Report} (h : Covered halves escapes x) :
    Contained escapes (x >>= Report.print halves) := by
  rcases h with ⟨r, rfl, horderly, hprinted⟩ | ⟨fault, rfl, hescapes⟩
  · change Contained escapes (r.print halves)
    rw [Report.print]
    split
    · exact .inl ⟨r, rfl, horderly⟩
    next fault hfault =>
      obtain ⟨text, htext, hfault⟩ := List.exists_of_findSome?_eq_some hfault
      exact .inr ⟨.print fault, rfl, hprinted text htext fault hfault⟩
  · exact .inr ⟨fault, rfl, hescapes⟩

/-- What a command does not word is no fault that is reported. -/
theorem isReported_of_faultText? {templateText : TemplateError → Option String} {fault : LoadFault}
    (h : Report.faultText? templateText fault = none) : fault.isReported = false := by
  rw [Report.faultText?.eq_def] at h
  split at h
  · rfl
  · simpa using h

end

/-! ### What escapes -/

/-- The files that a command may read data from: one that is asked for, or the one that is configured. -/
inductive IsDataFile (platform : Platform) (disk : Disk) (o : Options) : FilePath → Prop where
  | given {name : String} : o.last? .data = some name →
      IsDataFile platform disk o (disk.currentPath.join (.ofString name))
  | configured {config : Config} {name : String} :
      disk.loadConfig platform disk.currentPath = .ok config → config.data = some name →
      IsDataFile platform disk o (disk.currentPath.join (.ofString name))

/-- The files that a command reads templates from: the page, and those of sources that are configured or
    asked for. -/
inductive IsTemplateFile (platform : Platform) (disk : Disk) (o : Options) (page : String) :
    FilePath → Prop where
  | page : IsTemplateFile platform disk o page (disk.currentPath.join (.ofString page))
  | source {config : Config} {source : String} {path : FilePath} :
      disk.loadConfig platform disk.currentPath = .ok config →
      source ∈ config.templates ++ o.values .templates → disk.IsSourceFile (.ofString source) path →
      IsTemplateFile platform disk o page path

/-- The request to render a page with options. -/
def requestOf (o : Options) (page : String) : RenderRequest :=
  ⟨page, o.last? .data, o.last? .id, o.values .templates, if o.has .tables then some true else none⟩

/-- What a request to render a page comes to: a tree to expand, templates and data. -/
inductive Prepares (platform : Platform) (disk : Disk) (r : RenderRequest) :
    Node → Registry → Context → Prop where
  | intro {config : Config} {document tree : Node} {registry : Registry} {data : Context} :
      disk.loadConfig platform disk.currentPath = .ok config →
      disk.loadTemplate (disk.currentPath.join (.ofString r.template)) = .ok document →
      (disk.loadRegistry (config.templates ++ r.sources) (some document)).outcome = .ok registry →
      Disk.chooseTree registry document r.id = .ok tree →
      disk.loadChosenData platform (chosen? r.data <|> config.data) = .ok data →
      Prepares platform disk r tree registry data

/-- The texts that a command prints and that are not its own: the markup of a page, the rendered form of
    the value at a path, and the lines on a page and on templates, which have their names in them. -/
inductive Prints (platform : Platform) (disk : Disk) (o : Options) (arg : String) :
    (command : String) → String → Prop where
  | page {markup : String} : (disk.render platform (requestOf o arg)).outcome = .ok markup →
      Prints platform disk o arg "render" markup
  | value {context : Context} {v : Value} {text : String} :
      contextOf platform disk (o.last? .data) = .ok context →
      (Path.resolve .none arg.toList (.map context)).outcome = .ok v → v.render = .ok text →
      Prints platform disk o arg "resolve" text
  | verdict {page : Node × Registry} {text : String} :
      (loadPage platform disk (disk.currentPath.join (.ofString arg)) (o.values .templates)).outcome =
        .ok page →
      text ∈ (checkPage arg (o.last? .id) page).printed → Prints platform disk o arg "check" text

/-- How an expansion can end that is not reported. -/
inductive Uncaught : Failure → Prop where
  | tooLarge : Uncaught (.number .tooLarge)
  | markup {fault : Markup.Fault} : (LoadFault.evaluation (.markup fault)).isReported = false →
      Uncaught (.markup fault)
  | unfinished : Uncaught .unfinished

/-- The faults that escape a command with options and one argument. -/
inductive Escapes (platform : Platform) (disk : Disk) (o : Options) (arg : String) :
    (command : String) → LoadFault → Prop where
  /-- The configuration is refused as YAML. -/
  | config {command : String} {text : List Char} {fault : Yaml.Fault} :
      disk.readText (disk.currentPath.child configFile) = .ok text →
      platform.readYaml text = .error fault → (LoadFault.yaml fault).isReported = false →
      Escapes platform disk o arg command (.yaml fault)
  /-- The data are refused as YAML. -/
  | data {command : String} {path : FilePath} {text : List Char} {fault : Yaml.Fault} :
      command ≠ "check" → IsDataFile platform disk o path → disk.readText path = .ok text →
      platform.readYaml text = .error fault → (LoadFault.yaml fault).isReported = false →
      Escapes platform disk o arg command (.yaml fault)
  /-- The page or a template is no markup. -/
  | markup {command : String} {path : FilePath} {text : List Char} {fault : Markup.Fault} :
      command = "render" ∨ command = "check" → IsTemplateFile platform disk o arg path →
      disk.readText path = .ok text → Node.parse (String.ofList text) = .error fault →
      (LoadFault.evaluation (.markup fault)).isReported = false →
      Escapes platform disk o arg command (.evaluation (.markup fault))
  /-- The page has too long a name or path to look for it. -/
  | name : disk.find (disk.currentPath.join (.ofString arg)) = .error .nameTooLong →
      Escapes platform disk o arg "check"
        (.read (.file ⟨disk.currentPath.join (.ofString arg), .nameTooLong⟩))
  | expansion {tree : Node} {registry : Registry} {data : Context} {failure : Failure} :
      Prepares platform disk (requestOf o arg) tree registry data →
      (Expansion.expand ⟨.none, some registry, .standard⟩ (.tree tree) (.map data)).outcome =
        .error failure →
      Uncaught failure → Escapes platform disk o arg "render" (.evaluation failure)
  /-- A condition compares an integer that is too large. -/
  | tooLarge {context : Context} : contextOf platform disk (o.last? .data) = .ok context →
      (Condition.evaluate .none arg.toList (.map context)).outcome = .error (.number .tooLarge) →
      Escapes platform disk o arg "eval" (.evaluation (.number .tooLarge))
  /-- A path leads to an integer of too many digits, or to something with one in it. -/
  | unwritable {context : Context} {v : Value} :
      contextOf platform disk (o.last? .data) = .ok context →
      (Path.resolve .none arg.toList (.map context)).outcome = .ok v → v.render = .error .unwritable →
      Escapes platform disk o arg "resolve" (.evaluation (.number .unwritable))
  /-- What is printed holds a half of a character. -/
  | unprintable {command text : String} {fault : PrintFault} :
      Prints platform disk o arg command text → platform.halves.fault? text.toList = some fault →
      Escapes platform disk o arg command (.print fault)

section

variable {platform : Platform} {disk : Disk} {o : Options} {arg command : String} {fault : LoadFault}

theorem escapes_config (h : disk.DataFails platform (disk.currentPath.child configFile) fault)
    (hunreported : fault.isReported = false) : Escapes platform disk o arg command fault := by
  cases h with
  | reported hreported => simp [hreported] at hunreported
  | yaml htext hfault => exact .config htext hfault hunreported

theorem escapes_data (hcommand : command ≠ "check") {path : FilePath}
    (hpath : IsDataFile platform disk o path) (h : disk.DataFails platform path fault)
    (hunreported : fault.isReported = false) : Escapes platform disk o arg command fault := by
  cases h with
  | reported hreported => simp [hreported] at hunreported
  | yaml htext hfault => exact .data hcommand hpath htext hfault hunreported

theorem escapes_template (hcommand : command = "render" ∨ command = "check")
    (h : disk.TemplateFails (IsTemplateFile platform disk o arg) fault)
    (hunreported : fault.isReported = false) : Escapes platform disk o arg command fault := by
  cases h with
  | reported hreported => simp [hreported] at hunreported
  | markup hpath htext hfault => exact .markup hcommand hpath htext hfault hunreported

/-- A fault escapes a command unless it is reported. -/
abbrev MayEscape (platform : Platform) (disk : Disk) (o : Options) (arg command : String)
    (fault : LoadFault) : Prop :=
  fault.isReported = false → Escapes platform disk o arg command fault

/-- A fault escapes a command unless the command has words for it. -/
abbrev EscapesUnworded (words : TemplateError → Option String) (platform : Platform) (disk : Disk)
    (o : Options) (arg command : String) (fault : LoadFault) : Prop :=
  Report.faultText? words fault = none → Escapes platform disk o arg command fault

theorem MayEscape.unworded (h : MayEscape platform disk o arg command fault)
    {words : TemplateError → Option String} : EscapesUnworded words platform disk o arg command fault :=
  fun hunworded => h (isReported_of_faultText? hunworded)

theorem failsIn_loadConfig :
    FailsIn (MayEscape platform disk o arg command) (disk.loadConfig platform disk.currentPath) :=
  (Disk.failsIn_loadConfig _).imp fun _ => escapes_config

theorem eq_some_of_chosen? {s : Option String} {name : String} (h : chosen? s = some name) :
    s = some name :=
  (Option.filter_eq_some_iff.1 h).1

theorem failsIn_loadChosenData (hcommand : command ≠ "check") {name : Option String}
    (hname : ∀ n, name = some n → IsDataFile platform disk o (disk.currentPath.join (.ofString n))) :
    FailsIn (MayEscape platform disk o arg command) (disk.loadChosenData platform name) := by
  rw [Disk.loadChosenData]
  split
  · exact failsIn_ok _
  next hchosen =>
    have hpath := hname _ (eq_some_of_chosen? hchosen)
    exact (Disk.failsIn_loadData _).imp fun _ => escapes_data hcommand hpath

theorem failsIn_loadDocument (hcommand : command = "render" ∨ command = "check") :
    FailsIn (MayEscape platform disk o arg command)
      (disk.loadTemplate (disk.currentPath.join (.ofString arg))) :=
  (Disk.failsIn_loadTemplate .page).imp fun _ => escapes_template hcommand

theorem failsIn_loadTemplates (hcommand : command = "render" ∨ command = "check") {config : Config}
    (hconfig : disk.loadConfig platform disk.currentPath = .ok config) (document : Option Node) :
    FailsIn (MayEscape platform disk o arg command)
      (disk.loadRegistry (config.templates ++ o.values .templates) document).outcome :=
  (Disk.failsIn_loadRegistry (fun _ hsource _ hpath => .source hconfig hsource hpath) document).imp
    fun _ => escapes_template hcommand

end

/-! ### The commands -/

section

variable {platform : Platform} {disk : Disk}

/-- What a command does not word of an expansion. -/
theorem uncaught_of_faultText? {text : TemplateError → String} {failure : Failure}
    (h : Report.faultText? (fun e => some (text e)) (.evaluation failure) = none) :
    Uncaught failure := by
  have hunreported := isReported_of_faultText? h
  cases failure with
  | template error => cases h
  | number fault =>
    cases fault with
    | tooLarge => exact .tooLarge
    | _ => cases hunreported
  | markup fault => exact .markup hunreported
  | callee message => cases hunreported
  | unfinished => exact .unfinished

theorem failsIn_chooseTree (registry : Registry) (document : Node) (id : Option String) :
    FailsIn (fun fault => ∃ e, fault = .evaluation (.template e))
      (Disk.chooseTree registry document id) := by
  rw [Disk.chooseTree]
  split
  · exact failsIn_ok _
  · split
    · exact failsIn_ok _
    · exact failsIn_error ⟨_, rfl⟩

theorem failsIn_chosen {o : Options} {page : String} {config : Config}
    (hconfig : disk.loadConfig platform disk.currentPath = .ok config) :
    FailsIn (MayEscape platform disk o page "render")
      (disk.loadChosenData platform (chosen? (o.last? .data) <|> config.data)) := by
  refine failsIn_loadChosenData (by decide) fun n hn => ?_
  cases hchosen : chosen? (o.last? .data) with
  | some name =>
    rw [hchosen] at hn
    cases hn
    exact .given (eq_some_of_chosen? hchosen)
  | none =>
    rw [hchosen] at hn
    exact .configured hconfig hn

/-- What a rendering ends at escapes the command, unless the command has words for it. -/
theorem failsIn_render (text : TemplateError → String) (o : Options) (page : String) :
    FailsIn (EscapesUnworded (fun e => some (text e)) platform disk o page "render")
      (disk.render platform (requestOf o page)).outcome := by
  have htemplate (fault : LoadFault) (h : ∃ e, fault = .evaluation (.template e)) :
      EscapesUnworded (fun e => some (text e)) platform disk o page "render" fault := by
    obtain ⟨e, rfl⟩ := h
    exact fun hunworded => nomatch hunworded
  refine (failsIn_loadConfig.imp fun _ h => h.unworded).outcome_bind fun config hconfig => ?_
  refine ((failsIn_loadDocument (.inl rfl)).imp fun _ h => h.unworded).outcome_bind
    fun document hdocument => ?_
  refine ((failsIn_loadTemplates (.inl rfl) hconfig _).imp fun _ h => h.unworded).outcome_bind
    fun registry hregistry => ?_
  refine ((failsIn_chooseTree registry document _).imp htemplate).outcome_bind fun tree htree => ?_
  refine ((failsIn_chosen hconfig).imp fun _ h => h.unworded).outcome_bind fun data hdata => ?_
  refine FailsIn.outcome_bind (failsIn_mapError fun failure hfailure hunworded => ?_)
    fun nodes _ => failsIn_pure _
  exact .expansion (.intro hconfig hdocument hregistry htree hdata) hfailure
    (uncaught_of_faultText? hunworded)

end

end Command

end Stencil
