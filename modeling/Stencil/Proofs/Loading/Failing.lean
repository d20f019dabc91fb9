import Stencil.Loading.Data
import Stencil.Proofs.Failing
import Stencil.Proofs.Files.Glob

/-!
# Why loadings end early

A loading that ends early ends in a fault that is reported, unless the platform's reader of YAML refuses a
text where values are loaded (`Disk.DataFails`), or a text is no markup where templates are
(`Disk.TemplateFails`).

* `Json.failsIn_read`, `Config.failsIn_ofValue`: what is wrong with JSON and with the values of
  configurations is reported;
* `Disk.failsIn_loadConfig`, `Disk.failsIn_loadData`: configurations and data;
* `Disk.failsIn_loadTemplate`, `Disk.failsIn_loadRegistry`: templates.
-/

namespace Stencil

/-! ### JSON -/

namespace Json

/-- A text in JSON is malformed at a place, or an integer has too many digits there. -/
inductive Stop.Expected : Stop → Prop where
  | malformed (reason : Reason) (left : Nat) : Expected (.malformed reason left)
  | digits (n : Nat) : Expected (.number (.unreadable n))

variable {halves : Halves}

theorem failsIn_stop {α : Type} (reason : Reason) (s : List Char) :
    FailsIn Stop.Expected (stop reason s : Except Stop α) :=
  failsIn_error (.malformed reason s.length)

theorem failsIn_readUnicode (s : List Char) : FailsIn Stop.Expected (readUnicode halves s) := by
  rw [readUnicode]
  split
  · exact failsIn_stop _ _
  split
  · split
    · split
      · exact failsIn_stop _ _
      · split <;> exact failsIn_ok _
    · exact failsIn_ok _
  · exact failsIn_ok _

theorem failsIn_readText (opening : List Char) (fuel : Nat) (s : List Char) :
    FailsIn Stop.Expected (readText halves opening fuel s) := by
  induction fuel generalizing s with
  | zero => exact failsIn_stop _ _
  | succ fuel ih =>
    cases s with
    | nil => exact failsIn_stop _ _
    | cons c s =>
      rw [readText.eq_def]
      dsimp only
      split
      · exact failsIn_ok _
      split
      · split
        · exact failsIn_stop _ _
        split
        · exact (failsIn_readUnicode _).bind fun _ _ => (ih _).bind fun _ _ => failsIn_ok _
        split
        · exact failsIn_stop _ _
        · exact (ih _).bind fun _ _ => failsIn_ok _
      split
      · exact failsIn_stop _ _
      · exact (ih _).bind fun _ _ => failsIn_ok _

theorem failsIn_readNumber (s : List Char) : FailsIn Stop.Expected (readNumber s) := by
  rw [readNumber.eq_def]
  dsimp only
  split_ifs
  · exact failsIn_stop _ _
  · split
    · exact failsIn_ok _
    next fault hfault =>
      rw [Numeral.failsIn_toInt _ _ fault hfault]
      exact failsIn_error (.digits _)
  · exact failsIn_ok _

mutual

theorem failsIn_readValue (fuel : Nat) (s : List Char) :
    FailsIn Stop.Expected (readValue halves fuel s) := by
  cases fuel with
  | zero => exact failsIn_stop _ _
  | succ fuel =>
    rw [readValue.eq_def]
    dsimp only
    split
    · exact (failsIn_readText _ _ _).bind fun _ _ => failsIn_ok _
    · split
      · exact failsIn_ok _
      · exact (failsIn_readEntries fuel _).bind fun _ _ => failsIn_ok _
    · split
      · exact failsIn_ok _
      · exact (failsIn_readItems fuel _).bind fun _ _ => failsIn_ok _
    · split
      · exact failsIn_ok _
      · exact failsIn_readNumber _

theorem failsIn_readItems (fuel : Nat) (s : List Char) :
    FailsIn Stop.Expected (readItems halves fuel s) := by
  cases fuel with
  | zero => exact failsIn_stop _ _
  | succ fuel =>
    rw [readItems]
    refine (failsIn_readValue fuel s).bind fun _ _ => ?_
    dsimp only
    split
    · exact failsIn_ok _
    · exact (failsIn_readItems fuel _).bind fun _ _ => failsIn_ok _
    · exact failsIn_stop _ _

theorem failsIn_readEntries (fuel : Nat) (s : List Char) :
    FailsIn Stop.Expected (readEntries halves fuel s) := by
  cases fuel with
  | zero => exact failsIn_stop _ _
  | succ fuel =>
    rw [readEntries.eq_def]
    dsimp only
    split
    · refine (failsIn_readText _ _ _).bind fun _ _ => ?_
      split
      · refine (failsIn_readValue fuel _).bind fun _ _ => ?_
        split
        · exact failsIn_ok _
        · exact (failsIn_readEntries fuel _).bind fun _ _ => failsIn_ok _
        · exact failsIn_stop _ _
      · exact failsIn_stop _ _
    · exact failsIn_stop _ _

end

/-- Every fault of a text in JSON is reported. -/
theorem failsIn_read (s : List Char) :
    FailsIn (fun fault => (LoadFault.json fault).isReported = true) (read halves s) := by
  rw [read.eq_def]
  split
  · exact failsIn_error rfl
  · have hdocument : FailsIn Stop.Expected (readDocument halves s) := by
      refine (failsIn_readValue _ _).bind fun _ _ => ?_
      dsimp only
      split
      · exact failsIn_ok _
      · exact failsIn_error (.malformed _ _)
    refine failsIn_mapError (hdocument.imp fun stop hstop => ?_)
    cases hstop <;> rfl

end Json

/-! ### Configurations -/

/-- Texts of values in a row fail as a single one does. -/
theorem Value.failsIn_mapM_plain (vs : List Value) : FailsIn (· = .unwritable) (vs.mapM plain) := by
  induction vs with
  | nil => exact failsIn_ok []
  | cons v vs ih =>
    rw [List.mapM_cons]
    exact (failsIn_plain v).bind fun _ _ => ih.bind fun _ _ => failsIn_ok _

namespace Config

/-- A fault that is reported if a configuration has it. -/
abbrev Reported (fault : ConfigFault) : Prop := (LoadFault.config fault).isReported = true

theorem failsIn_ofEntries (entries : Context) : FailsIn Reported (ofEntries entries) := by
  rw [ofEntries]
  dsimp only
  split
  next paths _ =>
    have htemplates : FailsIn Reported ((paths.mapM Value.plain).mapError ConfigFault.number) :=
      failsIn_mapError ((Value.failsIn_mapM_plain paths).imp fun _ h => h ▸ rfl)
    split
    · exact htemplates.bind fun _ _ => failsIn_ok _
    · exact htemplates.bind fun _ _ => failsIn_ok _
    · exact failsIn_error rfl
  · exact failsIn_error rfl

/-- Every reason why a value is no configuration is reported. -/
theorem failsIn_ofValue (v : Value) : FailsIn Reported (ofValue v) := by
  cases v with
  | null => exact failsIn_ok _
  | map entries => exact failsIn_ofEntries entries
  | _ => exact failsIn_error rfl

end Config

/-! ### Files -/

theorem eq_ok_of_mapError {ε ε' α : Type} {x : Except ε α} {f : ε → ε'} {a : α}
    (h : x.mapError f = .ok a) : x = .ok a := by
  cases x with
  | ok b => exact congrArg Except.ok (Except.ok.inj h)
  | error e => cases h

namespace Disk

variable {platform : Platform} {disk : Disk}

theorem failsIn_readText (path : FilePath) :
    FailsIn (·.isReported = true) ((disk.readText path).mapError LoadFault.read) :=
  failsIn_mapError fun _ _ => rfl

theorem failsIn_find? (path : FilePath) : FailsIn (·.isReported = true)
    ((disk.find? path).mapError (LoadFault.read ∘ ReadFault.file)) :=
  failsIn_mapError fun _ _ => rfl

theorem find_of_find? {path : FilePath} {entry : Entry} (h : disk.find? path = .ok (some entry)) :
    disk.find path = .ok entry := by
  rw [find?] at h
  split at h <;> cases h
  assumption

/-- Why values cannot be loaded from a file: a fault is reported, or its text is refused as YAML. -/
inductive DataFails (platform : Platform) (disk : Disk) (path : FilePath) : LoadFault → Prop where
  | reported {fault : LoadFault} : fault.isReported = true → DataFails platform disk path fault
  | yaml {text : List Char} {fault : Yaml.Fault} : disk.readText path = .ok text →
      platform.readYaml text = .error fault → DataFails platform disk path (.yaml fault)

theorem failsIn_readYaml {path : FilePath} {text : List Char} (h : disk.readText path = .ok text) :
    FailsIn (disk.DataFails platform path) ((platform.readYaml text).mapError LoadFault.yaml) :=
  failsIn_mapError fun _ hfault => .yaml h hfault

/-- A configuration is loaded, or there is a fault that is reported, or its file holds no YAML. -/
theorem failsIn_loadConfig (directory : FilePath) :
    FailsIn (disk.DataFails platform (directory.child configFile))
      (disk.loadConfig platform directory) := by
  refine ((failsIn_find? _).imp fun _ => .reported).bind fun found _ => ?_
  cases found with
  | none => exact failsIn_ok _
  | some entry =>
    refine ((failsIn_readText _).imp fun _ => .reported).bind fun text htext => ?_
    have hconfig : FailsIn (disk.DataFails platform (directory.child configFile))
        (readConfig platform text) := by
      refine (failsIn_readYaml (eq_ok_of_mapError htext)).bind fun v _ => failsIn_mapError ?_
      exact (Config.failsIn_ofValue v).imp fun _ => .reported
    exact hconfig.bind fun _ _ => failsIn_ok _

theorem failsIn_dataOf (path : FilePath) (v : Value) :
    FailsIn (·.isReported = true) (dataOf path v) := by
  rw [dataOf.eq_def]
  split
  · exact failsIn_ok _
  · exact failsIn_ok _
  · exact failsIn_error rfl

/-- Data are loaded, or there is a fault that is reported, or their file holds no YAML. -/
theorem failsIn_loadData (path : FilePath) :
    FailsIn (disk.DataFails platform path) (disk.loadData platform path) := by
  have hmapping (v : Value) : FailsIn (disk.DataFails platform path) (dataOf path v) :=
    (failsIn_dataOf path v).imp fun _ => .reported
  refine ((failsIn_readText path).imp fun _ => .reported).bind fun text htext => ?_
  dsimp only
  split
  · refine FailsIn.bind (failsIn_mapError ?_) fun v _ => hmapping v
    exact (Json.failsIn_read text).imp fun _ => .reported
  · exact (failsIn_readYaml (eq_ok_of_mapError htext)).bind fun v _ => hmapping v

/-- Why templates cannot be loaded from some files: a fault is reported, or a text is no markup. -/
inductive TemplateFails (disk : Disk) (paths : FilePath → Prop) : LoadFault → Prop where
  | reported {fault : LoadFault} : fault.isReported = true → TemplateFails disk paths fault
  | markup {path : FilePath} {text : List Char} {fault : Markup.Fault} : paths path →
      disk.readText path = .ok text → Node.parse (String.ofList text) = .error fault →
      TemplateFails disk paths (.evaluation (.markup fault))

variable {paths : FilePath → Prop}

theorem failsIn_parseTemplate {path : FilePath} {text : List Char} (hpath : paths path)
    (htext : disk.readText path = .ok text) :
    FailsIn (disk.TemplateFails paths) (parseTemplate text) := by
  refine failsIn_mapError ?_
  cases hnode : Node.parse (String.ofList text) with
  | ok node => exact failsIn_ok _
  | error fault => exact failsIn_error (.markup hpath htext hnode)

theorem failsIn_loadTemplate {path : FilePath} (hpath : paths path) :
    FailsIn (disk.TemplateFails paths) (disk.loadTemplate path) :=
  ((failsIn_readText path).imp fun _ => .reported).bind fun _ htext =>
    failsIn_parseTemplate hpath (eq_ok_of_mapError htext)

theorem failsIn_loadFiles {files : List FilePath} (hfiles : ∀ path ∈ files, paths path)
    (registry : Registry) :
    FailsIn (disk.TemplateFails paths) (disk.loadFiles registry files).outcome := by
  induction files generalizing registry with
  | nil => exact failsIn_ok registry
  | cons path files ih =>
    obtain ⟨hpath, hfiles⟩ := List.forall_mem_cons.1 hfiles
    rw [loadFiles]
    split
    · exact FailsIn.outcome_bind (failsIn_ok ()) fun _ _ => ih hfiles registry
    next htext => exact (failsIn_parseTemplate hpath htext).outcome_bind fun _ _ => ih hfiles _

/-- The files that templates are loaded from at a path: the one there, or those of a directory. -/
inductive IsSourceFile (disk : Disk) (path : FilePath) : FilePath → Prop where
  | file : IsSourceFile disk path path
  | within {entries : List (String × Entry)} {name : String} :
      disk.find path = .ok (.directory entries) → name ∈ templateNames entries →
      IsSourceFile disk path (path.child name)

theorem failsIn_loadDirectory {path : FilePath} (hpaths : ∀ p, disk.IsSourceFile path p → paths p) :
    FailsIn (disk.TemplateFails paths) (disk.loadDirectory path templatePattern).outcome := by
  refine ((failsIn_find? path).imp fun _ => .reported).outcome_bind fun found hfound => ?_
  split
  next entries =>
    have hfind : disk.find path = .ok (.directory entries) := find_of_find? (eq_ok_of_mapError hfound)
    rw [Glob.files_templatePattern hfind]
    refine failsIn_loadFiles (fun p hp => ?_) _
    obtain ⟨name, hname, rfl⟩ := List.mem_map.1 (List.mem_filter.1 hp).1
    exact hpaths _ (.within hfind hname)
  · exact failsIn_ok _

theorem failsIn_loadSource {source : String}
    (hpaths : ∀ p, disk.IsSourceFile (.ofString source) p → paths p) (registry : Registry) :
    FailsIn (disk.TemplateFails paths) (disk.loadSource registry source).outcome := by
  refine ((failsIn_find? _).imp fun _ => .reported).outcome_bind fun found _ => ?_
  split
  · exact (failsIn_loadDirectory hpaths).outcome_bind fun _ _ => failsIn_ok _
  · exact (failsIn_loadTemplate (hpaths _ .file)).outcome_bind fun _ _ => failsIn_ok _
  · exact failsIn_error (.reported rfl)

theorem failsIn_loadSources {sources : List String}
    (hpaths : ∀ source ∈ sources, ∀ p, disk.IsSourceFile (.ofString source) p → paths p)
    (registry : Registry) :
    FailsIn (disk.TemplateFails paths) (disk.loadSources registry sources).outcome := by
  induction sources generalizing registry with
  | nil => exact failsIn_ok registry
  | cons source sources ih =>
    obtain ⟨hsource, hsources⟩ := List.forall_mem_cons.1 hpaths
    exact (failsIn_loadSource hsource registry).outcome_bind fun _ _ => ih hsources _

/-- Templates are loaded, or there is a fault that is reported, or one of their files holds no markup. -/
theorem failsIn_loadRegistry {sources : List String}
    (hpaths : ∀ source ∈ sources, ∀ p, disk.IsSourceFile (.ofString source) p → paths p)
    (document : Option Node) :
    FailsIn (disk.TemplateFails paths) (disk.loadRegistry sources document).outcome := by
  refine (failsIn_loadSources hpaths _).outcome_bind fun registry _ => ?_
  cases document <;> exact failsIn_ok _

end Disk

end Stencil
