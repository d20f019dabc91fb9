import Stencil.Proofs.Files.Glob
import Stencil.Proofs.OrderedMap

/-!
# Which template counts

Everything that defines templates does so in a sequence: a file defines its own tree under its own name
and then what the `<template>` elements in it define, a directory what its files define in the order of
their names, and sources what they define one after the other, the document last. A file that cannot be
read defines nothing.

A registry is told by that sequence: its names come in the order in which they are first defined, and
each stands for the tree that defines it last. It does not matter that the registry is put together from
registries of directories and of documents.

* `records_change`, `records_changes`: calls that register a template or put in another registry;
* `records_loadFiles`, `records_loadSource`: the files of a directory, one source;
* `loadRegistry_records`: the registry of sources and a document.
-/

namespace Stencil

/-! ### Calls on a registry -/

/-- A call that changes a registry. -/
inductive RegistryChange where
  | register (id : String) (template : Node)
  | update (other : Registry)

/-- A call brings in a sequence of definitions: a single one, or any by which the registry that is put in
    is told. -/
inductive RegistryChange.Brings : RegistryChange → List (String × Node) → Prop where
  | register (id : String) (template : Node) : Brings (.register id template) [(id, template)]
  | update {other : Registry} {pairs : List (String × Node)} : other.Records pairs →
      Brings (.update other) pairs

namespace Registry

/-- The registry after a call. -/
def change (registry : Registry) : RegistryChange → Registry
  | .register id template => registry.insert id template
  | .update other => update registry other

theorem records_change {registry : Registry} {pairs brought : List (String × Node)}
    {call : RegistryChange} (h : registry.Records pairs) (hcall : call.Brings brought) :
    (change registry call).Records (pairs ++ brought) := by
  cases hcall with
  | register id template => exact h.insert id template
  | update hother => exact h.merge hother

/-- After any calls a registry is told by what they brought in, one after the other. -/
theorem records_changes {registry : Registry} {pairs : List (String × Node)}
    {calls : List RegistryChange} {brought : List (List (String × Node))}
    (h : registry.Records pairs) (hcalls : List.Forall₂ RegistryChange.Brings calls brought) :
    (calls.foldl change registry).Records (pairs ++ brought.flatten) := by
  induction hcalls generalizing registry pairs with
  | nil => rwa [List.flatten_nil, List.append_nil]
  | cons hcall _ ih =>
    rw [List.flatten_cons, ← List.append_assoc]
    exact ih (records_change h hcall)

/-- A file registers its tree and then what is defined in it. -/
theorem records_addFile {registry : Registry} {pairs : List (String × Node)} (path : FilePath)
    (tree : Node) (h : registry.Records pairs) :
    (registry.addFile path tree).Records (pairs ++ (path.stem, tree) :: definitions tree) := by
  have hfile := (h.insert path.stem tree).merge (OrderedMap.records_ofList (definitions tree))
  rwa [List.append_assoc, List.singleton_append] at hfile

end Registry

/-! ### What is defined on a disk -/

namespace Disk

variable {disk : Disk}

/-- What a file defines: its tree under its own name, and the templates in it. -/
def fileDefinitions (disk : Disk) (path : FilePath) : List (String × Node) :=
  match disk.loadTemplate path with
  | .ok tree => (path.stem, tree) :: Registry.definitions tree
  | .error _ => []

/-- What a source defines: a directory what its templates define. -/
def sourceDefinitions (disk : Disk) (path : FilePath) : List (String × Node) :=
  match disk.find path with
  | .ok (.directory entries) =>
    (templateNames entries).flatMap fun name => disk.fileDefinitions (path.child name)
  | .ok (.file _) => disk.fileDefinitions path
  | .error _ => []

/-- What sources define, and a document after them. -/
def definitionSequence (disk : Disk) (sources : List String) (document : Option Node) :
    List (String × Node) :=
  (sources.flatMap fun source => disk.sourceDefinitions (.ofString source)) ++
    document.elim [] Registry.definitions

/-- If a file has a text it is one of markup. -/
def Accepts (disk : Disk) (path : FilePath) : Prop :=
  ∀ text, disk.readText path = .ok text → ∃ tree, parseTemplate text = .ok tree

/-- Templates can be loaded from a path: from a directory whose texts are markup, or from a file that can
    be read. -/
inductive IsSource (disk : Disk) (path : FilePath) : Prop where
  | directory {entries : List (String × Entry)} : disk.find path = .ok (.directory entries) →
      (∀ name ∈ templateNames entries, disk.Accepts (path.child name)) → IsSource disk path
  | file {bytes : List UInt8} {tree : Node} : disk.find path = .ok (.file bytes) →
      disk.loadTemplate path = .ok tree → IsSource disk path

theorem fileDefinitions_of_error {path : FilePath} {fault : ReadFault}
    (h : disk.readText path = .error fault) : disk.fileDefinitions path = [] := by
  rw [fileDefinitions, loadTemplate, h]
  rfl

theorem fileDefinitions_of_ok {path : FilePath} {text : List Char} {tree : Node}
    (h : disk.readText path = .ok text) (htree : parseTemplate text = .ok tree) :
    disk.fileDefinitions path = (path.stem, tree) :: Registry.definitions tree := by
  have hload : disk.loadTemplate path = .ok tree := by
    rw [loadTemplate, h]
    exact htree
  rw [fileDefinitions, hload]

/-- What is not on the disk defines nothing. -/
theorem fileDefinitions_of_missing {path : FilePath} (h : (disk.find path).toOption.isSome = false) :
    disk.fileDefinitions path = [] := by
  cases hfind : disk.find path with
  | ok entry => rw [hfind] at h; cases h
  | error reason =>
    have hread : disk.read path = .error ⟨path, reason⟩ := by rw [read, hfind]
    exact fileDefinitions_of_error (readText_of_missing hread)

/-! ### Loading -/

theorem outcome_bind {α β : Type} {x : Loading α} {a : α} (h : x.outcome = .ok a)
    (f : α → Loading β) : (x >>= f).outcome = (f a).outcome := by
  rw [Traced.bind_of_ok h]

/-- The files of a directory: those that can be read are put in, and the others are passed over. -/
theorem records_loadFiles {files : List FilePath} (hfiles : ∀ path ∈ files, disk.Accepts path)
    {registry : Registry} {pairs : List (String × Node)} (h : registry.Records pairs) :
    ∃ r, (disk.loadFiles registry files).outcome = .ok r ∧
      r.Records (pairs ++ files.flatMap disk.fileDefinitions) := by
  induction files generalizing registry pairs with
  | nil => exact ⟨registry, rfl, by rwa [List.flatMap_nil, List.append_nil]⟩
  | cons path files ih =>
    obtain ⟨hpath, hfiles⟩ := List.forall_mem_cons.1 hfiles
    rw [loadFiles, List.flatMap_cons]
    cases hread : disk.readText path with
    | error fault =>
      rw [fileDefinitions_of_error hread, List.nil_append]
      exact ih hfiles h
    | ok text =>
      obtain ⟨tree, htree⟩ := hpath text hread
      rw [fileDefinitions_of_ok hread htree, ← List.append_assoc]
      obtain ⟨r, hr, hrecords⟩ := ih hfiles (Registry.records_addFile path tree h)
      refine ⟨r, ?_, hrecords⟩
      rw [← hr]
      exact outcome_bind htree _

theorem outcome_find {path : FilePath} {entry : Entry} (h : disk.find path = .ok entry) :
    (Loading.ofExcept ((disk.find? path).mapError (LoadFault.read ∘ ReadFault.file))).outcome =
      .ok (some entry) := by
  rw [find?, h]
  rfl

/-- What a directory defines is what its templates define, in the order of their names. -/
theorem records_loadDirectory {path : FilePath} {entries : List (String × Entry)}
    (hfind : disk.find path = .ok (.directory entries))
    (haccepts : ∀ name ∈ templateNames entries, disk.Accepts (path.child name)) :
    ∃ r, (disk.loadDirectory path templatePattern).outcome = .ok r ∧
      r.Records
        ((templateNames entries).flatMap fun name => disk.fileDefinitions (path.child name)) := by
  have hselected := Glob.files_templatePattern hfind
  generalize hfiles : ((templateNames entries).map path.child).filter _ = files at hselected
  have hreadable : ∀ q ∈ files, disk.Accepts q := by
    intro q hq
    rw [← hfiles, List.mem_filter] at hq
    obtain ⟨name, hname, rfl⟩ := List.mem_map.1 hq.1
    exact haccepts name hname
  have hdefined : files.flatMap disk.fileDefinitions =
      (templateNames entries).flatMap fun name => disk.fileDefinitions (path.child name) := by
    rw [← hfiles, List.filter_map, List.flatMap_map]
    generalize templateNames entries = names
    induction names with
    | nil => rfl
    | cons name names ih =>
      rw [List.filter_cons, List.flatMap_cons, ← ih]
      split_ifs with hfound
      · rw [List.flatMap_cons]
      · rw [fileDefinitions_of_missing (by simpa using hfound), List.nil_append]
  obtain ⟨r, hr, hrecords⟩ := records_loadFiles hreadable OrderedMap.records_empty
  refine ⟨r, ?_, by rwa [hdefined, List.nil_append] at hrecords⟩
  rw [loadDirectory, outcome_bind (outcome_find hfind)]
  refine (outcome_bind ?_ _).trans hr
  rw [hselected]
  rfl

theorem records_loadSource {source : String} (hsource : disk.IsSource (.ofString source))
    {registry : Registry} {pairs : List (String × Node)} (h : registry.Records pairs) :
    ∃ r, (disk.loadSource registry source).outcome = .ok r ∧
      r.Records (pairs ++ disk.sourceDefinitions (.ofString source)) := by
  cases hsource with
  | @directory entries hfind haccepts =>
    obtain ⟨r, hr, hrecords⟩ := records_loadDirectory hfind haccepts
    refine ⟨registry.update r, ?_, ?_⟩
    · rw [loadSource, outcome_bind (outcome_find hfind)]
      exact outcome_bind hr _
    · rw [sourceDefinitions, hfind]
      exact h.merge hrecords
  | @file bytes tree hfind hload =>
    refine ⟨registry.addFile (.ofString source) tree, ?_, ?_⟩
    · rw [loadSource, outcome_bind (outcome_find hfind)]
      exact outcome_bind hload _
    · rw [sourceDefinitions, hfind]
      simp only [fileDefinitions, hload]
      exact Registry.records_addFile (.ofString source) tree h

theorem records_loadSources {sources : List String}
    (hsources : ∀ source ∈ sources, disk.IsSource (.ofString source)) {registry : Registry}
    {pairs : List (String × Node)} (h : registry.Records pairs) :
    ∃ r, (disk.loadSources registry sources).outcome = .ok r ∧
      r.Records (pairs ++ sources.flatMap fun source => disk.sourceDefinitions (.ofString source)) := by
  induction sources generalizing registry pairs with
  | nil => exact ⟨registry, rfl, by rwa [List.flatMap_nil, List.append_nil]⟩
  | cons source sources ih =>
    obtain ⟨hsource, hsources⟩ := List.forall_mem_cons.1 hsources
    obtain ⟨between, hbetween, hrecords⟩ := records_loadSource hsource h
    obtain ⟨r, hr, hrecords⟩ := ih hsources hrecords
    rw [loadSources, outcome_bind hbetween, List.flatMap_cons, ← List.append_assoc]
    exact ⟨r, hr, hrecords⟩

/-- The registry of sources and a document is told by what they define one after the other: its names
    come in the order in which they are first defined, each once, and each stands for the tree that
    defines it last. The same holds of a registry after any calls that register a template or put in
    another registry. -/
theorem loadRegistry_records (disk : Disk) (sources : List String) (document : Option Node)
    (hsources : ∀ source ∈ sources, disk.IsSource (.ofString source)) :
    (∃ registry, (disk.loadRegistry sources document).outcome = .ok registry ∧
      registry.keys.Nodup ∧ registry.Records (disk.definitionSequence sources document)) ∧
    ∀ (registry : Registry) (pairs : List (String × Node)) (calls : List RegistryChange)
      (brought : List (List (String × Node))), registry.Records pairs →
      List.Forall₂ RegistryChange.Brings calls brought →
      (calls.foldl Registry.change registry).Records (pairs ++ brought.flatten) := by
  refine ⟨?_, fun _ _ _ _ h hcalls => Registry.records_changes h hcalls⟩
  obtain ⟨r, hr, hrecords⟩ := records_loadSources hsources OrderedMap.records_empty
  rw [List.nil_append] at hrecords
  rw [loadRegistry, outcome_bind hr]
  cases document with
  | none =>
    refine ⟨r, rfl, r.nodup_keys, ?_⟩
    rwa [definitionSequence, Option.elim_none, List.append_nil]
  | some document =>
    exact ⟨r.update (.ofDocument document), rfl, OrderedMap.nodup_keys _,
      hrecords.merge (OrderedMap.records_ofList (Registry.definitions document))⟩

/-- A directory of two templates, a file that holds no text and one that is no template. -/
def shelf : List (String × Entry) := [
  ("b.html", .file ("<p><template id=a>2</template></p>".toList.map (UInt8.ofNat ·.toNat))),
  ("c.html", .file [0xff]), ("n.txt", .file []), ("a.html", .file [0x31])]

/-- A disk with that directory and a template in a file. -/
def shelfDisk : Disk where
  root := .directory [("t", .directory shelf),
    ("one.html", .file ("<template id=b>X</template>".toList.map (UInt8.ofNat ·.toNat)))]
  current := []

/-- The template `a` keeps its place when the file behind it defines it again, and `b` is what the second
    source makes of it. -/
theorem loadRegistry_records_shelf :
    (∃ registry, (shelfDisk.loadRegistry ["t", "one.html"]
        (some (.element "template" (.ofList [("id", "c")]) [] false))).outcome = .ok registry ∧
      registry.keys = ["a", "b", "one", "c"] ∧
      registry.get? "a" = some (.element "template" (.ofList [("id", "a")]) [.text "2" false] false) ∧
      registry.get? "b" = some (.element "template" (.ofList [("id", "b")]) [.text "X" false] false)) ∧
    ([RegistryChange.register "a" (.comment "b"), .update .empty].foldl Registry.change .empty).Records
      [("a", .comment "b")] := by
  have hfoundDirectory : shelfDisk.find (.ofString "t") = .ok (.directory shelf) := rfl
  have hfoundFile : shelfDisk.find (.ofString "one.html") =
      .ok (.file ("<template id=b>X</template>".toList.map (UInt8.ofNat ·.toNat))) := rfl
  have hselected : ((shelf.map Prod.fst).filter fun name => templateEnding.isSuffixOf name.toList) =
      ["b.html", "c.html", "a.html"] := rfl
  have hnames : templateNames shelf = ["a.html", "b.html", "c.html"] := by
    rw [templateNames, hselected]
    simp [List.mergeSort]
  have hread : shelfDisk.readText ((FilePath.ofString "t").child "a.html") = .ok ['1'] ∧
      shelfDisk.readText ((FilePath.ofString "t").child "b.html") =
        .ok "<p><template id=a>2</template></p>".toList ∧
      shelfDisk.readText ((FilePath.ofString "t").child "c.html") =
        .error (.text ⟨0, 0xff, 1, .invalidStart⟩) ∧
      shelfDisk.readText (.ofString "one.html") = .ok "<template id=b>X</template>".toList :=
    ⟨rfl, rfl, rfl, rfl⟩
  have hparsed : parseTemplate ['1'] = .ok (.fragment [.text "1" false]) ∧
      parseTemplate "<p><template id=a>2</template></p>".toList = .ok (.fragment [.element "p" .empty
        [.element "template" (.ofList [("id", "a")]) [.text "2" false] false] false]) ∧
      parseTemplate "<template id=b>X</template>".toList =
        .ok (.fragment [.element "template" (.ofList [("id", "b")]) [.text "X" false] false]) :=
    ⟨rfl, rfl, rfl⟩
  obtain ⟨hreadA, hreadB, hreadC, hreadOne⟩ := hread
  obtain ⟨hparsedA, hparsedB, hparsedOne⟩ := hparsed
  have hsequence : shelfDisk.definitionSequence ["t", "one.html"]
      (some (.element "template" (.ofList [("id", "c")]) [] false)) = [
        ("a", .fragment [.text "1" false]),
        ("b", .fragment [.element "p" .empty
          [.element "template" (.ofList [("id", "a")]) [.text "2" false] false] false]),
        ("a", .element "template" (.ofList [("id", "a")]) [.text "2" false] false),
        ("one", .fragment [.element "template" (.ofList [("id", "b")]) [.text "X" false] false]),
        ("b", .element "template" (.ofList [("id", "b")]) [.text "X" false] false),
        ("c", .element "template" (.ofList [("id", "c")]) [] false)] := by
    simp only [definitionSequence, List.flatMap_cons, List.flatMap_nil, sourceDefinitions,
      hfoundDirectory, hfoundFile, hnames, fileDefinitions_of_ok hreadA hparsedA,
      fileDefinitions_of_ok hreadB hparsedB, fileDefinitions_of_error hreadC,
      fileDefinitions_of_ok hreadOne hparsedOne]
    rfl
  have hsources : ∀ source ∈ ["t", "one.html"], shelfDisk.IsSource (.ofString source) := by
    simp only [List.mem_cons, List.not_mem_nil, or_false]
    rintro source (rfl | rfl)
    · refine .directory hfoundDirectory fun name hname text htext => ?_
      rw [hnames] at hname
      simp only [List.mem_cons, List.not_mem_nil, or_false] at hname
      rcases hname with rfl | rfl | rfl
      · exact ⟨_, Except.ok.inj (hreadA.symm.trans htext) ▸ hparsedA⟩
      · exact ⟨_, Except.ok.inj (hreadB.symm.trans htext) ▸ hparsedB⟩
      · cases hreadC.symm.trans htext
    · exact .file hfoundFile (by rw [loadTemplate, hreadOne]; exact hparsedOne)
  obtain ⟨⟨registry, hload, -, hrecords⟩, hchanges⟩ := loadRegistry_records shelfDisk ["t", "one.html"]
    (some (.element "template" (.ofList [("id", "c")]) [] false)) hsources
  rw [hsequence] at hrecords
  refine ⟨⟨registry, hload, hrecords.keys.trans (by decide), hrecords.value "a", hrecords.value "b"⟩, ?_⟩
  exact hchanges .empty [] _ [[("a", .comment "b")], []] OrderedMap.records_empty
    (.cons (.register "a" (.comment "b")) (.cons (.update OrderedMap.records_empty) .nil))

end Disk

end Stencil
