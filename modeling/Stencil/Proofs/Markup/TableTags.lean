import Stencil.Markup.Node.TableTags
import Stencil.Proofs.Markup.Forest

/-!
# Other tags for the same tree

The real tags of tables come in for the stand-ins by a map over the tags of a tree, which leaves all
else as it is. Such maps can be strung together (`mapTags_mapTags`), so what is told of the map over
single tags goes for the trees: the real tags are kept by a second renaming, and what is left of a tree
without its tags (`eraseTags`) is kept by the first one.

* `renameTableTags_eq_mapTags`: the map for tables;
* `mapTagsIn_append`, `normalize_mapTagsIn`: nodes in a row, and their normal form.
-/

namespace Stencil.Node

mutual

/-- The tree with other tags. -/
def mapTags (f : String → String) : Node → Node
  | text data raw => text data raw
  | comment data => comment data
  | element tag attrs children void => element (f tag) attrs (mapTagsIn f children) void
  | fragment children => fragment (mapTagsIn f children)
termination_by structural n => n

/-- The trees with other tags. -/
def mapTagsIn (f : String → String) : List Node → List Node
  | [] => []
  | n :: ns => mapTags f n :: mapTagsIn f ns
termination_by structural ns => ns

end

/-- The tree without its tags: its texts and comments, its attributes, and how they stand in one
    another. -/
def eraseTags (n : Node) : Node := n.mapTags fun _ => ""

variable {f g : String → String}

theorem mapTagsIn_append (f : String → String) (as bs : List Node) :
    mapTagsIn f (as ++ bs) = mapTagsIn f as ++ mapTagsIn f bs := by
  induction as with
  | nil => rfl
  | cons a as ih => rw [List.cons_append, mapTagsIn, mapTagsIn, ih, List.cons_append]

theorem mapTagsIn_mapTagsIn (f g : String → String) (ns : List Node) :
    mapTagsIn f (mapTagsIn g ns) = mapTagsIn (f ∘ g) ns := by
  induction ns using forest_induction with
  | nil => rfl
  | text data raw ns ih => simp only [mapTagsIn, mapTags, ih]
  | comment data ns ih => simp only [mapTagsIn, mapTags, ih]
  | element tag attrs children void ns ihc ih =>
    simp only [mapTagsIn, mapTags, ihc, ih, Function.comp_apply]
  | fragment children ns ihc ih => simp only [mapTagsIn, mapTags, ihc, ih]

/-- Two maps in a row are one. -/
theorem mapTags_mapTags (f g : String → String) (n : Node) :
    mapTags f (mapTags g n) = mapTags (f ∘ g) n := by
  have h := mapTagsIn_mapTagsIn f g [n]
  simpa only [mapTagsIn, List.cons.injEq, and_true] using h

theorem renameTableTagsIn_eq_mapTagsIn (ns : List Node) :
    renameTableTagsIn ns = mapTagsIn tableTag ns := by
  induction ns using forest_induction with
  | nil => rfl
  | text data raw ns ih => simp only [renameTableTagsIn, renameTableTags, mapTagsIn, mapTags, ih]
  | comment data ns ih => simp only [renameTableTagsIn, renameTableTags, mapTagsIn, mapTags, ih]
  | element tag attrs children void ns ihc ih =>
    simp only [renameTableTagsIn, renameTableTags, mapTagsIn, mapTags, ihc, ih]
  | fragment children ns ihc ih =>
    simp only [renameTableTagsIn, renameTableTags, mapTagsIn, mapTags, ihc, ih]

/-- Renaming the parts of tables is a map over tags. -/
theorem renameTableTags_eq_mapTags (n : Node) : n.renameTableTags = n.mapTags tableTag := by
  have h := renameTableTagsIn_eq_mapTagsIn [n]
  simpa only [renameTableTagsIn, mapTagsIn, List.cons.injEq, and_true] using h

/-! ### The tags of tables -/

/-- A tag other than the stand-ins and the real ones comes from itself only. -/
theorem tableTag_eq_iff {special : String} (hstand : special ∉ tableTags.map Prod.fst)
    (hreal : special ∉ tableTags.map Prod.snd) (tag : String) :
    tableTag tag = special ↔ tag = special := by
  by_cases htag : tag ∈ tableTags.map Prod.fst
  · obtain ⟨⟨stand, real⟩, hpair, rfl⟩ := List.mem_map.1 htag
    rw [tableTag_of_mem hpair]
    constructor
    · rintro rfl
      exact absurd (List.mem_map_of_mem hpair) hreal
    · rintro rfl
      exact absurd htag hstand
  · rw [tableTag_of_not_mem htag]

/-- The real tags are no stand-ins. -/
theorem tableTag_tableTag (tag : String) : tableTag (tableTag tag) = tableTag tag := by
  by_cases htag : tag ∈ tableTags.map Prod.fst
  · obtain ⟨⟨stand, real⟩, hpair, rfl⟩ := List.mem_map.1 htag
    have hreals : ∀ pair ∈ tableTags, pair.2 ∉ tableTags.map Prod.fst := by decide
    rw [tableTag_of_mem hpair, tableTag_of_not_mem (hreals _ hpair)]
  · rw [tableTag_of_not_mem htag, tableTag_of_not_mem htag]

/-- Renaming a second time changes nothing. -/
theorem renameTableTags_idem (n : Node) :
    n.renameTableTags.renameTableTags = n.renameTableTags := by
  have h : tableTag ∘ tableTag = tableTag := funext tableTag_tableTag
  simp only [renameTableTags_eq_mapTags, mapTags_mapTags, h]

/-- Renaming changes nothing but tags. -/
theorem eraseTags_renameTableTags (n : Node) : n.renameTableTags.eraseTags = n.eraseTags := by
  rw [eraseTags, renameTableTags_eq_mapTags, mapTags_mapTags, eraseTags]
  rfl

/-! ### What a map over tags keeps -/

theorem isBlank_mapTags (f : String → String) (n : Node) : (n.mapTags f).isBlank = n.isBlank := by
  cases n <;> rw [mapTags] <;> rfl

theorem mapTagsIn_eq_nil_iff {ns : List Node} : mapTagsIn f ns = [] ↔ ns = [] := by
  cases ns with
  | nil => exact Iff.rfl
  | cons n ns => simp [mapTagsIn]

theorem consText_mapTagsIn (f : String → String) (data : String) (rest : List Node) :
    consText data (mapTagsIn f rest) = mapTagsIn f (consText data rest) := by
  cases rest with
  | nil =>
    simp only [mapTagsIn, consText]
    split_ifs <;> rfl
  | cons n rest =>
    cases n with
    | text next raw =>
      cases raw with
      | false => rfl
      | true =>
        simp only [mapTagsIn, mapTags, consText]
        split_ifs <;> rfl
    | _ =>
      simp only [mapTagsIn, mapTags, consText]
      split_ifs <;> rfl

theorem normalizeOnto_mapTagsIn (f : String → String) (ns rest : List Node) :
    normalizeOnto (mapTagsIn f ns) (mapTagsIn f rest) = mapTagsIn f (normalizeOnto ns rest) := by
  induction ns using forest_induction generalizing rest with
  | nil => rfl
  | text data raw ns ih =>
    simp only [mapTagsIn, mapTags, normalizeOnto, normalizeNodeOnto, ih]
    split_ifs
    · rfl
    · exact consText_mapTagsIn f data _
  | comment data ns ih =>
    simp only [mapTagsIn, mapTags, normalizeOnto, normalizeNodeOnto, ih]
  | element tag attrs children void ns ihc ih =>
    simp only [mapTagsIn, mapTags, normalizeOnto, normalizeNodeOnto, ih]
    rw [← ihc []]
    rfl
  | fragment children ns ihc ih =>
    simp only [mapTagsIn, mapTags, normalizeOnto, normalizeNodeOnto, ih, ihc]

/-- Normal forms have the tags of the nodes. -/
theorem normalize_mapTagsIn (f : String → String) (ns : List Node) :
    normalize (mapTagsIn f ns) = mapTagsIn f (normalize ns) :=
  normalizeOnto_mapTagsIn f ns []

end Stencil.Node
