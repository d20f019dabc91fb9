import Stencil.Markup.Node.Basic

/-!
# Stand-in tags of tables

The parts of a table are written with tags of their own, `<t>`, `<th>`, `<tb>`, `<trow>` and
`<tcell>`, so that a reader of the template never moves a repetition out of a table. Renaming gives
the expanded tree the real tags. The stand-in `<th>` is the head of a table, not a cell.

* `tableTag_of_mem`, `tableTag_of_not_mem`: a stand-in becomes its real tag, all others are kept.
-/

namespace Stencil.Node

/-- The stand-in tags and the real ones. -/
def tableTags : List (String × String) :=
  [("t", "table"), ("th", "thead"), ("tb", "tbody"), ("trow", "tr"), ("tcell", "td")]

/-- The real tag for a tag. -/
def tableTag (tag : String) : String :=
  if tag = "t" then "table"
  else if tag = "th" then "thead"
  else if tag = "tb" then "tbody"
  else if tag = "trow" then "tr"
  else if tag = "tcell" then "td"
  else tag

mutual

/-- The tree with the real tags of tables. -/
def renameTableTags : Node → Node
  | text data raw => text data raw
  | comment data => comment data
  | element tag attrs children void =>
    element (tableTag tag) attrs (renameTableTagsIn children) void
  | fragment children => fragment (renameTableTagsIn children)
termination_by structural n => n

/-- The trees with the real tags of tables. -/
def renameTableTagsIn : List Node → List Node
  | [] => []
  | n :: ns => renameTableTags n :: renameTableTagsIn ns
termination_by structural ns => ns

end

theorem tableTag_of_not_mem {tag : String} (h : tag ∉ tableTags.map Prod.fst) :
    tableTag tag = tag := by
  simp only [tableTags, List.map_cons, List.map_nil, List.mem_cons, List.not_mem_nil, or_false,
    not_or] at h
  simp [tableTag, h]

theorem tableTag_of_mem {stand real : String} (h : (stand, real) ∈ tableTags) :
    tableTag stand = real := by
  simp only [tableTags, List.mem_cons, List.not_mem_nil, or_false, Prod.mk.injEq] at h
  rcases h with ⟨rfl, rfl⟩ | ⟨rfl, rfl⟩ | ⟨rfl, rfl⟩ | ⟨rfl, rfl⟩ | ⟨rfl, rfl⟩ <;> decide

end Stencil.Node
