/-!
# Tags of YAML

Every node has a tag, which says what it stands for. The tags of the standard share their beginning;
of all other tags nothing is known. Five of the standard ones are tags of collections, and two say
what a key does in its mapping and stand for nothing by themselves.
-/

namespace Stencil.Yaml

/-- A tag. -/
inductive Tag where
  | null
  | bool
  | int
  | float
  | timestamp
  | binary
  | str
  | seq
  | map
  | set
  /-- A mapping whose entries are listed one by one. -/
  | omap
  /-- A list of pairs. -/
  | pairs
  /-- The tag of a key whose value is merged. -/
  | merge
  /-- The tag of the key of the main value. -/
  | value
  | unknown
  deriving DecidableEq, Repr, Inhabited

namespace Tag

/-- What the tags of the standard start with. -/
def standardStart : String := "tag:yaml.org,2002:"

/-- The tags of the standard. -/
def all : List Tag :=
  [null, bool, int, float, timestamp, binary, str, seq, map, set, omap, pairs, merge, value]

/-- What the full text of a tag ends with. -/
def name : Tag → String
  | null => "null"
  | bool => "bool"
  | int => "int"
  | float => "float"
  | timestamp => "timestamp"
  | binary => "binary"
  | str => "str"
  | seq => "seq"
  | map => "map"
  | set => "set"
  | omap => "omap"
  | pairs => "pairs"
  | merge => "merge"
  | value => "value"
  | unknown => ""

/-- The tag that a text writes in full. -/
def ofText (text : String) : Tag :=
  (all.find? fun tag => standardStart ++ tag.name == text).getD unknown

/-- Whether a tag says that its node is a collection. -/
def isCollection (tag : Tag) : Bool :=
  tag ∈ [seq, map, set, omap, pairs]

/-- Whether a tag stands for no value. -/
def isValueless (tag : Tag) : Bool :=
  tag ∈ [merge, value, unknown]

end Tag

end Stencil.Yaml
