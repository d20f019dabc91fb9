import Stencil.Platform
import Stencil.Value.Equality
import Stencil.Yaml.Node.Build
import Stencil.Yaml.Scalar.Meaning

/-!
# Reading YAML

A text in YAML is read in three steps: it is cut into tokens, the tokens make up a node, and the
node stands for a value. A sequence stands for the list of its elements, or of the pairs in them,
and a mapping for a mapping in which the first of equal keys keeps its place and the last value
counts, or for the set of its keys. The entries of merged mappings come before those of the mapping
itself.

Nodes are given their values level by level, what is in a collection after all that stands beside
it: of two faults the one in the outer level is reported, and of two in the same level the first.
-/

namespace Stencil.Yaml

/-- A value, or a fault and how many levels below it is. -/
abbrev Levelled (α : Type) := Except (Nat × Fault) α

namespace Levelled

/-- The results of all, or the outermost fault and of equally deep ones the first. -/
def gather {α : Type} : List (Levelled α) → Levelled (List α)
  | [] => .ok []
  | x :: xs =>
    match x, gather xs with
    | .ok a, .ok as => .ok (a :: as)
    | .error e, .ok _ => .error e
    | .ok _, .error e => .error e
    | .error (d, e), .error (d', e') => if d' < d then .error (d', e') else .error (d, e)

/-- A value made of a result that is one level further down. -/
def below {α : Type} (f : α → Value) (x : Levelled α) : Levelled Value :=
  (x.mapError fun (d, e) => (d + 1, e)).map f

/-- The results of two, or the outermost fault. -/
def both {α β : Type} (x : Levelled α) (y : Levelled β) : Levelled (α × β) :=
  match x, y with
  | .ok a, .ok b => .ok (a, b)
  | .error e, .ok _ => .error e
  | .ok _, .error e => .error e
  | .error (d, e), .error (d', e') => if d' < d then .error (d', e') else .error (d, e)

end Levelled

namespace Node

/-- The value of a node that is read from its text. -/
def textValue (n : Node) : Except Fault Value :=
  if n.tag.isValueless then .error (.node .unknownTag)
  else
    match n.content? with
    | none => .error (.node .notScalar)
    | some content =>
      match n, n.tag with
      -- a time is not looked for in a main value
      | mapping _ _, .timestamp => .error (.scalar .timeInMapping)
      | _, tag => Meaning.read tag content

/-- The value of a key. Collections can change and are no keys, and the key for the main value is
    a text there. -/
def keyValue (n : Node) : Except Fault Value :=
  if n.tag.isCollection then .error (.node .mutableKey)
  else if n.tag = .value then
    match n.content? with
    | some content => .ok (.str content.text)
    | none => .error (.node .notScalar)
  else textValue n

/-- An entry of a mapping, once its key and its value are known. -/
abbrev Entry := Levelled (Value × Value)

/-- What the entries of a mapping stand for: those that are merged, and its own. -/
structure Entries where
  merged : List Entry
  own : List Entry
  /-- What is wrong with what is to be merged. -/
  fault : Option Fault

/-- The pairs of keys and values, the merged ones first. What is wrong with what is to be merged is
    noticed before them. -/
def Entries.pairs (es : Entries) : Levelled (List (Value × Value)) :=
  match es.fault with
  | some fault => .error (0, fault)
  | none => Levelled.gather (es.merged ++ es.own)

/-- The value of a node whose tag is none of its own kind of collections. A tag of another kind is
    looked at together with what would be in the collection, a tag of scalars at once. -/
def otherValue (n : Node) : Levelled Value :=
  if n.tag.isCollection then .error (1, .node .wrongCollection)
  else (textValue n).mapError (0, ·)

mutual

/-- The value of a node. What is in a collection is one level further down. -/
def value : Node → Levelled Value
  | scalar tag content => otherValue (scalar tag content)
  | sequence tag items =>
    match tag with
    | .seq => Levelled.below Value.list (Levelled.gather (values items))
    | .omap | .pairs => Levelled.below Value.list (Levelled.gather (pairValues items))
    | tag => otherValue (sequence tag items)
  | mapping tag entries =>
    match tag with
    | .map => Levelled.below (fun ps => .map (Context.ofPairs ps)) (entryValues entries).pairs
    | .set =>
      Levelled.below (fun ps => .set ((Context.ofPairs ps).map Prod.fst)) (entryValues entries).pairs
    | tag => otherValue (mapping tag entries)
  | outer => .error (0, .node .cyclic)
termination_by structural n => n

/-- The values of the elements of a sequence. -/
def values : List Node → List (Levelled Value)
  | [] => []
  | n :: ns => value n :: values ns
termination_by structural ns => ns

/-- The pairs in the elements of a sequence, each of which must be a mapping with one entry. -/
def pairValues : List Node → List (Levelled Value)
  | [] => []
  | n :: ns =>
    match n with
    | mapping _ entries => pairValue entries :: pairValues ns
    | sequence _ _ => .error (0, .node .wrongCollection) :: pairValues ns
    | scalar _ _ => .error (0, .node .wrongCollection) :: pairValues ns
    | outer => .error (0, .node .cyclic) :: pairValues ns
termination_by structural ns => ns

/-- The pair in the only entry. -/
def pairValue : List (Node × Node) → Levelled Value
  | (key, n) :: rest =>
    match rest with
    | [] => (Levelled.both (value key) (value n)).map fun (k, v) => .tuple [k, v]
    | _ => .error (0, .node .wrongCollection)
  | [] => .error (0, .node .wrongCollection)
termination_by structural entries => entries

/-- What the entries of a mapping stand for. -/
def entryValues : List (Node × Node) → Entries
  | [] => ⟨[], [], none⟩
  | (key, n) :: rest =>
    let es := entryValues rest
    if key.tag = .merge then
      let (found, fault) := mergedEntries n
      ⟨found ++ es.merged, es.own, fault <|> es.fault⟩
    else
      let entry := Levelled.both ((keyValue key).mapError (0, ·)) (value n)
      ⟨es.merged, entry :: es.own, es.fault⟩
termination_by structural entries => entries

/-- The entries of what is to be merged: of a mapping, or of mappings, the first of which counts
    most and thus comes last. -/
def mergedEntries : Node → List Entry × Option Fault
  | scalar _ _ => ([], some (.node .unmergeable))
  | sequence _ items => mergedItems items
  | mapping _ entries =>
    let es := entryValues entries
    (es.merged ++ es.own, es.fault)
  -- merging a mapping into itself adds nothing
  | outer => ([], none)
termination_by structural n => n

/-- The entries of mappings that are to be merged, those of the last one first. -/
def mergedItems : List Node → List Entry × Option Fault
  | [] => ([], none)
  | n :: ns =>
    match n with
    | mapping _ entries =>
      let es := entryValues entries
      let (rest, fault) := mergedItems ns
      -- the entries come last to first, the faults first to last
      (rest ++ es.merged ++ es.own, es.fault <|> fault)
    | outer => mergedItems ns
    | _ => ([], some (.node .unmergeable))
termination_by structural ns => ns

end

end Node

/-- The value that a text stands for; null if it holds no document. -/
def read (halves : Halves) (s : List Char) : Except Fault Value := do
  if let some c := s.find? fun c => !isAllowed c then throw (.unprintable c)
  match ← Node.ofTokens? (Tokens.read halves s) with
  | none => return .null
  | some n => (n.value).mapError Prod.snd

end Stencil.Yaml

namespace Stencil

/-- The platform with this reader and a stack of any depth. -/
def Platform.standard : Platform where
  halves := .standard
  readYaml := Yaml.read .standard
  exhausts _ _ := false

end Stencil
