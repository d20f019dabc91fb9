import Stencil.Yaml.Node.Basic

/-!
# Nodes from tokens

The tokens of a document make up one node. Names for nodes are kept while the document is read, and
an alias stands for the node that its name was given to. The tokens are looked at one after the
other and no further than needed, so that what is wrong is noticed in the order of the text.
-/

namespace Stencil.Yaml

/-- What is left of the tokens, and the names in use. -/
structure Building where
  tokens : List Token
  /-- What is wrong with the text after the tokens. -/
  fault : Fault
  /-- The nodes that have names; a name without a node is that of one that is being built. -/
  anchors : List (String × Option Node)
  /-- What the handles of tags stand for. -/
  handles : List (String × String)
  /-- How many tokens have been taken. -/
  taken : Nat

/-- A step of building. -/
abbrev Build := StateT Building (Except Fault)

namespace Build

/-- The next token. -/
def peek : Build Token := do
  match (← get).tokens with
  | [] => throw (← get).fault
  | t :: _ => return t

/-- Without the next token. -/
def skip : Build Unit :=
  modify fun b => { b with tokens := b.tokens.drop 1, taken := b.taken + 1 }

/-- A fault of the tokens. -/
def fail {α : Type} (fault : GrammarFault) : Build α :=
  throw (.grammar fault)

/-- Takes the next token if it is the one asked for. -/
def accept (t : Token) : Build Bool := do
  if (← peek) = t then
    skip
    return true
  else return false

/-! ### Names and tags -/

/-- The node that an alias stands for. -/
def resolveAlias (name : String) : Build Node := do
  match (← get).anchors.lookup name with
  | none => throw (.anchor (.unknown name))
  | some none => return .outer
  | some (some n) => return n

/-- Takes a name into use for a node that is being built. -/
def openAnchor (anchor : Option String) : Build Unit := do
  match anchor with
  | none => return ()
  | some name =>
    if ((← get).anchors.lookup name).isSome then throw (.anchor (.repeated name))
    modify fun b => { b with anchors := (name, none) :: b.anchors }

/-- Gives its name to a node. -/
def closeAnchor (anchor : Option String) (n : Node) : Build Node := do
  match anchor with
  | none => return n
  | some name =>
    modify fun b => { b with anchors := (name, some n) :: b.anchors }
    return n

/-- The anchor at the next token. -/
def readAnchor? : Build (Option String) := do
  match ← peek with
  | .anchor name =>
    skip
    return some name
  | _ => return none

/-- The tag at the next token. -/
def readTag? : Build (Option WrittenTag) := do
  match ← peek with
  | .tag t =>
    skip
    return some t
  | _ => return none

/-- The anchor and the tag before a node, in either order. -/
def readProperties : Build (Option String × Option WrittenTag) := do
  match ← readAnchor? with
  | some name => return (some name, ← readTag?)
  | none =>
    match ← readTag? with
    | some t => return (← readAnchor?, some t)
    | none => return (none, none)

/-- The full text of a tag. -/
def expandTag (t : WrittenTag) : Build String := do
  match t.handle with
  | none => return t.suffix
  | some handle =>
    match (← get).handles.lookup handle with
    | none => fail .unknownHandle
    | some tagStart => return tagStart ++ t.suffix

/-- The tag that says nothing. -/
def emptyTag : String := "!"

/-- The tag of a node from the one that is written, unless that says nothing. -/
def tagOr (tag : Tag) (written : Option String) : Tag :=
  match written with
  | none => tag
  | some text => if text = emptyTag then tag else .ofText text

/-- The scalar with a text. The tag that says nothing makes a quoted scalar count as a plain one. -/
def scalarOf (written : Option String) (plain : Bool) (text : String) : Build Node := do
  let tag := if plain || written.isSome then Tag.ofPlain text.toList else .str
  return .scalar (tagOr tag written) ⟨(← get).taken, text⟩

/-! ### Nodes -/

/-- What a node stands in: block layout matters, and elements may start without being indented. -/
inductive Place where
  | flow
  | block
  /-- A key or a value of a block of entries. -/
  | blockEntry
  deriving DecidableEq

/-- The empty node behind an anchor or a tag. -/
def emptyNode (anchor tag : Option String) : Build Node := do
  if anchor.isNone && tag.isNone then fail .node
  openAnchor anchor
  closeAnchor anchor (← scalarOf tag true "")

/-- The node at the next tokens, or the empty one before some of them. -/
def orEmpty (ends : List Token) (read : Build Node) : Build Node := do
  if (← peek) ∈ ends then return .empty else read

/-- The value after a key: the node behind a colon, or the empty one where there is no colon. -/
def valueOrEmpty (ends : List Token) (read : Build Node) : Build Node := do
  if ← accept .value then orEmpty ends read else return .empty

/-- Whether an element may follow: the first one, or one that a comma stands before. -/
def acceptNext (isFirst : Bool) : Build Bool :=
  if isFirst then return true else accept .comma

mutual

/-- The node at the next tokens. -/
def node : (fuel : Nat) → Place → Build Node
  | 0, _ => fail .node
  | fuel + 1, place => do
    if let .alias name ← peek then
      skip
      resolveAlias name
    else
      let (anchor, written) ← readProperties
      let tag ← written.mapM expandTag
      match ← peek with
      | .scalar plain text =>
        skip
        openAnchor anchor
        closeAnchor anchor (← scalarOf tag plain text)
      -- no token starts the block of elements that are not indented
      | .dash =>
        if place = .blockEntry then
          openAnchor anchor
          closeAnchor anchor (.sequence (tagOr .seq tag) (← looseItems fuel))
        else emptyNode anchor tag
      | .openBracket =>
        openAnchor anchor
        skip
        closeAnchor anchor (.sequence (tagOr .seq tag) (← flowItems fuel true))
      | .openBrace =>
        openAnchor anchor
        skip
        closeAnchor anchor (.mapping (tagOr .map tag) (← flowEntries fuel true))
      | .sequenceStart =>
        if place = .flow then emptyNode anchor tag
        else
          openAnchor anchor
          skip
          closeAnchor anchor (.sequence (tagOr .seq tag) (← blockItems fuel))
      | .mappingStart =>
        if place = .flow then emptyNode anchor tag
        else
          openAnchor anchor
          skip
          closeAnchor anchor (.mapping (tagOr .map tag) (← blockEntries fuel))
      | _ => emptyNode anchor tag

/-- The elements of a block up to its end. -/
def blockItems : (fuel : Nat) → Build (List Node)
  | 0 => fail .blockEnd
  | fuel + 1 => do
    if ← accept .dash then
      let item ← orEmpty [.dash, .blockEnd] (node fuel .block)
      return item :: (← blockItems fuel)
    else if ← accept .blockEnd then return []
    else fail .blockEnd

/-- The elements of a block that is not indented. -/
def looseItems : (fuel : Nat) → Build (List Node)
  | 0 => fail .blockEnd
  | fuel + 1 => do
    if ← accept .dash then
      let item ← orEmpty [.dash, .key, .value, .blockEnd] (node fuel .block)
      return item :: (← looseItems fuel)
    else return []

/-- The entries of a block up to its end. -/
def blockEntries : (fuel : Nat) → Build (List (Node × Node))
  | 0 => fail .blockEnd
  | fuel + 1 => do
    let ends := [.key, .value, .blockEnd]
    if ← accept .key then
      let key ← orEmpty ends (node fuel .blockEntry)
      let value ← valueOrEmpty ends (node fuel .blockEntry)
      return (key, value) :: (← blockEntries fuel)
    else if ← accept .blockEnd then return []
    else fail .blockEnd

/-- The elements between brackets up to the closing one. A comma stands before every element but
    the first, and a pair is a mapping of its own. -/
def flowItems : (fuel : Nat) → (isFirst : Bool) → Build (List Node)
  | 0, _ => fail .sequenceEnd
  | fuel + 1, isFirst => do
    if ← accept .closeBracket then return []
    else if ← acceptNext isFirst then
      if ← accept .key then
        let key ← orEmpty [.value, .comma, .closeBracket] (node fuel .flow)
        let value ← valueOrEmpty [.comma, .closeBracket] (node fuel .flow)
        return .mapping .map [(key, value)] :: (← flowItems fuel false)
      else if ← accept .closeBracket then return []
      else
        let item ← node fuel .flow
        return item :: (← flowItems fuel false)
    else fail .sequenceEnd

/-- The entries between braces up to the closing one. A comma stands before every entry but the
    first. -/
def flowEntries : (fuel : Nat) → (isFirst : Bool) → Build (List (Node × Node))
  | 0, _ => fail .mappingEnd
  | fuel + 1, isFirst => do
    if ← accept .closeBrace then return []
    else if ← acceptNext isFirst then
      if ← accept .key then
        let key ← orEmpty [.value, .comma, .closeBrace] (node fuel .flow)
        let value ← valueOrEmpty [.comma, .closeBrace] (node fuel .flow)
        return (key, value) :: (← flowEntries fuel false)
      else if ← accept .closeBrace then return []
      else
        let key ← node fuel .flow
        return (key, .empty) :: (← flowEntries fuel false)
    else fail .mappingEnd

end

/-! ### Documents -/

/-- The handles of tags that every document knows. -/
def knownHandles : List (String × String) := [("!", "!"), ("!!", Tag.standardStart)]

/-- Takes the directives before a document. -/
def readDirectives : (fuel : Nat) → (versionKnown : Bool) → Build Unit
  | 0, _ => return ()
  | fuel + 1, versionKnown => do
    match ← peek with
    | .directive (.version major) =>
      skip
      if versionKnown then fail .repeatedDirective
      else if major ≠ 1 then fail .incompatibleVersion
      else readDirectives fuel true
    | .directive (.handle name tagStart) =>
      skip
      if ((← get).handles.lookup name).isSome then fail .repeatedDirective
      else
        modify fun b => { b with handles := (name, tagStart) :: b.handles }
        readDirectives fuel versionKnown
    | .directive .other =>
      skip
      readDirectives fuel versionKnown
    | _ => return ()

/-- Takes the tokens up to the start of a document that is marked. -/
def readDocumentStart (fuel : Nat) : Build Unit := do
  modify fun b => { b with handles := [] }
  readDirectives fuel false
  if ← accept .documentStart then
    modify fun b => { b with handles := b.handles ++ knownHandles }
  else fail .documentStart

/-- The node of the first document; absent if the text holds none. -/
def readDocument (fuel : Nat) : Build (Option Node) := do
  match ← peek with
  | .streamEnd => return none
  | .documentStart | .directive _ =>
    readDocumentStart fuel
    match ← peek with
    -- a document that is marked may be empty
    | .documentStart | .documentEnd | .directive _ | .streamEnd => return some .empty
    | _ => return some (← node fuel .block)
  | _ =>
    modify fun b => { b with handles := knownHandles }
    return some (← node fuel .block)

/-- Takes the marks that a document has ended. -/
def skipDocumentEnds : (fuel : Nat) → Build Unit
  | 0 => return ()
  | fuel + 1 => do
    if ← accept .documentEnd then skipDocumentEnds fuel

/-- The node of the only document. -/
def readAll (fuel : Nat) : Build (Option Node) := do
  match ← readDocument fuel with
  | none => return none
  | some n =>
    skipDocumentEnds fuel
    match ← peek with
    | .streamEnd => return some n
    | _ =>
      -- what is wrong before the second document comes first
      readDocumentStart fuel
      throw (.anchor .secondDocument)

end Build

/-- The node of the only document of a text; absent if it holds none. -/
def Node.ofTokens? (t : Tokens) : Except Fault (Option Node) :=
  let building : Building := ⟨t.tokens, t.fault.getD (.grammar .documentStart), [], [], 0⟩
  (Build.readAll (2 * t.tokens.length + 2)).run' building

end Stencil.Yaml
