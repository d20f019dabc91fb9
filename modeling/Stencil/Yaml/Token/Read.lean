import Stencil.Yaml.Scalar.Block
import Stencil.Yaml.Scalar.Plain
import Stencil.Yaml.Scalar.Quoted
import Stencil.Yaml.Token.Basic

/-!
# Reading tokens

Whether a scalar or a bracket starts an entry of a mapping shows only at the colon after it, which
must stand in the same line and within 1024 characters. Tokens are thus held back as long as one of
them may still turn out to be a key; then the token that says so is put in front of it, and with it
the start of a block, if the key is indented deeper than the block that it stands in.

What is read so far is a `Progress`. A token is handed on as soon as it cannot be a key any more, and
a fault is noticed only where the text has been read up to it, so that the tokens before it are
handed on as far as they are not held back.
-/

namespace Stencil.Yaml

/-- A token that may turn out to be a key. -/
structure PossibleKey where
  /-- How many tokens come before it. -/
  number : Nat
  /-- Whether it must be a key, as nothing else can start the line. -/
  required : Bool
  index : Nat
  line : Nat
  column : Nat

/-- How far the tokens of a document are read. -/
structure Progress where
  cursor : Cursor
  /-- The tokens that are held back. -/
  held : List Token
  /-- How many tokens are handed on. -/
  count : Nat
  /-- The column of the innermost block; -1 outside of all blocks. -/
  indent : Int
  /-- The columns of the blocks around it, the innermost first. -/
  outer : List Int
  /-- How many brackets are open. -/
  depth : Int
  /-- Whether a key may start here. -/
  keyAllowed : Bool
  /-- The possible keys, at most one at each depth of brackets. -/
  keys : List (Int × PossibleKey)
  ended : Bool

namespace Progress

/-- Nothing is read. -/
def start (s : List Char) : Progress where
  cursor := .start s
  held := []
  count := 0
  indent := -1
  outer := []
  depth := 0
  keyAllowed := true
  keys := []
  ended := false

/-- How far a possible key may be from its colon. -/
def keyReach : Nat := 1024

/-- Whether the place is too far from a possible key for it to be one. -/
def isStale (p : Progress) (k : PossibleKey) : Bool :=
  k.line != p.cursor.line || keyReach < p.cursor.index - k.index

/-- Without the possible keys that can be none any more. -/
def dropStaleKeys (p : Progress) : Except Fault Progress :=
  if p.keys.any fun (_, k) => p.isStale k && k.required then .error (.token .keyWithoutColon)
  else .ok { p with keys := p.keys.filter fun (_, k) => !p.isStale k }

/-- The possible key at the current depth. -/
def key? (p : Progress) : Option PossibleKey :=
  p.keys.lookup p.depth

/-- Without the possible key at the current depth, which turned out to be none. -/
def dropKey (p : Progress) : Except Fault Progress :=
  if (p.key?.map (·.required)).getD false then .error (.token .keyWithoutColon)
  else .ok { p with keys := p.keys.filter fun (depth, _) => depth != p.depth }

/-- With the next token as a possible key, if a key may start here. -/
def saveKey (p : Progress) : Except Fault Progress :=
  if p.keyAllowed then do
    let required := p.depth = 0 ∧ p.indent = p.cursor.column
    let k : PossibleKey :=
      ⟨p.count + p.held.length, required, p.cursor.index, p.cursor.line, p.cursor.column⟩
    let p ← p.dropKey
    return { p with keys := (p.depth, k) :: p.keys }
  else return p

/-- With a token read. -/
def push (p : Progress) (t : Token) : Progress :=
  { p with held := p.held ++ [t] }

/-- With a token put before the one of a number. -/
def insertAt (p : Progress) (number : Nat) (t : Token) : Progress :=
  { p with held := p.held.insertIdx (number - p.count) t }

/-- With a token of some characters read. -/
def pushSkip (p : Progress) (n : Nat) (t : Token) : Progress :=
  { p.push t with cursor := p.cursor.skip n }

/-- With the blocks closed that are indented deeper than a column. -/
def closeBlocksIn (column : Int) : (outer : List Int) → Progress → Progress
  | [], p => p
  | indent :: rest, p =>
    if column < p.indent then
      closeBlocksIn column rest { p.push .blockEnd with indent := indent, outer := rest }
    else p

/-- With the blocks closed that are indented deeper than a column. Brackets hold no blocks. -/
def closeBlocks (p : Progress) (column : Int) : Progress :=
  if p.depth != 0 then p else closeBlocksIn column p.outer p

/-- With a block opened at a column, if it is indented deeper than the current one. -/
def openBlock? (p : Progress) (column : Nat) : Option Progress :=
  if p.indent < column then some { p with indent := column, outer := p.indent :: p.outer }
  else none

/-- With the lines and blanks up to the next token skipped. -/
def skipSpace : (fuel : Nat) → Progress → Progress
  | 0, p => p
  | fuel + 1, p =>
    let c := p.cursor.skipBlanks
    let c := if c.rest.head? = some '#' then c.restOfLine.2 else c
    match c.lineBreak? with
    | none => { p with cursor := c }
    | some (_, c) =>
      skipSpace fuel { p with cursor := c, keyAllowed := p.keyAllowed || p.depth == 0 }

/-! ### The kinds of tokens -/

/-- With what starts at the margin read: it ends all blocks, and no key can come before it. -/
def atMargin (p : Progress) : Except Fault Progress := do
  let p ← (p.closeBlocks (-1)).dropKey
  return { p with keyAllowed := false }

/-- With the end of the text read. -/
def readEnd (p : Progress) : Except Fault Progress := do
  let p ← p.atMargin
  return { p.push .streamEnd with keys := [], ended := true }

/-- With a directive read. -/
def readDirective (p : Progress) : Except Fault Progress := do
  let p ← p.atMargin
  let (d, c) ← Yaml.readDirective p.cursor.next
  return { p.push (.directive d) with cursor := c }

/-- With a marker of documents read. -/
def readMarker (p : Progress) (t : Token) : Except Fault Progress := do
  return (← p.atMargin).pushSkip 3 t

/-- With an opening bracket read. -/
def readOpening (p : Progress) (t : Token) : Except Fault Progress := do
  let p ← p.saveKey
  return { p.pushSkip 1 t with depth := p.depth + 1, keyAllowed := true }

/-- With a closing bracket read. -/
def readClosing (p : Progress) (t : Token) : Except Fault Progress := do
  let p ← p.dropKey
  return { p.pushSkip 1 t with depth := p.depth - 1, keyAllowed := false }

/-- With a comma read. -/
def readComma (p : Progress) : Except Fault Progress := do
  return { (← p.dropKey).pushSkip 1 .comma with keyAllowed := true }

/-- With a sign read that can open a block where a key is allowed. -/
def readSign (p : Progress) (fault : TokenFault) (opening t : Token) (keyAllowed : Bool) :
    Except Fault Progress := do
  let p ←
    if p.depth != 0 then pure p
    else if !p.keyAllowed then throw (.token fault)
    else pure (((p.openBlock? p.cursor.column).map (·.push opening)).getD p)
  let p ← p.dropKey
  return { p.pushSkip 1 t with keyAllowed := keyAllowed }

/-- With the dash before an element read. -/
def readDash (p : Progress) : Except Fault Progress :=
  p.readSign .misplacedElement .sequenceStart .dash true

/-- With the question mark before a key read. -/
def readKey (p : Progress) : Except Fault Progress :=
  p.readSign .misplacedKey .mappingStart .key (p.depth == 0)

/-- With the colon before a value read. -/
def readValue (p : Progress) : Except Fault Progress :=
  match p.key? with
  | some k =>
    -- the token that is held back is a key, and may be the first one of its block
    let p := { p with keys := p.keys.filter fun (depth, _) => depth != p.depth }
    let p := p.insertAt k.number .key
    let p : Progress :=
      if p.depth != 0 then p
      else ((p.openBlock? k.column).map (·.insertAt k.number .mappingStart)).getD p
    .ok { p.pushSkip 1 .value with keyAllowed := false }
  | none => p.readSign .misplacedValue .mappingStart .value (p.depth == 0)

/-- With a token read that may be a key or start one. -/
def readNode (p : Progress) (read : Cursor → Except Fault (Token × Cursor)) :
    Except Fault Progress := do
  let p ← p.saveKey
  let (t, c) ← read p.cursor
  return { p.push t with cursor := c, keyAllowed := false }

/-- With a scalar in quotes read. -/
def readQuoted (halves : Halves) (p : Progress) : Except Fault Progress :=
  p.readNode fun c => do
    let (text, c) ← Quoted.read halves c
    return (.scalar false (String.ofList text), c)

/-- With a plain scalar read. -/
def readPlain (p : Progress) : Except Fault Progress := do
  let p ← p.saveKey
  let s := Plain.read (p.depth != 0) (p.indent + 1) p.cursor
  return { p.push (.scalar true (String.ofList s.text)) with
    cursor := s.cursor, keyAllowed := s.breaks }

/-- With a block scalar read. -/
def readBlock (p : Progress) (folded : Bool) : Except Fault Progress := do
  let p ← p.dropKey
  let (text, c) ← Block.read folded p.indent p.cursor
  return { p.push (.scalar false (String.ofList text)) with cursor := c, keyAllowed := true }

/-- Whether a plain scalar starts with a character that a text follows. -/
def startsPlain (inBrackets : Bool) (c : Char) (s : List Char) : Bool :=
  !(endsWord [c] || c ∈ ['-', '?', ':', ',', '[', ']', '{', '}', '#', '&', '*', '!', '|', '>',
    '\x27', '"', '%', '@', '`']) ||
    (!endsWord s && (c = '-' || (!inBrackets && (c = '?' || c = ':'))))

/-- With the next token read. -/
def readNext (halves : Halves) (p : Progress) : Except Fault Progress := do
  let p ← (skipSpace (p.cursor.rest.length + 1) p).dropStaleKeys
  let p := p.closeBlocks p.cursor.column
  let inBrackets := p.depth != 0
  match p.cursor.rest with
  | [] => p.readEnd
  | c :: s =>
    -- what stands at the margin only
    if c = '%' ∧ p.cursor.column = 0 then p.readDirective
    else if p.cursor.column = 0 ∧ p.cursor.isWord '-' then p.readMarker .documentStart
    else if p.cursor.column = 0 ∧ p.cursor.isWord '.' then p.readMarker .documentEnd
    -- brackets and what stands between elements
    else if c = '[' then p.readOpening .openBracket
    else if c = '{' then p.readOpening .openBrace
    else if c = ']' then p.readClosing .closeBracket
    else if c = '}' then p.readClosing .closeBrace
    else if c = ',' then p.readComma
    else if c = '-' ∧ endsWord s then p.readDash
    else if c = '?' ∧ (inBrackets ∨ endsWord s) then p.readKey
    else if c = ':' ∧ (inBrackets ∨ endsWord s) then p.readValue
    -- what belongs to a node, and the scalars
    else if c = '*' then p.readNode fun c => do
      let (name, c) ← readAnchor c.next
      return (.alias name, c)
    else if c = '&' then p.readNode fun c => do
      let (name, c) ← readAnchor c.next
      return (.anchor name, c)
    else if c = '!' then p.readNode fun c => do
      let (t, c) ← readTag c
      return (.tag t, c)
    else if c = '|' ∧ ¬inBrackets then p.readBlock false
    else if c = '>' ∧ ¬inBrackets then p.readBlock true
    else if c = '\x27' ∨ c = '"' then p.readQuoted halves
    else if startsPlain inBrackets c s then p.readPlain
    else throw (.token (.stray c))

/-! ### Handing on -/

/-- Whether the next token that is held back may be a key. -/
def nextMayBeKey (p : Progress) : Bool :=
  let numbers := p.keys.map fun (_, k) => k.number
  numbers.contains p.count && numbers.all (p.count ≤ ·)

/-- The tokens that need not be held back any more, and what is held back then. -/
def handOn : (held : List Token) → Progress → List Token × Progress
  | [], p => ([], p)
  | t :: rest, p =>
    if !p.ended && p.nextMayBeKey then ([], p)
    else
      let (tokens, p) := handOn rest { p with held := rest, count := p.count + 1 }
      (t :: tokens, p)

end Progress

/-- The tokens of a document, and the fault after them if there is one. -/
structure Tokens where
  tokens : List Token
  fault : Option Fault

/-- The tokens after a state of reading. -/
def Tokens.readFrom (halves : Halves) : (fuel : Nat) → Progress → Tokens
  | 0, _ => ⟨[], none⟩
  | fuel + 1, p =>
    -- where nothing is held back the possible keys are looked at when the next token is read
    let checked := if p.held.isEmpty || p.ended then .ok p else p.dropStaleKeys
    match checked with
    | .error fault => ⟨[], some fault⟩
    | .ok p =>
      let (tokens, p) := Progress.handOn p.held p
      if p.ended then ⟨tokens, none⟩
      else
        match p.readNext halves with
        | .error fault => ⟨tokens, some fault⟩
        | .ok p =>
          let rest := readFrom halves fuel p
          ⟨tokens ++ rest.tokens, rest.fault⟩

/-- The tokens of a text. -/
def Tokens.read (halves : Halves) (s : List Char) : Tokens :=
  let p := Progress.start s
  let p := if s.head? = some '\uFEFF' then { p with cursor := p.cursor.next } else p
  readFrom halves (s.length + 2) p

end Stencil.Yaml
