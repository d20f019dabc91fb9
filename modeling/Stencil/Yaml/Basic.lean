import Stencil.Number.Numeral
import Stencil.Value.Calendar

/-!
# Faults of YAML documents

A document can be wrong in five ways, which are noticed one after the other: it holds a character
that no document may hold; a token cannot be read; the tokens do not make up a document; a name for
a node is unknown or given twice; a node stands for no value. A scalar that looks like a number or
a time may still be none, with the faults of numbers and of the calendar, and one that is only said
to be a number, a time or a truth value has faults of its own.
-/

namespace Stencil.Yaml

/-- Why a token cannot be read. -/
inductive TokenFault where
  /-- What starts a line of a mapping is not followed by a colon. -/
  | keyWithoutColon
  /-- An element of a sequence stands where none can start. -/
  | misplacedElement
  /-- A key stands where none can start. -/
  | misplacedKey
  /-- A value stands where none can start. -/
  | misplacedValue
  /-- No token starts with this character. -/
  | stray (c : Char)
  | directive
  | anchor
  | tag
  | blockHeader
  | escape
  | unclosedQuote
  /-- A document starts or ends between two quotes. -/
  | markerInQuotes
  deriving DecidableEq, Repr

/-- Why tokens make up no document. -/
inductive GrammarFault where
  | documentStart
  | blockEnd
  | sequenceEnd
  | mappingEnd
  | node
  | unknownHandle
  | repeatedDirective
  | incompatibleVersion
  deriving DecidableEq, Repr

/-- What is wrong with a name for a node. -/
inductive AnchorFault where
  | unknown (name : String)
  | repeated (name : String)
  | secondDocument
  deriving DecidableEq, Repr

/-- Why a node stands for no value. -/
inductive NodeFault where
  /-- A key can change. -/
  | mutableKey
  /-- What is to be merged is no mapping. -/
  | unmergeable
  /-- Nothing is known of the tag, or it stands for no value. -/
  | unknownTag
  /-- The tag is one of scalars, and the node is none. -/
  | notScalar
  /-- The tag is one of collections of another kind. -/
  | wrongCollection
  /-- The text of a scalar stands for no bytes. -/
  | notBytes
  /-- The node contains itself. -/
  | cyclic
  deriving DecidableEq, Repr

/-- Why the text of a scalar is not what its tag says. -/
inductive ScalarFault where
  /-- There is nothing in the text of a number. -/
  | emptyNumber
  | notTruthValue
  | notTime
  /-- The text of a time is the main value of a mapping. -/
  | timeInMapping
  deriving DecidableEq, Repr

/-- Why a text is no document. -/
inductive Fault where
  | unprintable (c : Char)
  | token (fault : TokenFault)
  | grammar (fault : GrammarFault)
  | anchor (fault : AnchorFault)
  | node (fault : NodeFault)
  | number (fault : NumberFault)
  | calendar (fault : CalendarFault)
  | scalar (fault : ScalarFault)
  /-- An escape writes a number that is no character's. -/
  | noCharacter (n : Nat)
  deriving DecidableEq, Repr

/-- The first number that an escape cannot even hand on to be looked up. -/
def escapeLimit : Nat := 0x80000000

/-- What is reported. -/
def Fault.message : Fault → String
  | unprintable c => s!"special characters are not allowed: {c.toNat}"
  | token _ => "a token of the document cannot be read"
  | grammar _ => "the tokens do not make up a document"
  | anchor (.unknown name) => s!"found undefined alias {name}"
  | anchor (.repeated name) => s!"found duplicate anchor {name}"
  | anchor .secondDocument => "expected a single document in the stream"
  | node _ => "a node of the document has no value"
  | number fault => fault.message
  | calendar fault => fault.message
  | scalar .emptyNumber => "string index out of range"
  | scalar _ => "the text of a scalar is not what its tag says"
  | noCharacter n =>
    if n < escapeLimit then "chr() arg not in range(0x110000)"
    else "Python int too large to convert to C int"

/-! ### Characters -/

/-- Whether a document may hold a character. -/
def isAllowed (c : Char) : Bool :=
  let n := c.toNat
  c = '\t' || c = '\n' || c = '\r' || (0x20 ≤ n && n ≤ 0x7E) || n == 0x85 ||
    (0xA0 ≤ n && n ≤ 0xFFFD) || 0x10000 ≤ n

/-- Whether a character ends a line. -/
def isLineBreak (c : Char) : Bool :=
  c = '\n' || c = '\r' || c = '\x85' || c = '\u2028' || c = '\u2029'

/-- Whether nothing is left in the line. -/
def endsLine : List Char → Bool
  | [] => true
  | c :: _ => isLineBreak c

/-- Whether nothing is left in the line, or a blank follows. -/
def endsField : List Char → Bool
  | [] => true
  | c :: _ => c = ' ' || isLineBreak c

/-- Whether nothing is left in the line, or a blank or a tab follows. -/
def endsWord : List Char → Bool
  | [] => true
  | c :: _ => c = ' ' || c = '\t' || isLineBreak c

/-- Whether a character can stand in a name. -/
def isNameChar (c : Char) : Bool :=
  c.isAlphanum || c = '-' || c = '_'

end Stencil.Yaml
