import Stencil.Number.Numeral
import Stencil.Text.Halves
import Stencil.Text.Search
import Stencil.Value.Equality

/-!
# Reading JSON

A text in JSON is one value with blanks around it. Besides the values of the standard there are
three numbers that are none or not finite, `NaN`, `Infinity` and `-Infinity`; a number without
point and exponent is an integer of any size. An object whose keys repeat keeps the place of the
first and the value of the last. Escapes by number may write a half of a character alone.

The first thing that is wrong is reported with its place. Places count characters, lines from one
on and columns from one on.
-/

namespace Stencil

namespace Json

/-- What is wrong at a place. -/
inductive Reason where
  | value
  | propertyName
  | colon
  | comma
  | extra
  /-- A text is never closed; the place is its opening quote. -/
  | unterminated
  | control
  | escape
  | unicodeEscape
  | byteOrderMark
  deriving DecidableEq, Repr

/-- Why a text is not JSON. -/
inductive Fault where
  | malformed (reason : Reason) (line column place : Nat)
  | number (fault : NumberFault)
  deriving DecidableEq, Repr

/-- The wording of a reason. -/
def Reason.message : Reason → String
  | value => "Expecting value"
  | propertyName => "Expecting property name enclosed in double quotes"
  | colon => "Expecting \x27:\x27 delimiter"
  | comma => "Expecting \x27,\x27 delimiter"
  | extra => "Extra data"
  | unterminated => "Unterminated string starting at"
  | control => "Invalid control character at"
  | escape => "Invalid \\escape"
  | unicodeEscape => "Invalid \\uXXXX escape"
  | byteOrderMark => "Unexpected UTF-8 BOM (decode using utf-8-sig)"

/-- What is reported. -/
def Fault.message : Fault → String
  | malformed reason line column place =>
    s!"{reason.message}: line {line} column {column} (char {place})"
  | number fault => fault.message

/-- What is wrong with the text that is left: what stands there, by the number of characters left
    from its place on, or a number that cannot be converted. -/
inductive Stop where
  | malformed (reason : Reason) (left : Nat)
  | number (fault : NumberFault)

/-- What a reader of a text returns: a result and the rest of the text. -/
abbrev Reading (α : Type) := α × List Char

/-- The reading that stops before a text. -/
def stop {α : Type} (reason : Reason) (s : List Char) : Except Stop α :=
  .error (.malformed reason s.length)

/-- Whether a character may stand between values. -/
def isBlank (c : Char) : Bool :=
  c = ' ' || c = '\t' || c = '\n' || c = '\r'

/-- The text without its leading blanks. -/
def skipBlanks (s : List Char) : List Char :=
  s.dropWhile isBlank

/-! ### Texts -/

/-- The number of a character in four hexadecimal digits that are not the end of the text. -/
def readUnit? : List Char → Option (Nat × List Char)
  | a :: b :: c :: d :: e :: s =>
    ([a, b, c, d].mapM Text.hexDigit?).map fun digits => (Text.ofDigits 16 digits, e :: s)
  | _ => none

/-- Whether a number is the first half of a character beyond the basic ones. -/
def isHigh (n : Nat) : Bool := 0xD800 ≤ n && n < 0xDC00

/-- Whether a number is the second half of such a character. -/
def isLow (n : Nat) : Bool := 0xDC00 ≤ n && n < 0xE000

/-- The character that an escape by number writes, or what is kept for a half of one. The text starts
    with the `u`. -/
def readUnicode (halves : Halves) (s : List Char) : Except Stop (Reading Char) :=
  match readUnit? (s.drop 1) with
  | none => stop .unicodeEscape s
  | some (n, rest) =>
    match rest with
    -- two halves make one character
    | '\\' :: 'u' :: after =>
      if isHigh n ∧ 5 ≤ after.length then
        match readUnit? after with
        | none => stop .unicodeEscape ('u' :: after)
        | some (m, rest') =>
          if isLow m then .ok (Char.ofNat (0x10000 + (n - 0xD800) * 0x400 + (m - 0xDC00)), rest')
          else .ok (halves.charOf n, rest)
      else .ok (halves.charOf n, rest)
    | _ => .ok (halves.charOf n, rest)

/-- The character that a letter after a backslash stands for. -/
def escaped? (c : Char) : Option Char :=
  if c = '"' ∨ c = '\\' ∨ c = '/' then some c
  else if c = 'b' then some '\x08'
  else if c = 'f' then some '\x0c'
  else if c = 'n' then some '\n'
  else if c = 'r' then some '\r'
  else if c = 't' then some '\t'
  else none

/-- The rest of a text after its opening quote; `opening` is the text from that quote on, and at
    most `fuel` characters are read. -/
def readText (halves : Halves) (opening : List Char) :
    (fuel : Nat) → List Char → Except Stop (Reading (List Char))
  | 0, _ => stop .unterminated opening
  | _, [] => stop .unterminated opening
  | fuel + 1, c :: s =>
    if c = '"' then .ok ([], s)
    else if c = '\\' then
      match s with
      | [] => stop .unterminated opening
      | d :: rest =>
        if d = 'u' then do
          let (e, rest) ← readUnicode halves s
          let (text, rest) ← readText halves opening fuel rest
          return (e :: text, rest)
        else
          match escaped? d with
          | none => stop .escape (c :: s)
          | some e => do
            let (text, rest) ← readText halves opening fuel rest
            return (e :: text, rest)
    else if c.toNat < 0x20 then stop .control (c :: s)
    else do
      let (text, rest) ← readText halves opening fuel s
      return (c :: text, rest)

/-! ### Numbers -/

/-- The digits at the start of a text, and the rest. -/
def readDigits (s : List Char) : List Nat × List Char :=
  ((s.takeWhile Text.isAsciiDigit).filterMap Text.asciiDigit?, s.dropWhile Text.isAsciiDigit)

/-- The digits after a point at the start of a text. A point that no digit follows is left. -/
def readFraction (s : List Char) : List Nat × List Char :=
  match s with
  | '.' :: rest =>
    match readDigits rest with
    | ([], _) => ([], s)
    | found => found
  | _ => ([], s)

/-- The exponent at the start of a text. A letter that no digit follows is left. -/
def readExponent (s : List Char) : Option Int × List Char :=
  match s with
  | c :: rest =>
    if c = 'e' ∨ c = 'E' then
      let (negative, digits) := Numeral.readSign rest
      match readDigits digits with
      | ([], _) => (none, s)
      | (ds, rest) =>
        let n : Int := Numeral.ofDigits ds
        (some (if negative then -n else n), rest)
    else (none, s)
  | [] => (none, s)

/-- The number at the start of a text. No number has a zero in front of other digits. -/
def readNumber (s : List Char) : Except Stop (Reading Value) :=
  let (negative, rest) :=
    match s with
    | '-' :: rest => (true, rest)
    | _ => (false, s)
  let (whole, rest) :=
    match rest with
    | '0' :: rest => ([0], rest)
    | _ => readDigits rest
  if whole = [] then stop .value s
  else
    let (fraction, rest) := readFraction rest
    let (exponent, rest) := readExponent rest
    if fraction = [] ∧ exponent = none then
      match Numeral.toInt negative whole with
      | .ok n => .ok (.int n, rest)
      | .error fault => .error (.number fault)
    else
      let digits := Numeral.ofDigits (whole ++ fraction)
      .ok (.float (Binary64.ofDecimal negative digits (exponent.getD 0 - fraction.length)), rest)

/-! ### Values -/

/-- The words that stand for values. -/
def words : List (String × Value) :=
  [("null", .null), ("true", .bool true), ("false", .bool false), ("NaN", .float (.nan 0)),
    ("Infinity", .float (.inf false)), ("-Infinity", .float (.inf true))]

/-- The word at the start of a text. -/
def readWord? (s : List Char) : Option (Value × List Char) :=
  words.findSome? fun (word, v) => (Text.dropLead? word.toList s).map (v, ·)

mutual

/-- The value at the start of a text; every value and every element takes one of `fuel`. -/
def readValue (halves : Halves) : (fuel : Nat) → List Char → Except Stop (Reading Value)
  | 0, s => stop .value s
  | fuel + 1, s =>
    match s with
    | '"' :: rest => do
      let (text, rest) ← readText halves s rest.length rest
      return (.str (String.ofList text), rest)
    | '{' :: rest => do
      let rest := skipBlanks rest
      match rest with
      | '}' :: rest => return (.map [], rest)
      | _ =>
        let (entries, rest) ← readEntries halves fuel rest
        return (.map (Context.ofPairs entries), rest)
    | '[' :: rest => do
      let rest := skipBlanks rest
      match rest with
      | ']' :: rest => return (.list [], rest)
      | _ =>
        let (items, rest) ← readItems halves fuel rest
        return (.list items, rest)
    | _ =>
      match readWord? s with
      | some found => .ok found
      | none => readNumber s

/-- The elements of an array up to its end. -/
def readItems (halves : Halves) : (fuel : Nat) → List Char → Except Stop (Reading (List Value))
  | 0, s => stop .value s
  | fuel + 1, s => do
    let (item, rest) ← readValue halves fuel s
    let rest := skipBlanks rest
    match rest with
    | ']' :: rest => return ([item], rest)
    | ',' :: rest =>
      let (items, rest) ← readItems halves fuel (skipBlanks rest)
      return (item :: items, rest)
    | _ => stop .comma rest

/-- The entries of an object up to its end. -/
def readEntries (halves : Halves) :
    (fuel : Nat) → List Char → Except Stop (Reading (List (Value × Value)))
  | 0, s => stop .value s
  | fuel + 1, s =>
    match s with
    | '"' :: rest => do
      let (key, rest) ← readText halves s rest.length rest
      let rest := skipBlanks rest
      match rest with
      | ':' :: rest =>
        let (value, rest) ← readValue halves fuel (skipBlanks rest)
        let entry := (Value.str (String.ofList key), value)
        let rest := skipBlanks rest
        match rest with
        | '}' :: rest => return ([entry], rest)
        | ',' :: rest =>
          let (entries, rest) ← readEntries halves fuel (skipBlanks rest)
          return (entry :: entries, rest)
        | _ => stop .comma rest
      | _ => stop .colon rest
    | _ => stop .propertyName s

end

/-- The value that a text holds, with blanks around it. -/
def readDocument (halves : Halves) (s : List Char) : Except Stop Value := do
  let (v, rest) ← readValue halves (2 * s.length + 2) (skipBlanks s)
  match skipBlanks rest with
  | [] => return v
  | rest => throw (.malformed .extra rest.length)

/-- A stop in a text as a fault with its place. -/
def faultAt (s : List Char) : Stop → Fault
  | .number fault => .number fault
  | .malformed reason left =>
    let before := s.take (s.length - left)
    let lines := Text.fields '\n' before
    .malformed reason lines.length ((lines.getLastD []).length + 1) before.length

/-- The value that a text holds. -/
def read (halves : Halves) (s : List Char) : Except Fault Value :=
  match s with
  | '\uFEFF' :: _ => .error (.malformed .byteOrderMark 1 1 0)
  | _ => (readDocument halves s).mapError (faultAt s)

end Json

end Stencil
