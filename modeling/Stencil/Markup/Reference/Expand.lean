import Stencil.Markup.Reference.Names
import Stencil.Number.Numeral
import Stencil.Text.Search

/-!
# References to characters

An ampersand may start a reference to a character: by its decimal number, by its hexadecimal
number, or by its name. A semicolon may end it. A name that is not known stands for the longest
known name it starts with, and an ampersand that starts no reference for itself.

No reference holds a second ampersand, so the text is cut at its ampersands and the pieces are
expanded one by one.
-/

namespace Stencil.Markup

/-- The characters that the numbers 0x80 to 0x9F stand for. -/
def windowsCharacters : List Nat :=
  [0x20AC, 0x81, 0x201A, 0x192, 0x201E, 0x2026, 0x2020, 0x2021, 0x2C6, 0x2030, 0x160, 0x2039, 0x152,
   0x8D, 0x17D, 0x8F, 0x90, 0x2018, 0x2019, 0x201C, 0x201D, 0x2022, 0x2013, 0x2014, 0x2DC, 0x2122,
   0x161, 0x203A, 0x153, 0x9D, 0x17E, 0x178]

/-- The replacement character. -/
def replacement : Char := Char.ofNat 0xFFFD

/-- Whether a number is one of a control or of no character, which is left out. -/
def isOmitted (n : Nat) : Bool :=
  (1 ≤ n && n ≤ 8) || n == 0xB || (0xE ≤ n && n ≤ 0x1F) || n == 0x7F ||
    (0xFDD0 ≤ n && n ≤ 0xFDEF) || n % 0x10000 == 0xFFFE || n % 0x10000 == 0xFFFF

/-- The text that a number stands for. -/
def ofCodePoint (n : Nat) : List Char :=
  if n = 0 then [replacement]
  else if 0x80 ≤ n ∧ n ≤ 0x9F then [Char.ofNat (windowsCharacters.getD (n - 0x80) n)]
  else if (0xD800 ≤ n ∧ n ≤ 0xDFFF) ∨ 0x10FFFF < n then [replacement]
  else if isOmitted n then []
  else [Char.ofNat n]

/-- The text without a semicolon at its start. -/
def dropSemicolon : List Char → List Char
  | ';' :: s => s
  | s => s

/-- Whether a character may stand in the name of a reference. -/
def isReferenceChar (c : Char) : Bool :=
  c ≠ '\t' && c ≠ '\n' && c ≠ '\x0C' && c ≠ ' ' && c ≠ '<' && c ≠ '&' && c ≠ '#' && c ≠ ';'

/-- The most characters in the name of a reference, but for its semicolon. -/
def maxNameLength : Nat := 32

/-- The name of a reference at the start of a text, and the rest. -/
def referenceName (s : List Char) : List Char × List Char :=
  let name := (s.takeWhile isReferenceChar).take maxNameLength
  match s.drop name.length with
  | ';' :: rest => (name ++ [';'], rest)
  | rest => (name, rest)

/-- The text of the longest known name of at most `size` characters that a name starts with, and
    the rest of the name. A name has at least two characters. -/
def longestName? (name : List Char) : (size : Nat) → Option (List Char)
  | 0 => none
  | 1 => none
  | size + 2 =>
    match characters? (name.take (size + 2)) with
    | some text => some (text ++ name.drop (size + 2))
    | none => longestName? name (size + 1)

/-- The text that a name of a reference stands for. -/
def expandName (name : List Char) : List Char :=
  match characters? name with
  | some text => text
  | none => (longestName? name (name.length - 1)).getD ('&' :: name)

/-- What stands between an ampersand and the next one, expanded together with the former. -/
def expandReference (piece : List Char) : Except NumberFault (List Char) :=
  match piece with
  | '#' :: s =>
    -- decimal digits come first, as no hexadecimal number starts with one
    match s.takeWhile Text.isAsciiDigit with
    | d :: ds => do
      let digits := (d :: ds).filterMap Text.asciiDigit?
      let n ← Numeral.toInt false digits
      return ofCodePoint n.toNat ++ dropSemicolon (s.drop digits.length)
    | [] =>
      match s with
      | x :: h =>
        let digits := (h.takeWhile fun c => (Text.hexDigit? c).isSome).filterMap Text.hexDigit?
        if (x = 'x' ∨ x = 'X') ∧ digits ≠ [] then
          .ok (ofCodePoint (Text.ofDigits 16 digits) ++
            dropSemicolon (h.drop digits.length))
        else .ok ('&' :: piece)
      | [] => .ok ('&' :: piece)
  | _ =>
    match referenceName piece with
    | ([], rest) => .ok ('&' :: rest)
    | (';' :: _, _) => .ok ('&' :: piece)
    | (name, rest) => .ok (expandName name ++ rest)

/-- The text with all references expanded. -/
def expandReferences (s : List Char) : Except NumberFault (List Char) :=
  match Text.fields '&' s with
  | [] => .ok []
  | first :: pieces => do
    return first ++ (← pieces.mapM expandReference).flatten

end Stencil.Markup
