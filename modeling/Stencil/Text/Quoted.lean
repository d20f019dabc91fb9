import Stencil.Text.Printable

/-!
# Quoted texts

The written form of a text inside messages and containers. Single quotes stand around it, unless
it holds a single quote and no double one; the quote in use, the backslash and all that cannot be
printed are escaped, a character that cannot be printed by its number in two, four or eight
hexadecimal digits.

Bytes are written the same way, each that is no printable ASCII character by its number, behind the
letter `b`.
-/

namespace Stencil.Text

/-- A number in lower-case hexadecimal digits, with zeros in front up to a width. -/
def hex (width n : Nat) : List Char :=
  let digits := Nat.toDigits 16 n
  List.replicate (width - digits.length) '0' ++ digits

/-- The quote that is put around a text. -/
def quoteMark (s : List Char) : Char :=
  if '\'' ∈ s ∧ '"' ∉ s then '"' else '\''

/-- The characters that end or divide lines, with the letters that they are escaped by. -/
def controlLetters : List (Char × Char) :=
  [('\n', 'n'), ('\r', 'r'), ('\t', 't')]

/-- A character that cannot be printed, by its number. -/
def escapeNumber (n : Nat) : List Char :=
  if n < 0x100 then '\\' :: 'x' :: hex 2 n
  else if n < 0x10000 then '\\' :: 'u' :: hex 4 n
  else '\\' :: 'U' :: hex 8 n

/-- A character as it stands between two quotes `mark`. -/
def quoteChar (mark c : Char) : List Char :=
  if c = mark ∨ c = '\\' then ['\\', c]
  else
    match controlLetters.lookup c with
    | some letter => ['\\', letter]
    | none => if isPrintable c then [c] else escapeNumber c.toNat

/-- The quoted form of a text. -/
def quote (s : List Char) : List Char :=
  let mark := quoteMark s
  mark :: s.flatMap (quoteChar mark) ++ [mark]

/-- A byte as it stands between two quotes `mark`. -/
def quoteByte (mark : Char) (b : UInt8) : List Char :=
  let c := Char.ofNat b.toNat
  if c.toNat < 0x7F then quoteChar mark c else escapeNumber c.toNat

/-- The quoted form of bytes. -/
def quoteBytes (bytes : List UInt8) : List Char :=
  let mark := quoteMark (bytes.map fun b => Char.ofNat b.toNat)
  'b' :: mark :: bytes.flatMap (quoteByte mark) ++ [mark]

end Stencil.Text
