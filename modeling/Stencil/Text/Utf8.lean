/-!
# Text in bytes

Files hold text in UTF-8. What is no such text is refused, with the first place where it is not:
the bytes that could start a character but do not go on to one, or a byte that starts none. Lines
may end in any of the three usual ways and are read as if they ended in a line feed.
-/

namespace Stencil.Text

/-- Why bytes are no text. -/
inductive Utf8Reason where
  | invalidStart
  | invalidContinuation
  | unexpectedEnd
  deriving DecidableEq, Repr

/-- Where and why bytes are no text. -/
structure Utf8Fault where
  /-- The place of the first byte. -/
  start : Nat
  /-- The first byte. -/
  byte : UInt8
  /-- How many bytes are at fault. -/
  length : Nat
  reason : Utf8Reason
  deriving DecidableEq, Repr

/-- The wording of a reason. -/
def Utf8Reason.message : Utf8Reason → String
  | invalidStart => "invalid start byte"
  | invalidContinuation => "invalid continuation byte"
  | unexpectedEnd => "unexpected end of data"

/-- What is reported. -/
def Utf8Fault.message (f : Utf8Fault) : String :=
  let digits := Nat.toDigits 16 f.byte.toNat
  let byte := String.ofList (if digits.length < 2 then '0' :: digits else digits)
  let place :=
    if f.length = 1 then s!"byte 0x{byte} in position {f.start}"
    else s!"bytes in position {f.start}-{f.start + f.length - 1}"
  s!"'utf-8' codec can't decode {place}: {f.reason.message}"

/-- Whether a byte goes on a character. -/
def isContinuation (b : UInt8) : Bool :=
  0x80 ≤ b.toNat && b.toNat ≤ 0xBF

/-- Whether a byte may come second after a first one that starts three or four bytes: the shorter
    forms, the surrogates and the numbers past the last character are excluded. -/
def isSecond (first second : UInt8) : Bool :=
  let f := first.toNat
  let s := second.toNat
  isContinuation second && (f != 0xE0 || 0xA0 ≤ s) && (f != 0xED || s < 0xA0) &&
    (f != 0xF0 || 0x90 ≤ s) && (f != 0xF4 || s < 0x90)

/-- The low six bits of a byte that goes on a character. -/
def bits (b : UInt8) : Nat :=
  b.toNat % 64

/-- One character at the start of bytes: the character and the rest, or why there is none and how
    many bytes are at fault. -/
def decodeChar : List UInt8 → Except (Utf8Reason × Nat) (Char × List UInt8)
  | [] => .error (.unexpectedEnd, 0)
  | a :: s =>
    let n := a.toNat
    if n < 0x80 then .ok (Char.ofNat n, s)
    else if n < 0xC2 then .error (.invalidStart, 1)
    else if n < 0xE0 then
      match s with
      | [] => .error (.unexpectedEnd, 1)
      | b :: s =>
        if isContinuation b then .ok (Char.ofNat (n % 32 * 64 + bits b), s)
        else .error (.invalidContinuation, 1)
    else if n < 0xF0 then
      match s with
      | [] => .error (.unexpectedEnd, 1)
      | b :: s =>
        if !isSecond a b then .error (.invalidContinuation, 1)
        else
          match s with
          | [] => .error (.unexpectedEnd, 2)
          | c :: s =>
            if isContinuation c then .ok (Char.ofNat ((n % 16 * 64 + bits b) * 64 + bits c), s)
            else .error (.invalidContinuation, 2)
    else if n < 0xF5 then
      match s with
      | [] => .error (.unexpectedEnd, 1)
      | b :: s =>
        if !isSecond a b then .error (.invalidContinuation, 1)
        else
          match s with
          | [] => .error (.unexpectedEnd, 2)
          | c :: s =>
            if !isContinuation c then .error (.invalidContinuation, 2)
            else
              match s with
              | [] => .error (.unexpectedEnd, 3)
              | d :: s =>
                if isContinuation d then
                  .ok (Char.ofNat (((n % 8 * 64 + bits b) * 64 + bits c) * 64 + bits d), s)
                else .error (.invalidContinuation, 3)
    else .error (.invalidStart, 1)

/-- The text of bytes from a place on; at most `fuel` characters are read. -/
def decodeFrom : (fuel start : Nat) → List UInt8 → Except Utf8Fault (List Char)
  | 0, _, _ => .ok []
  | _ + 1, _, [] => .ok []
  | fuel + 1, start, b :: s =>
    match decodeChar (b :: s) with
    | .error (reason, length) => .error ⟨start, b, length, reason⟩
    | .ok (c, rest) => do
      return c :: (← decodeFrom fuel (start + ((b :: s).length - rest.length)) rest)

/-- The text of bytes. -/
def decode (bytes : List UInt8) : Except Utf8Fault (List Char) :=
  decodeFrom bytes.length 0 bytes

/-- The text with every line ending in a line feed. -/
def unifyLines : List Char → List Char
  | [] => []
  | '\r' :: '\n' :: s => '\n' :: unifyLines s
  | c :: s => (if c = '\r' then '\n' else c) :: unifyLines s

end Stencil.Text
