/-!
# Base64

Bytes are written in groups of four characters, each of which stands for six bits. A group at the end
may be short; the sign of equality then fills it. Characters outside of the alphabet are passed
over, and so is a filling sign where no group is to be filled. What comes after a filled group
is not looked at.
-/

namespace Stencil.Base64

/-- The six bits that a character stands for. -/
def sextet? (c : Char) : Option Nat :=
  if 'A' ≤ c ∧ c ≤ 'Z' then some (c.toNat - 'A'.toNat)
  else if 'a' ≤ c ∧ c ≤ 'z' then some (c.toNat - 'a'.toNat + 26)
  else if '0' ≤ c ∧ c ≤ '9' then some (c.toNat - '0'.toNat + 52)
  else if c = '+' then some 62
  else if c = '/' then some 63
  else none

/-- A place in a group. -/
structure Place where
  /-- How many characters of the group are read. -/
  read : Nat
  /-- The bits of these characters that are in no byte yet. -/
  bits : Nat
  /-- How many signs have filled the group without ending it. -/
  filled : Nat

/-- The start of a group. -/
def Place.start : Place := ⟨0, 0, 0⟩

/-- The bytes that a text stands for from a place on; absent if the text ends in a group. -/
def decodeFrom? (p : Place) : List Char → Option (List UInt8)
  | [] => if p.read = 0 then some [] else none
  | c :: s =>
    if c = '=' then
      if p.read < 2 then decodeFrom? p s
      else if 4 ≤ p.read + p.filled + 1 then some []
      else decodeFrom? { p with filled := p.filled + 1 } s
    else
      match sextet? c with
      | none => decodeFrom? p s
      | some v =>
        match p.read with
        | 0 => decodeFrom? ⟨1, v, 0⟩ s
        | 1 => (decodeFrom? ⟨2, v % 16, 0⟩ s).map (UInt8.ofNat (p.bits * 4 + v / 16) :: ·)
        | 2 => (decodeFrom? ⟨3, v % 4, 0⟩ s).map (UInt8.ofNat (p.bits * 16 + v / 4) :: ·)
        | _ => (decodeFrom? .start s).map (UInt8.ofNat (p.bits * 64 + v) :: ·)

/-- The bytes that a text stands for. -/
def decode? (s : List Char) : Option (List UInt8) :=
  decodeFrom? .start s

end Stencil.Base64
