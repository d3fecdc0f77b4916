/-!
# Hexadecimal text

Two digits for each byte, the high half first. Texts are written in lower case and read
in either case.
-/

namespace Overlay.Bytes.Hex

/-- The lower-case digit of a value below sixteen. -/
def digit (n : Nat) : Char := Nat.digitChar (n % 16)

/-- The value of a hexadecimal digit, given as a byte of ASCII text. -/
def value? (b : UInt8) : Option Nat :=
  if 0x30 ≤ b ∧ b ≤ 0x39 then some (b.toNat - 0x30)
  else if 0x61 ≤ b ∧ b ≤ 0x66 then some (b.toNat - 0x61 + 10)
  else if 0x41 ≤ b ∧ b ≤ 0x46 then some (b.toNat - 0x41 + 10)
  else none

/-- The value of a hexadecimal digit. -/
def charValue? (c : Char) : Option Nat :=
  if c.toNat < 128 then value? (UInt8.ofNat c.toNat) else none

/-- The two lower-case digits of a byte. -/
def pair (b : UInt8) : List Char := [digit (b.toNat / 16), digit b.toNat]

/-- The two upper-case digits of a byte. -/
def upperPair (b : UInt8) : List Char := (pair b).map Char.toUpper

/-- The digits of the bytes. -/
def encode (bytes : List UInt8) : String := String.ofList (bytes.flatMap pair)

/-- The bytes that pairs of digits name. -/
def decodeChars : List Char → Option (List UInt8)
  | [] => some []
  | [_] => none
  | x :: y :: rest =>
    match charValue? x, charValue? y, decodeChars rest with
    | some h, some l, some bytes => some (UInt8.ofNat (h * 16 + l) :: bytes)
    | _, _, _ => none

/-- The bytes that a hexadecimal text names. -/
def decode? (s : String) : Option (List UInt8) := decodeChars s.toList

end Overlay.Bytes.Hex
