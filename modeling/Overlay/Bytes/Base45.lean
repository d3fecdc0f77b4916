/-!
# Base 45

Two bytes are a number below 65536 and are written as three digits in base 45, least
significant first; a byte that is left over is written as two digits. Small letters are read
as capital ones.
-/

namespace Overlay.Bytes.Base45

/-- The symbols in the order of their values. -/
def symbols : List Char := "0123456789ABCDEFGHIJKLMNOPQRSTUVWXYZ $%*+-./:".toList

/-- The value of a symbol. -/
def value? (c : Char) : Option Nat := symbols.idxOf? c.toUpper

/-- The bytes of digits. No digit may stand alone, and no number may be too large for its
bytes. -/
def bytesOfDigits? : List Nat → Option (List UInt8)
  | [] => some []
  | [_] => none
  | [a, b] =>
    let n := a + 45 * b
    if n < UInt8.size then some [UInt8.ofNat n] else none
  | a :: b :: c :: rest =>
    let n := a + 45 * b + 45 * 45 * c
    if n < UInt16.size then
      (bytesOfDigits? rest).map fun bytes ↦ UInt8.ofNat (n / 256) :: UInt8.ofNat n :: bytes
    else none

/-- The bytes that a text carries. -/
def decode? (text : List Char) : Option (List UInt8) := (text.mapM value?).bind bytesOfDigits?

end Overlay.Bytes.Base45
