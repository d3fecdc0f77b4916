import Overlay.Bytes.Hex

/-!
# Percent encoding

`decode` replaces a percent sign and two hexadecimal digits by the byte they name and
leaves every other byte as it is. `encode` writes the bytes that a path segment of a URL
does not hold literally as `%XX`.
-/

namespace Overlay.Text.Percent

/-- The bytes named by a text in which `%XX` stands for a byte. -/
def decode : List UInt8 → List UInt8
  | b :: x :: y :: rest =>
    match Bytes.Hex.value? x, Bytes.Hex.value? y with
    | some h, some l =>
      if b = 0x25 then UInt8.ofNat (h * 16 + l) :: decode rest else b :: decode (x :: y :: rest)
    | _, _ => b :: decode (x :: y :: rest)
  | bytes => bytes

/-- The printable characters that a segment writes as `%XX`. -/
def reserved : List Char := "%/`?\x7b\x7d \"#<>".toList

/-- Whether a byte stands for itself in a segment. -/
def isLiteral (b : UInt8) : Bool :=
  0x20 ≤ b && b < 0x7F && !reserved.contains (Char.ofNat b.toNat)

/-- The segment text of the bytes. -/
def encode (bytes : List UInt8) : List Char :=
  bytes.flatMap fun b ↦
    if isLiteral b then [Char.ofNat b.toNat] else '%' :: Bytes.Hex.upperPair b

end Overlay.Text.Percent
