/-!
# Variable-length integers

A number below 2^64 is written in groups of seven bits, least significant group first, and
every byte but the last has its top bit set. `read` takes at most ten bytes and refuses a
last byte that adds nothing.
-/

namespace Overlay.Bytes.Varint

/-- Why bytes do not begin with a number. -/
inductive Error where
  /-- The bytes end before the number does. -/
  | unexpectedEnd
  /-- The last byte is zero although others come before it. -/
  | notMinimal
  /-- No last byte among the first ten. -/
  | overlong
deriving DecidableEq, Repr

/-- The wording of an error. -/
def Error.message : Error → String
  | .unexpectedEnd => "unexpected end of file"
  | .notMinimal => "encoding is not minimal"
  | .overlong => "input bytes exceed maximum"

/-- The bytes of a number. -/
def encode (n : Nat) : List UInt8 :=
  if n < 128 then [UInt8.ofNat n]
  else UInt8.ofNat (n % 128 + 128) :: encode (n / 128)

/-- Reads on after `count` bytes that hold `value`; `left` bytes may still come. -/
def readFrom :
    (left : Nat) → (count value : Nat) → List UInt8 → Except Error (Nat × List UInt8)
  | 0, _, _, _ => .error .overlong
  | _ + 1, _, _, [] => .error .unexpectedEnd
  | left + 1, count, value, b :: rest =>
    let value := value + (b.toNat % 128) <<< (7 * count)
    if 128 ≤ b.toNat then readFrom left (count + 1) value rest
    else if b = 0 ∧ 0 < count then .error .notMinimal
    else .ok (value % UInt64.size, rest)

/-- The number at the head of the bytes, and the bytes after it. -/
def read (bytes : List UInt8) : Except Error (Nat × List UInt8) := readFrom 10 0 0 bytes

end Overlay.Bytes.Varint
