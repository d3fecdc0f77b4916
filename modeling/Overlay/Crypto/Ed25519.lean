import Overlay.Crypto.Sha512

/-!
# Ed25519 public keys

The public key of a 32-byte seed, as in RFC 8032: the first half of the seed's SHA-512
digest is clamped to a scalar, the base point is multiplied by it, and the product is
written as its second coordinate with the parity of the first in the top bit.

Points are kept in extended coordinates `(x, y, z, t)` with `x/z` and `y/z` the affine
coordinates and `t = x * y / z`, all modulo `2^255 - 19`.
-/

namespace Overlay.Crypto.Ed25519

/-- The prime of the field. -/
def prime : Nat := Nat.pow 2 255 - 19

/-- The constant of the curve. -/
def curveD : Nat :=
  37095705934669439343138083508754565189542113879843219016388785533085940283555

/-- A point in extended coordinates. -/
structure Point where
  (x y z t : Nat)
deriving DecidableEq

/-- The neutral point. -/
def Point.neutral : Point := ⟨0, 1, 1, 0⟩

/-- The base point. -/
def Point.base : Point :=
  let x := 15112221349535400772501151409588531511454012693041857206046113283949847762202
  let y := 46316835694926478169428394003475163141307993866256225615783033603165251855960
  ⟨x, y, 1, x * y % prime⟩

/-- The difference of two field elements. -/
def sub (a b : Nat) : Nat := (a + (prime - b % prime)) % prime

/-- The sum of two points. -/
def Point.add (p q : Point) : Point :=
  let a := sub p.y p.x * sub q.y q.x % prime
  let b := (p.y + p.x) * (q.y + q.x) % prime
  let c := 2 * p.t * q.t * curveD % prime
  let d := 2 * p.z * q.z % prime
  let e := sub b a
  let f := sub d c
  let g := (d + c) % prime
  let h := (b + a) % prime
  ⟨e * f % prime, g * h % prime, f * g % prime, e * h % prime⟩

/-- The multiple of a point by a scalar below `2^256`, from the top bit down. -/
def Point.scale (n : Nat) (p : Point) : Point :=
  (List.range 256).foldr
    (fun i acc ↦
      let twice := acc.add acc
      if n.testBit i then twice.add p else twice)
    .neutral

/-- A power modulo the prime, with an exponent below `2^256`. -/
def power (b e : Nat) : Nat :=
  (List.range 256).foldr
    (fun i acc ↦
      let square := acc * acc % prime
      if e.testBit i then square * b % prime else square)
    1

/-- The number with the given bytes, least significant first. -/
def ofBytesLE (bytes : List UInt8) : Nat :=
  bytes.foldr (fun b n ↦ n * 256 + b.toNat) 0

/-- The 32 bytes of a number below `2^256`, least significant first. -/
def toBytesLE (n : Nat) : List UInt8 :=
  (List.range 32).map fun i ↦ UInt8.ofNat (n >>> (8 * i))

/-- The bytes of a point. -/
def Point.encode (p : Point) : List UInt8 :=
  let inverse := power p.z (prime - 2)
  let x := p.x * inverse % prime
  let y := p.y * inverse % prime
  toBytesLE (y + Nat.pow 2 255 * (x % 2))

/-- The scalar that a seed stands for: bit 254 set, the bit above and the lowest three
bits clear. -/
def scalar (seed : List UInt8) : Nat :=
  let n := ofBytesLE ((Sha512.digest seed).take 32)
  n % Nat.pow 2 254 / 8 * 8 + Nat.pow 2 254

/-- The public key of a seed. -/
def publicKey (seed : List UInt8) : List UInt8 := (Point.base.scale (scalar seed)).encode

theorem length_publicKey (seed : List UInt8) : (publicKey seed).length = 32 := by
  simp [publicKey, Point.encode, toBytesLE]

end Overlay.Crypto.Ed25519
