import Overlay.Bytes.Varint

/-!
# Self-describing digests

A multihash names its hash function by a code and carries a digest of at most 64 bytes.
As bytes it is the code, the digest's length and the digest, with nothing after it.
-/

namespace Overlay

/-- A digest and the code of the function it comes from. -/
structure Multihash where
  code : Nat
  digest : List UInt8
deriving DecidableEq, Repr

namespace Multihash

/-- The longest digest. -/
def maxDigest : Nat := 64

/-- Why bytes are no multihash. -/
inductive Error where
  | varint (cause : Bytes.Varint.Error)
  /-- The digest would be too long, or bytes are left over. -/
  | invalidSize (size : Nat)
  /-- The digest ends early. -/
  | shortDigest
deriving DecidableEq, Repr

/-- The wording of an error. -/
def Error.message : Error → String
  | .varint cause => cause.message
  | .invalidSize size => s!"Invalid multihash size {size}."
  | .shortDigest => "failed to fill whole buffer"

/-- The bytes of a multihash. -/
def toBytes (h : Multihash) : List UInt8 :=
  Bytes.Varint.encode h.code ++ Bytes.Varint.encode h.digest.length ++ h.digest

/-- Reads bytes that are exactly one multihash. -/
def ofBytes (bytes : List UInt8) : Except Error Multihash := do
  let (code, rest) ← (Bytes.Varint.read bytes).mapError Error.varint
  let (size, rest) ← (Bytes.Varint.read rest).mapError Error.varint
  if maxDigest < size then throw (.invalidSize size)
  if rest.length < size then throw .shortDigest
  if size < rest.length then throw (.invalidSize (rest.length - size))
  return ⟨code, rest⟩

end Multihash

end Overlay
