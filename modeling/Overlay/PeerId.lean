import Overlay.Bytes.Positional
import Overlay.Multihash

/-!
# Peer ids

A peer is named by a multihash of its public key: a SHA-256 digest, or the key itself when
it is at most 42 bytes long. As text a peer id is the base 58 form of that multihash.
-/

namespace Overlay

namespace Multihash

/-- The code of digests that are the data itself. -/
def identityCode : Nat := 0

/-- The code of SHA-256. -/
def sha256Code : Nat := 0x12

/-- The longest key that may stand in a peer id itself. -/
def maxInline : Nat := 42

/-- Whether the multihash may name a peer. -/
def namesPeer (h : Multihash) : Bool :=
  h.code == sha256Code || (h.code == identityCode && h.digest.length ≤ maxInline)

end Multihash

/-- The name of a peer. -/
structure PeerId where
  hash : Multihash
  namesPeer : hash.namesPeer = true
deriving DecidableEq

namespace PeerId

/-- Why a text is no peer id. -/
inductive Error where
  /-- A character is not of the base 58 alphabet. -/
  | invalidText
  /-- The bytes are no multihash. -/
  | invalidMultihash
  /-- The multihash is of a kind that names no peer. -/
  | unsupportedCode (code : Nat)
deriving DecidableEq, Repr

/-- The wording of an error. -/
def Error.message : Error → String
  | .invalidText => "Invalid base string"
  | .invalidMultihash => "invalid multihash"
  | .unsupportedCode code => s!"unsupported multihash code '{code}'"

/-- The peer that a multihash names. -/
def ofMultihash (h : Multihash) : Except Error PeerId :=
  if ok : h.namesPeer = true then .ok ⟨h, ok⟩ else .error (.unsupportedCode h.code)

/-- The peer id with the given bytes. -/
def ofBytes (bytes : List UInt8) : Except Error PeerId :=
  match Multihash.ofBytes bytes with
  | .error _ => .error .invalidMultihash
  | .ok h => ofMultihash h

/-- Reads the text of a peer id. -/
def parseChars (text : List Char) : Except Error PeerId :=
  match Bytes.Positional.base58.decode? text with
  | none => .error .invalidText
  | some bytes => ofBytes bytes

/-- Reads the text of a peer id. -/
def parse (text : String) : Except Error PeerId := parseChars text.toList

/-- The bytes of a peer id. -/
def toBytes (id : PeerId) : List UInt8 := id.hash.toBytes

/-- The text of a peer id. -/
def render (id : PeerId) : String :=
  String.ofList (Bytes.Positional.base58.encode id.toBytes)

instance : ToString PeerId := ⟨render⟩

instance : Repr PeerId := ⟨fun id _ ↦ id.render⟩

end PeerId

end Overlay
