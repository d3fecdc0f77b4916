import Overlay.Crypto.Ed25519
import Overlay.Keyring.KeyMessage
import Overlay.PeerId

/-!
# Key pairs

A key pair is an Ed25519 seed; the public key follows from it. In a key message the data
is the seed and the public key, and a message whose public key does not follow from its
seed is refused. The peer id of a key pair holds the public key itself.
-/

namespace Overlay.Keyring

/-- An Ed25519 key pair. -/
structure Keypair where
  seed : List UInt8
  length_eq : seed.length = 32
deriving DecidableEq

/-- Why a message is no usable private key. -/
inductive KeyError where
  | malformed
  /-- A type of key that is known but not supported. -/
  | disabled (feature : String)
  | unknownType (kind : Int)
  | invalidEd25519
deriving DecidableEq, Repr

/-- The wording of an error. -/
def KeyError.message (e : KeyError) : String :=
  "Key decoding error: " ++
    match e with
    | .malformed => "failed to decode private key bytes from protobuf"
    | .disabled feature => s!"cargo feature `{feature}` is not enabled"
    | .unknownType kind => s!"unknown key type {kind}"
    | .invalidEd25519 => "failed to parse Ed25519 keypair"

namespace Keypair

/-- The type of Ed25519 keys. -/
def ed25519 : UInt8 := 1

/-- The public key. -/
def publicKey (k : Keypair) : List UInt8 := Crypto.Ed25519.publicKey k.seed

/-- The key pair of a seed. -/
def ofSeed? (seed : List UInt8) : Option Keypair :=
  if h : seed.length = 32 then some ⟨seed, h⟩ else none

/-- The key pair of a seed followed by its public key. -/
def ofData? (data : List UInt8) : Option Keypair :=
  match ofSeed? (data.take 32) with
  | none => none
  | some k => if data.drop 32 = k.publicKey then some k else none

/-- The message of the private key. -/
def privateMessage (k : Keypair) : List UInt8 :=
  KeyMessage.encode ed25519 (k.seed ++ k.publicKey)

/-- The message of the public key. -/
def publicMessage (k : Keypair) : List UInt8 := KeyMessage.encode ed25519 k.publicKey

/-- Reads the message of a private key. -/
def ofMessage (bytes : List UInt8) : Except KeyError Keypair :=
  match KeyMessage.decode? bytes with
  | none => .error .malformed
  | some message =>
    match message.kind.toNat with
    | 0 => .error (.disabled "rsa")
    | 1 =>
      match ofData? message.data with
      | some k => .ok k
      | none => .error .invalidEd25519
    | 2 => .error (.disabled "secp256k1")
    | 3 => .error (.disabled "ecdsa")
    | n => .error (.unknownType (Int.bmod n UInt32.size))

theorem length_publicMessage (k : Keypair) : k.publicMessage.length = 36 := by
  simp [publicMessage, KeyMessage.encode, publicKey, Crypto.Ed25519.length_publicKey]

/-- The peer id of the key pair. -/
def peerId (k : Keypair) : PeerId :=
  ⟨⟨Multihash.identityCode, k.publicMessage⟩, by
    simp [Multihash.namesPeer, Multihash.identityCode, Multihash.sha256Code,
      Multihash.maxInline, length_publicMessage]⟩

end Keypair

end Overlay.Keyring
