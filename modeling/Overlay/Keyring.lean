import Overlay.Bytes.Base64
import Overlay.Files
import Overlay.Json.Strings
import Overlay.Keyring.Keypair
import Overlay.Text.Blank
import Overlay.Text.Numeral

/-!
# Key rings

A key ring is an ordered list of encoded private keys. Indices are stable: the same ring
and index always give the same identity, so addresses can be published ahead of time.

An entry is the base 64 text of a private key message. Entries are decoded when they are
selected, so a bad entry spoils no other. A key ring file is a JSON array of entries, none
of which may be blank.
-/

namespace Overlay

/-- Why a key ring gives no identity. -/
inductive KeyringError where
  | indexOutOfRange (index length : Nat)
  | decodeFailure (index : Nat) (reason : String)
  | encodeFailure (reason : String)
  | file (path reason : String)
deriving DecidableEq, Repr

/-- The wording of an error. -/
def KeyringError.message : KeyringError → String
  | .indexOutOfRange index length =>
    s!"Key index {index} out of range (keyring holds {length} keys)"
  | .decodeFailure index reason => s!"Failed to decode key {index}: {reason}"
  | .encodeFailure reason => s!"Failed to encode key: {reason}"
  | .file path reason => s!"Keyring file {path}: {reason}"

/-- A key pair selected from a key ring. -/
structure Identity where
  index : Nat
  keypair : Keyring.Keypair
deriving DecidableEq

/-- The peer id of an identity. -/
def Identity.peerId (i : Identity) : PeerId := i.keypair.peerId

/-- A description of an identity that leaves its key out. -/
def Identity.describe (i : Identity) : String :=
  "Identity \x7b index: " ++ Text.decimal i.index ++ ", peer_id: PeerId(\"" ++
    i.peerId.render ++ "\"), .. \x7d"

/-- An ordered list of encoded private keys. -/
structure Keyring where
  entries : List String
deriving DecidableEq, Repr

namespace Keyring

/-- The key ring of the standard deployment: slots 0 to 2 are for bootstrap nodes, 3 to 5
for relays and 6 to 8 for the others. -/
def embedded : Keyring :=
  ⟨[
    "CAESQAA7xVQKsQ5VAC5ge+XsixR7YnDkzuHa4nrY8xWXGK3fo9yN1Eaiat9Vn1iwaVQDqTjywVP303ojVLxXcQ9ze4E=",
    "CAESQMCYbjRpXBDUnIpDyqY+mA3n7z9gF3CaggWTknd90LauHUcz8ldNtlUchFATmMSE1r/NMnSpEBbLvzWQKq3N45s=",
    "CAESQB1Y1Li0Wd4KcvMvbv5/+CTG79axzl3R8yTuzWOckMgmNAzZqxim5E/7e9mgd87FTMPQNHqiItqTFwHJeMxr0H8=",
    "CAESQHMEeM3iNIIxNThxIfnuO5FJ0oUQJy8V7TFD80lGziBE7SuPw2wckCrFRihVDaw0e6PkDCwsh/6u3UgBxB3OTFo=",
    "CAESQP3Pu7TVp2RSVIZykj65/MDXm/eiTOfLGH3xCWQVmUoC67MkFWUEOd6QERl1Y4Xvi1Rt+d36UuaFXanT+hVUDAY=",
    "CAESQDE2IToG5mWwzWEeXt3/OVbx9XyE743DTenPFUG8M06IQXSarkNhuxNEJisnWeuDvaoaM/fNJNMqhPR81NL3Pio=",
    "CAESQFffsVM3eUXLozmXkBM2FSSVhEmo/Cq5RlXOAAaniTdCu3EQ6Zf7lQDasCj6IXyTihFQWZB+nmGFn/ZAA5y5egk=",
    "CAESQCSHrfyzNZkxwoNmXI1wx5Lvr6o4+kGxGepFH0AfYlKthyON+1hQRjLJQaBAQLrr1cfMHFFoC40X62DQIhL246U=",
    "CAESQDyiSqC9Jez8wKSQs74YJalAegamjVKHbnaN35pfe6Gk21WVgCzfvBdLVoRj8XXny/k1LtSOhPZWNz0rWKCOYpk="]⟩

/-- The number of entries. -/
def size (ring : Keyring) : Nat := ring.entries.length

/-- Why an entry is no private key. -/
inductive EntryError where
  | base64 (fault : Bytes.Base64.Fault)
  | key (error : KeyError)
deriving DecidableEq, Repr

/-- The wording of an error. -/
def EntryError.message : EntryError → String
  | .base64 fault => "base64: " ++ fault.message
  | .key error => "protobuf: " ++ error.message

/-- Decodes an entry. -/
def decodeEntry (entry : String) : Except EntryError Keypair :=
  match Bytes.Base64.decode (Text.Utf8.encode entry.toList) with
  | .error fault => .error (.base64 fault)
  | .ok bytes =>
    match Keypair.ofMessage bytes with
    | .error e => .error (.key e)
    | .ok k => .ok k

/-- The entry of a key pair. -/
def encodeEntry (k : Keypair) : String := Bytes.Base64.encode k.privateMessage

/-- Selects the identity at an index. -/
def identity (ring : Keyring) (index : Nat) : Except KeyringError Identity :=
  match ring.entries[index]? with
  | none => .error (.indexOutOfRange index ring.size)
  | some entry =>
    match decodeEntry entry with
    | .error e => .error (.decodeFailure index e.message)
    | .ok k => .ok ⟨index, k⟩

/-- Why a text is no key ring. -/
inductive ContentError where
  /-- The text is not a JSON array of strings. -/
  | notStrings
  | empty
  | blankEntry (index : Nat)
deriving DecidableEq, Repr

/-- The wording of an error. -/
def ContentError.message : ContentError → String
  | .notStrings => "expected a JSON array of strings"
  | .empty => "keyring is empty"
  | .blankEntry index => s!"entry {index} is blank"

/-- Reads the content of a key ring file. -/
def ofContent (content : List Char) : Except ContentError Keyring :=
  match Json.stringArray? content with
  | none => .error .notStrings
  | some [] => .error .empty
  | some entries =>
    match entries.findIdx? fun e ↦ Text.trimChars e = [] with
    | some index => .error (.blankEntry index)
    | none => .ok ⟨entries.map fun e ↦ String.ofList (Text.trimChars e)⟩

/-- Loads a key ring file. -/
def load (files : Files) (path : String) : Except KeyringError Keyring :=
  match files.text path with
  | .error e => .error (.file path e.message)
  | .ok content =>
    match ofContent content with
    | .error e => .error (.file path e.message)
    | .ok ring => .ok ring

/-- The key ring file of the given key pairs. -/
def renderFile (keys : List Keypair) : String := Json.prettyArray (keys.map encodeEntry)

end Keyring

end Overlay
