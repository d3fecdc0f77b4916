/-!
# Key messages

A private key is carried in a tagged message: field 1 is the key's type, field 2 its data.
Missing fields are zero and empty, a later field replaces an earlier one, and other fields
are skipped by their wire type. Groups of fields are skipped up to the matching end and
nest at most 100 deep.
-/

namespace Overlay.Keyring

/-- The fields of a private key message. -/
structure KeyMessage where
  /-- The low 32 bits of the key's type. -/
  kind : UInt32
  data : List UInt8
deriving DecidableEq, Repr

namespace KeyMessage

/-- The message without fields. -/
def empty : KeyMessage := ⟨0, []⟩

/-- Reads the bytes of a variable-length number of which `count` bytes with the value
`value` have been read. A tenth byte may hold one bit. -/
def readVarint (count value : Nat) : List UInt8 → Option (Nat × List UInt8)
  | [] => none
  | b :: rest =>
    if 10 ≤ count then none
    else
      let value := value + (b.toNat % 128) * 2 ^ (7 * count)
      if 128 ≤ b.toNat then readVarint (count + 1) value rest
      else if count = 9 ∧ 2 ≤ b.toNat then none
      else some (value, rest)

/-- The bytes after `n` of them. -/
def skip (n : Nat) (bytes : List UInt8) : Option (List UInt8) :=
  if bytes.length < n then none else some (bytes.drop n)

/-- The deepest nesting of groups. -/
def maxDepth : Nat := 100

/-- What a field's key says. -/
structure Key where
  number : Nat
  wire : Nat

/-- Reads the key of a field. -/
def readKey (bytes : List UInt8) : Option (Key × List UInt8) :=
  match readVarint 0 0 bytes with
  | none => none
  | some (key, rest) =>
    if UInt32.size ≤ key ∨ key / 8 = 0 ∨ 5 < key % 8 then none
    else some (⟨key / 8, key % 8⟩, rest)

/-- Skips the value of a field that is no group. -/
def skipValue (wire : Nat) (bytes : List UInt8) : Option (List UInt8) :=
  match wire with
  | 0 => (readVarint 0 0 bytes).map (·.2)
  | 1 => skip 8 bytes
  | 2 => (readVarint 0 0 bytes).bind fun (n, rest) ↦ skip n rest
  | 5 => skip 4 bytes
  | _ => none

/-- Reads the value of one of the two known fields. -/
def readKnown (key : Key) (bytes : List UInt8) (message : KeyMessage) :
    Option (KeyMessage × List UInt8) :=
  match readVarint 0 0 bytes with
  | none => none
  | some (n, rest) =>
    if key.number = 1 then
      if key.wire = 0 then some ({ message with kind := UInt32.ofNat n }, rest) else none
    else if key.wire = 2 ∧ n ≤ rest.length then
      some ({ message with data := rest.take n }, rest.drop n)
    else none

/-- Reads fields into a message. The numbers of the groups that are open come innermost
first; every field takes at least one byte, so `fuel` need not exceed the length. -/
def readFields :
    (fuel : Nat) → (groups : List Nat) → KeyMessage → List UInt8 → Option KeyMessage
  | _, [], message, [] => some message
  | 0, _, _, _ => none
  | fuel + 1, groups, message, bytes =>
    match readKey bytes with
    | none => none
    | some (key, rest) =>
      match groups with
      | [] =>
        if key.number = 1 ∨ key.number = 2 then
          match readKnown key rest message with
          | none => none
          | some (message, rest) => readFields fuel [] message rest
        else if key.wire = 3 then readFields fuel [key.number] message rest
        else match skipValue key.wire rest with
          | none => none
          | some rest => readFields fuel [] message rest
      | group :: outer =>
        if key.wire = 4 then
          if key.number = group then readFields fuel outer message rest else none
        else if maxDepth ≤ groups.length then none
        else if key.wire = 3 then readFields fuel (key.number :: groups) message rest
        else match skipValue key.wire rest with
          | none => none
          | some rest => readFields fuel groups message rest

/-- Reads a message. -/
def decode? (bytes : List UInt8) : Option KeyMessage :=
  readFields bytes.length [] .empty bytes

/-- Writes a key of the given type with fewer than 128 bytes of data. -/
def encode (kind : UInt8) (data : List UInt8) : List UInt8 :=
  [0x08, kind, 0x12, UInt8.ofNat data.length] ++ data

end KeyMessage

end Overlay.Keyring
