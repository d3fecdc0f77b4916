import Overlay.Bytes.Multibase

/-!
# Base 64 with located faults

The standard alphabet with canonical padding. A text is refused with the first fault in
this order: a lone last symbol that is none, a byte before the last group that is no
symbol, a fault within the last group from left to right, too few symbols there, padding
that does not fill the group, unused bits that are not zero. The last group is the last
`length mod 4` bytes, or the last four.
-/

namespace Overlay.Bytes.Base64

/-- Why a text is not base 64. -/
inductive Fault where
  | invalidSymbol (byte : UInt8) (offset : Nat)
  | invalidLength (length : Nat)
  | invalidPadding
  /-- The last symbol has bits that belong to no byte. -/
  | invalidLastSymbol (byte : UInt8) (offset : Nat)
deriving DecidableEq, Repr

/-- The wording of a fault. -/
def Fault.message : Fault → String
  | .invalidSymbol byte offset => s!"Invalid symbol {byte.toNat}, offset {offset}."
  | .invalidLength length => s!"Invalid input length: {length}"
  | .invalidPadding => "Invalid padding"
  | .invalidLastSymbol byte offset => s!"Invalid last symbol {byte.toNat}, offset {offset}."

/-- The padding sign. -/
def padding : UInt8 := 0x3D

/-- The value of a symbol. -/
def value? (b : UInt8) : Option Nat :=
  if b < 128 then BitBase.base64.value? (Char.ofNat b.toNat) else none

/-- Where the last group starts. -/
def lastGroup (length : Nat) : Nat :=
  if length % 4 = 0 then length - 4 else length - length % 4

/-- The values of the bytes, of which the first has the given offset. -/
def frontValues (offset : Nat) : List UInt8 → Except Fault (List Nat)
  | [] => .ok []
  | b :: rest =>
    match value? b with
    | none => .error (.invalidSymbol b offset)
    | some v => (frontValues (offset + 1) rest).map (v :: ·)

/-- What the last group holds. -/
structure Tail where
  values : List Nat
  /-- How many padding signs follow the symbols. -/
  pads : Nat
deriving DecidableEq, Repr

/-- Reads the padding signs behind the symbols of the last group; `first` is the offset of
the first of them. -/
def padsOnly (first : Nat) : List UInt8 → Except Fault Nat
  | [] => .ok 0
  | b :: rest =>
    if b = padding then (padsOnly first rest).map (· + 1)
    else .error (.invalidSymbol padding first)

/-- Reads the last group, in which `position` symbols have been read. -/
def tail (start position : Nat) : List UInt8 → Except Fault Tail
  | [] => .ok ⟨[], 0⟩
  | b :: rest =>
    if b = padding then
      if position < 2 then .error (.invalidSymbol b (start + position))
      else (padsOnly (start + position) (b :: rest)).map fun n ↦ ⟨[], n⟩
    else match value? b with
      | none => .error (.invalidSymbol b (start + position))
      | some v => (tail start (position + 1) rest).map fun t ↦ { t with values := v :: t.values }

/-- Decodes the bytes of a text. -/
def decode (text : List UInt8) : Except Fault (List UInt8) := do
  let n := text.length
  if n = 0 then return []
  let start := lastGroup n
  match text.getLast? with
  | some b =>
    if n % 4 = 1 ∧ b ≠ padding ∧ value? b = none then throw (.invalidSymbol b (n - 1))
  | none => pure ()
  let front ← frontValues 0 (text.take start)
  let t ← tail start 0 (text.drop start)
  let symbols := t.values.length
  if symbols < 2 then throw (.invalidLength (start + symbols))
  if (symbols + t.pads) % 4 ≠ 0 then throw .invalidPadding
  match bytesOfSymbols? 6 (front ++ t.values) with
  | some bytes => return bytes
  | none => throw (.invalidLastSymbol (text.getD (start + symbols - 1) 0) (start + symbols - 1))

/-- The text of the bytes. -/
def encode (bytes : List UInt8) : String :=
  String.ofList ((BitBase.base64.padded 4).encode bytes)

end Overlay.Bytes.Base64
