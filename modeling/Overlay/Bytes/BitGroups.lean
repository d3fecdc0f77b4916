/-!
# Regrouping bits

Texts in base 2, 8, 16, 32 or 64 carry bytes as symbols of one, three, four, five or six
bits. Writing cuts the bits of the bytes into groups of the symbol width and fills the
last group with zeros (`regroup`). Reading cuts the bits of the symbols into bytes
(`bytesOfSymbols?`); what is left over must be shorter than a symbol and zero, so each
byte list has one reading.
-/

namespace Overlay.Bytes

/-- The lowest `width` bits of a number, the highest of them first. -/
def bitsOf : (width : Nat) → Nat → List Bool
  | 0, _ => []
  | width + 1, n => n.testBit width :: bitsOf width n

/-- The number with the given bits, the highest first. -/
def ofBits (bits : List Bool) : Nat :=
  bits.foldl (fun n b ↦ 2 * n + b.toNat) 0

/-- Consecutive groups of `width` elements; the last group may be shorter. -/
def groups {α : Type} (width : Nat) (xs : List α) : List (List α) :=
  if _h : width = 0 ∨ xs = [] then []
  else xs.take width :: groups width (xs.drop width)
termination_by xs.length
decreasing_by
  have : xs.length ≠ 0 := fun h0 ↦ _h (Or.inr (List.length_eq_zero_iff.mp h0))
  simp only [List.length_drop]
  omega

/-- The symbols of `width` bits that carry the bytes. -/
def symbolsOfBytes (width : Nat) (bytes : List UInt8) : List Nat :=
  (groups width (bytes.flatMap fun b ↦ bitsOf 8 b.toNat)).map fun g ↦
    ofBits (g ++ List.replicate (width - g.length) false)

/-- The bytes that symbols of `width` bits carry, if exactly a part of the last symbol is
left over and this part is zero. -/
def bytesOfSymbols? (width : Nat) (symbols : List Nat) : Option (List UInt8) :=
  let bits := symbols.flatMap (bitsOf width)
  let used := bits.length / 8 * 8
  let rest := bits.drop used
  if rest.length < width ∧ rest.all (! ·) then
    some ((groups 8 (bits.take used)).map fun g ↦ UInt8.ofNat (ofBits g))
  else none

end Overlay.Bytes
