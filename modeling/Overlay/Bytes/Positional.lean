/-!
# Positional digits

Bytes are read as one number, most significant byte first, and written with the digits of
another base. A number does not show its leading zeros, so every leading zero byte is
written as one leading zero digit of its own.
-/

namespace Overlay.Bytes.Positional

/-- The digits of a number in a base of at least two, most significant first; zero has no
digits. -/
def digits (base n : Nat) : List Nat :=
  if _h : n = 0 ∨ base < 2 then []
  else digits base (n / base) ++ [n % base]
termination_by n
decreasing_by
  have : n ≠ 0 := fun h0 ↦ _h (Or.inl h0)
  exact Nat.div_lt_self (by omega) (by omega)

/-- The number with the given digits, most significant first. -/
def ofDigits (base : Nat) (ds : List Nat) : Nat :=
  ds.foldl (fun n d ↦ n * base + d) 0

/-- The same number in another base, with as many leading zeros as before. -/
def rebase (source target : Nat) (ds : List Nat) : List Nat :=
  (ds.takeWhile (· == 0)) ++ digits target (ofDigits source ds)

/-- The symbols of a base, zero first. -/
structure Alphabet where
  symbols : List Char

/-- How many symbols there are. -/
def Alphabet.base (a : Alphabet) : Nat := a.symbols.length

/-- The text that carries the bytes. -/
def Alphabet.encode (a : Alphabet) (bytes : List UInt8) : List Char :=
  (rebase 256 a.base (bytes.map UInt8.toNat)).map fun d ↦ a.symbols.getD d '?'

/-- The bytes that a text carries, if it has only symbols of the alphabet. -/
def Alphabet.decode? (a : Alphabet) (text : List Char) : Option (List UInt8) :=
  (text.mapM fun c ↦ a.symbols.idxOf? c).map fun ds ↦
    (rebase a.base 256 ds).map UInt8.ofNat

/-- The 58 letters and digits that cannot be mistaken for one another, in the order used
for peer ids. -/
def base58 : Alphabet :=
  ⟨"123456789ABCDEFGHJKLMNPQRSTUVWXYZabcdefghijkmnopqrstuvwxyz".toList⟩

/-- The order of the 58 symbols with the small letters before the capital ones. -/
def base58Flickr : Alphabet :=
  ⟨"123456789abcdefghijkmnopqrstuvwxyzABCDEFGHJKLMNPQRSTUVWXYZ".toList⟩

/-- The decimal digits. -/
def base10 : Alphabet := ⟨"0123456789".toList⟩

/-- The decimal digits and the small letters. -/
def base36 : Alphabet := ⟨"0123456789abcdefghijklmnopqrstuvwxyz".toList⟩

end Overlay.Bytes.Positional
