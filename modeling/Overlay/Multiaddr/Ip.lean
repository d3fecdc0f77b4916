import Overlay.Bytes.Hex
import Overlay.Text.Numeral

/-!
# Internet addresses

Addresses of version 4 are four decimal parts without leading zeros. Addresses of version
6 are eight groups of up to four hexadecimal digits; `::` stands for one or more zero
groups, and the last two groups may be written as an address of version 4.

Printing shortens the first of the longest runs of at least two zero groups, and writes
the version 4 form only for mapped addresses `::ffff:a.b.c.d`.
-/

namespace Overlay

/-- An address of version 4. -/
structure Ip4 where
  (a b c d : UInt8)
deriving DecidableEq, Repr

/-- An address of version 6: eight groups of sixteen bits. -/
structure Ip6 where
  groups : List UInt16
  length_eq : groups.length = 8
deriving DecidableEq, Repr

namespace Ip4

/-- A decimal part at the head of the text: up to three digits, no leading zero, below 256. -/
def readPart (s : List Char) : Option (UInt8 × List Char) :=
  let ds := s.takeWhile fun c ↦ (Text.digit? c).isSome
  let value := ds.foldl (fun n c ↦ n * 10 + (Text.digit? c).getD 0) 0
  if ds = [] ∨ 3 < ds.length ∨ (ds.head? = some '0' ∧ 1 < ds.length) ∨ 255 < value then none
  else some (UInt8.ofNat value, s.drop ds.length)

/-- A dot and the part behind it. -/
def readNextPart : List Char → Option (UInt8 × List Char)
  | '.' :: s => readPart s
  | _ => none

/-- An address at the head of the text. -/
def readHead (s : List Char) : Option (Ip4 × List Char) := do
  let (a, s) ← readPart s
  let (b, s) ← readNextPart s
  let (c, s) ← readNextPart s
  let (d, s) ← readNextPart s
  return (⟨a, b, c, d⟩, s)

/-- Reads a text that is exactly one address. -/
def parse? (s : List Char) : Option Ip4 :=
  match readHead s with
  | some (ip, []) => some ip
  | _ => none

/-- The text of an address. -/
def render (ip : Ip4) : String :=
  s!"{ip.a.toNat}.{ip.b.toNat}.{ip.c.toNat}.{ip.d.toNat}"

/-- The address as two groups of an address of version 6. -/
def toGroups (ip : Ip4) : List UInt16 :=
  [UInt16.ofNat (ip.a.toNat * 256 + ip.b.toNat), UInt16.ofNat (ip.c.toNat * 256 + ip.d.toNat)]

/-- This machine. -/
def loopback : Ip4 := ⟨127, 0, 0, 1⟩

/-- Every interface. -/
def unspecified : Ip4 := ⟨0, 0, 0, 0⟩

end Ip4

namespace Ip6

/-- The address with the given groups, filled up with zeros. -/
def ofGroups (groups : List UInt16) : Ip6 :=
  ⟨(groups ++ List.replicate 8 0).take 8, by simp⟩

/-- A group of up to four hexadecimal digits at the head of the text. -/
def readGroup (s : List Char) : Option (UInt16 × List Char) :=
  let ds := s.takeWhile fun c ↦ (Bytes.Hex.charValue? c).isSome
  if ds = [] ∨ 4 < ds.length then none
  else
    let value := ds.foldl (fun n c ↦ n * 16 + (Bytes.Hex.charValue? c).getD 0) 0
    some (UInt16.ofNat value, s.drop ds.length)

/-- What a separator leaves to read; the first group of a run has none before it. -/
def afterSeparator (first : Bool) (s : List Char) : Option (List Char) :=
  if first then some s
  else match s with
    | ':' :: rest => some rest
    | _ => none

/-- What reading a run of groups gives. -/
structure Run where
  groups : List UInt16
  /-- The run ended with an address of version 4. -/
  embedded : Bool
  rest : List Char

/-- Reads at most `limit` groups; an address of version 4 needs two of them and ends the run. -/
def readRun : (limit : Nat) → (first : Bool) → List Char → Run
  | 0, _, s => ⟨[], false, s⟩
  | limit + 1, first, s =>
    match afterSeparator first s with
    | none => ⟨[], false, s⟩
    | some body =>
      match (if 0 < limit then Ip4.readHead body else none) with
      | some (ip, rest) => ⟨ip.toGroups, true, rest⟩
      | none =>
        match readGroup body with
        | none => ⟨[], false, s⟩
        | some (g, rest) =>
          let more := readRun limit false rest
          { more with groups := g :: more.groups }

/-- An address at the head of the text. -/
def readHead (s : List Char) : Option (Ip6 × List Char) :=
  let front := readRun 8 true s
  if front.groups.length = 8 then some (ofGroups front.groups, front.rest)
  else if front.embedded then none
  else match front.rest with
    | ':' :: ':' :: rest =>
      let back := readRun (8 - (front.groups.length + 1)) true rest
      let zeros := List.replicate (8 - front.groups.length - back.groups.length) 0
      some (ofGroups (front.groups ++ zeros ++ back.groups), back.rest)
    | _ => none

/-- Reads a text that is exactly one address. -/
def parse? (s : List Char) : Option Ip6 :=
  match readHead s with
  | some (ip, []) => some ip
  | _ => none

/-- A group without leading zeros. -/
def renderGroup (g : UInt16) : String := String.ofList (Nat.toDigits 16 g.toNat)

/-- Groups with colons between them. -/
def renderGroups (gs : List UInt16) : String := ":".intercalate (gs.map renderGroup)

/-- The length of the run of zeros at the head. -/
def zeroRun (gs : List UInt16) : Nat := (gs.takeWhile (· == 0)).length

/-- Where the first of the longest runs of zeros starts, and its length. -/
def longestZeroRun (gs : List UInt16) : Nat × Nat :=
  (List.range gs.length).foldl
    (fun best start ↦
      let n := zeroRun (gs.drop start)
      if best.2 < n then (start, n) else best)
    (0, 0)

/-- The address of version 4 that is mapped into version 6. -/
def mapped? (ip : Ip6) : Option Ip4 :=
  match ip.groups with
  | [0, 0, 0, 0, 0, 0xffff, x, y] =>
    some ⟨UInt8.ofNat (x.toNat / 256), UInt8.ofNat x.toNat,
      UInt8.ofNat (y.toNat / 256), UInt8.ofNat y.toNat⟩
  | _ => none

/-- The text of an address. -/
def render (ip : Ip6) : String :=
  match ip.mapped? with
  | some ip4 => "::ffff:" ++ ip4.render
  | none =>
    let (start, n) := longestZeroRun ip.groups
    if 1 < n then
      renderGroups (ip.groups.take start) ++ "::" ++ renderGroups (ip.groups.drop (start + n))
    else renderGroups ip.groups

/-- This machine. -/
def loopback : Ip6 := ofGroups [0, 0, 0, 0, 0, 0, 0, 1]

/-- Every interface. -/
def unspecified : Ip6 := ofGroups []

end Ip6

end Overlay
