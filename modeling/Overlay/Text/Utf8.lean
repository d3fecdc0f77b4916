/-!
# UTF-8

`decode` reads bytes as UTF-8. When they are not, the fault tells where the first
malformed sequence starts and how many of its bytes could have begun a character, or that
the bytes end within a character.
-/

namespace Overlay.Text.Utf8

/-- Where and how bytes fail to be UTF-8. -/
inductive Fault where
  /-- The sequence at `index` is malformed after `length` bytes. -/
  | invalid (length index : Nat)
  /-- The bytes end within the character that starts at `index`. -/
  | incomplete (index : Nat)
deriving DecidableEq, Repr

/-- The wording of a fault. -/
def Fault.message : Fault → String
  | .invalid length index => s!"invalid utf-8 sequence of {length} bytes from index {index}"
  | .incomplete index => s!"incomplete utf-8 byte sequence from index {index}"

/-- A byte that continues a character. -/
def isTail (b : UInt8) : Bool := 0x80 ≤ b && b ≤ 0xBF

/-- The low six bits that a continuation byte carries. -/
def tailBits (b : UInt8) : Nat := b.toNat % 64

/-- The second bytes that may follow a first byte of a three- or four-byte character. -/
def secondRange (first : UInt8) : UInt8 × UInt8 :=
  if first = 0xE0 then (0xA0, 0xBF)
  else if first = 0xED then (0x80, 0x9F)
  else if first = 0xF0 then (0x90, 0xBF)
  else if first = 0xF4 then (0x80, 0x8F)
  else (0x80, 0xBF)

/-- Whether `second` may follow `first`. -/
def mayFollow (first second : UInt8) : Bool :=
  let (low, high) := secondRange first
  low ≤ second && second ≤ high

/-- The character at the head of the bytes together with the bytes after it. The rest is
shorter, which is what lets `decodeFrom` end. -/
def next (index : Nat) : (bytes : List UInt8) →
    Except Fault (Option (Char × { r : List UInt8 // r.length < bytes.length }))
  | [] => .ok none
  | a :: rest =>
    if a < 0x80 then .ok (some (Char.ofNat a.toNat, ⟨rest, Nat.lt_succ_self _⟩))
    else if 0xC2 ≤ a && a ≤ 0xDF then
      match rest with
      | [] => .error (.incomplete index)
      | b :: r =>
        if isTail b then
          .ok (some (Char.ofNat ((a.toNat % 32) * 64 + tailBits b),
            ⟨r, Nat.lt_succ_of_lt (Nat.lt_succ_self _)⟩))
        else .error (.invalid 1 index)
    else if 0xE0 ≤ a && a ≤ 0xEF then
      match rest with
      | [] => .error (.incomplete index)
      | b :: r =>
        if !mayFollow a b then .error (.invalid 1 index)
        else match r with
          | [] => .error (.incomplete index)
          | c :: r =>
            if isTail c then
              .ok (some (Char.ofNat (((a.toNat % 16) * 64 + tailBits b) * 64 + tailBits c),
                ⟨r, Nat.lt_succ_of_lt (Nat.lt_succ_of_lt (Nat.lt_succ_self _))⟩))
            else .error (.invalid 2 index)
    else if 0xF0 ≤ a && a ≤ 0xF4 then
      match rest with
      | [] => .error (.incomplete index)
      | b :: r =>
        if !mayFollow a b then .error (.invalid 1 index)
        else match r with
          | [] => .error (.incomplete index)
          | c :: r =>
            if !isTail c then .error (.invalid 2 index)
            else match r with
              | [] => .error (.incomplete index)
              | d :: r =>
                if isTail d then
                  .ok (some (Char.ofNat
                    ((((a.toNat % 8) * 64 + tailBits b) * 64 + tailBits c) * 64 + tailBits d),
                    ⟨r, Nat.lt_succ_of_lt (Nat.lt_succ_of_lt (Nat.lt_succ_of_lt
                      (Nat.lt_succ_self _)))⟩))
                else .error (.invalid 3 index)
    else .error (.invalid 1 index)

/-- Decodes bytes of which the first has the given index. -/
def decodeFrom (index : Nat) (bytes : List UInt8) : Except Fault (List Char) :=
  match next index bytes with
  | .error fault => .error fault
  | .ok none => .ok []
  | .ok (some (c, ⟨rest, _⟩)) =>
    match decodeFrom (index + c.utf8Size) rest with
    | .error fault => .error fault
    | .ok cs => .ok (c :: cs)
termination_by bytes.length

/-- The characters that the bytes encode. -/
def decode (bytes : List UInt8) : Except Fault (List Char) := decodeFrom 0 bytes

/-- The bytes that encode the characters. -/
def encode (cs : List Char) : List UInt8 := cs.flatMap String.utf8EncodeChar

end Overlay.Text.Utf8
