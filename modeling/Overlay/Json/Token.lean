import Overlay.Bytes.Hex

/-!
# JSON tokens

A JSON text is cut into its punctuation, its string literals and the word `null`; numbers
and truth values are not part of the texts read here. White space between tokens is
skipped. A string literal may hold any character above the control characters, and
escapes; an escaped surrogate counts only as one half of a pair.
-/

namespace Overlay.Json

/-- A token of a JSON text. -/
inductive Token where
  | openArray
  | closeArray
  | openObject
  | closeObject
  | comma
  | colon
  | null
  | text (value : List Char)
deriving DecidableEq, Repr

/-- The white space between tokens. -/
def isSpace (c : Char) : Bool := c == ' ' || c == '\n' || c == '\t' || c == '\r'

/-- The token that a punctuation character is. -/
def punctuation? : Char → Option Token
  | '[' => some .openArray
  | ']' => some .closeArray
  | '{' => some .openObject
  | '}' => some .closeObject
  | ',' => some .comma
  | ':' => some .colon
  | _ => none

/-- The character that a one-letter escape stands for. -/
def escaped? : Char → Option Char
  | '"' => some '"'
  | '\\' => some '\\'
  | '/' => some '/'
  | 'b' => some '\x08'
  | 'f' => some '\x0c'
  | 'n' => some '\n'
  | 'r' => some '\r'
  | 't' => some '\t'
  | _ => none

/-- The number that four hexadecimal digits write. -/
def unit? (a b c d : Char) : Option Nat := do
  let a ← Bytes.Hex.charValue? a
  let b ← Bytes.Hex.charValue? b
  let c ← Bytes.Hex.charValue? c
  let d ← Bytes.Hex.charValue? d
  return ((a * 16 + b) * 16 + c) * 16 + d

/-- Where a scan stands. -/
inductive Scan where
  /-- Between tokens. -/
  | outside
  /-- In a string literal; the characters read so far come latest first. -/
  | inside (value : List Char)

/-- Cuts a text into tokens. -/
def scan : Scan → List Char → Option (List Token)
  | .outside, [] => some []
  | .outside, '"' :: rest => scan (.inside []) rest
  | .outside, 'n' :: 'u' :: 'l' :: 'l' :: rest => (scan .outside rest).map (.null :: ·)
  | .outside, c :: rest =>
    if isSpace c then scan .outside rest
    else match punctuation? c with
      | none => none
      | some token => (scan .outside rest).map (token :: ·)
  | .inside _, [] => none
  | .inside value, '"' :: rest => (scan .outside rest).map (.text value.reverse :: ·)
  | .inside value, '\\' :: 'u' :: a :: b :: c :: d :: rest =>
    match unit? a b c d with
    | none => none
    | some high =>
      if 0xDC00 ≤ high ∧ high < 0xE000 then none
      else if 0xD800 ≤ high ∧ high < 0xDC00 then
        match rest with
        | '\\' :: 'u' :: a :: b :: c :: d :: rest =>
          match unit? a b c d with
          | none => none
          | some low =>
            if 0xDC00 ≤ low ∧ low < 0xE000 then
              scan (.inside (Char.ofNat (0x10000 + (high - 0xD800) * 0x400 + (low - 0xDC00))
                :: value)) rest
            else none
        | _ => none
      else scan (.inside (Char.ofNat high :: value)) rest
  | .inside value, '\\' :: c :: rest =>
    match escaped? c with
    | none => none
    | some e => scan (.inside (e :: value)) rest
  | .inside value, c :: rest =>
    if c.toNat < 0x20 ∨ c = '\\' then none else scan (.inside (c :: value)) rest

/-- The tokens of a text. -/
def tokens? (text : List Char) : Option (List Token) := scan .outside text

end Overlay.Json
