import Overlay.Bytes.Base45
import Overlay.Bytes.BitGroups
import Overlay.Bytes.Pictograms
import Overlay.Bytes.Positional
import Overlay.Text.Utf8

/-!
# Self-describing base texts

A multibase text is bytes in one of several bases behind a character that names the base.
Bases of a power of two regroup bits (`BitBase`); a base with padding fills its last block
with equals signs, and blocks that end early may be followed by more blocks. Behind the null
character the text stands for its own bytes, base 45 takes bytes in pairs, and pictograms
take them one by one. The other bases are positional.
-/

namespace Overlay.Bytes

/-- A base whose symbols carry whole bits. -/
structure BitBase where
  /-- The bits that a symbol carries. -/
  width : Nat
  symbols : List Char
  /-- Letters of either case are read alike. -/
  foldCase : Bool
  /-- The symbols of a full block, if short blocks are padded. -/
  block : Option Nat

namespace BitBase

/-- The value of a symbol. -/
def value? (b : BitBase) (c : Char) : Option Nat :=
  match b.symbols.idxOf? c with
  | some n => some n
  | none => if b.foldCase then b.symbols.idxOf? c.toLower <|> b.symbols.idxOf? c.toUpper else none

/-- Fills a text up to whole blocks. -/
def pad (b : BitBase) (text : List Char) : List Char :=
  match b.block with
  | none => text
  | some n => text ++ List.replicate ((n - text.length % n) % n) '='

/-- The text that carries the bytes. -/
def encode (b : BitBase) (bytes : List UInt8) : List Char :=
  b.pad ((symbolsOfBytes b.width bytes).map fun v ↦ b.symbols.getD v '?')

/-- The bytes of a text without padding. -/
def decodePlain? (b : BitBase) (text : List Char) : Option (List UInt8) :=
  (text.mapM b.value?).bind (bytesOfSymbols? b.width)

/-- The bytes of one block: symbols, then padding up to the block length. -/
def decodeBlock? (b : BitBase) (length : Nat) (text : List Char) : Option (List UInt8) :=
  let body := (text.reverse.dropWhile (· == '=')).reverse
  if text.length = length ∧ body ≠ [] then b.decodePlain? body else none

/-- The bytes that a text carries. -/
def decode? (b : BitBase) (text : List Char) : Option (List UInt8) :=
  match b.block with
  | none => b.decodePlain? text
  | some n => ((groups n text).mapM (b.decodeBlock? n)).map List.flatten

/-- Binary digits. -/
def base2 : BitBase := ⟨1, "01".toList, false, none⟩

/-- Octal digits. -/
def base8 : BitBase := ⟨3, "01234567".toList, false, none⟩

/-- Hexadecimal digits. -/
def base16 : BitBase := ⟨4, "0123456789abcdef".toList, true, none⟩

/-- Letters and the digits two to seven. -/
def base32 : BitBase := ⟨5, "abcdefghijklmnopqrstuvwxyz234567".toList, true, none⟩

/-- Digits and the letters up to v. -/
def base32Hex : BitBase := ⟨5, "0123456789abcdefghijklmnopqrstuv".toList, true, none⟩

/-- Letters and digits in the order that is easiest to read aloud. -/
def base32Human : BitBase := ⟨5, "ybndrfg8ejkmcpqxot1uwisza345h769".toList, false, none⟩

/-- Letters, digits, plus and slash. -/
def base64 : BitBase :=
  ⟨6, "ABCDEFGHIJKLMNOPQRSTUVWXYZabcdefghijklmnopqrstuvwxyz0123456789+/".toList, false, none⟩

/-- Letters, digits, minus and underscore. -/
def base64Url : BitBase :=
  ⟨6, "ABCDEFGHIJKLMNOPQRSTUVWXYZabcdefghijklmnopqrstuvwxyz0123456789-_".toList, false, none⟩

/-- The same base with short blocks padded to `n` symbols. -/
def padded (b : BitBase) (n : Nat) : BitBase := { b with block := some n }

end BitBase

namespace Multibase

/-- Why a text is not bytes behind a base character. -/
inductive Error where
  /-- The text is empty, or not a text of its base. -/
  | invalidText
  /-- No base has this character. -/
  | unknownBase (code : Char)
deriving DecidableEq, Repr

/-- The wording of an error. -/
def Error.message : Error → String
  | .invalidText => "Invalid base string"
  | .unknownBase code => s!"Unknown base code: {code}"

/-- The reader of the base that a character names. -/
def reader? : Char → Option (List Char → Option (List UInt8))
  | '\x00' => some fun text ↦ some (Text.Utf8.encode text)
  | '0' => some BitBase.base2.decode?
  | '7' => some BitBase.base8.decode?
  | '9' => some Positional.base10.decode?
  | 'f' | 'F' => some BitBase.base16.decode?
  | 'v' | 'V' => some BitBase.base32Hex.decode?
  | 't' | 'T' => some (BitBase.base32Hex.padded 8).decode?
  | 'b' | 'B' => some BitBase.base32.decode?
  | 'c' | 'C' => some (BitBase.base32.padded 8).decode?
  | 'h' => some BitBase.base32Human.decode?
  | 'k' | 'K' => some fun text ↦ Positional.base36.decode? (text.map Char.toLower)
  | 'R' => some Base45.decode?
  | 'z' => some Positional.base58.decode?
  | 'Z' => some Positional.base58Flickr.decode?
  | 'm' => some BitBase.base64.decode?
  | 'M' => some (BitBase.base64.padded 4).decode?
  | 'u' => some BitBase.base64Url.decode?
  | 'U' => some (BitBase.base64Url.padded 4).decode?
  | '🚀' => some Pictograms.decode?
  | _ => none

/-- The bytes of a text behind its base character. -/
def decode : List Char → Except Error (List UInt8)
  | [] => .error .invalidText
  | code :: text =>
    match reader? code with
    | none => .error (.unknownBase code)
    | some read =>
      match read text with
      | none => .error .invalidText
      | some bytes => .ok bytes

/-- The url-safe base 64 text of the bytes behind its character. -/
def encodeUrl (bytes : List UInt8) : List Char := 'u' :: BitBase.base64Url.encode bytes

end Multibase

end Overlay.Bytes
