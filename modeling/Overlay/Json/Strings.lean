import Overlay.Json.Token

/-!
# JSON texts of strings

Three shapes of JSON text occur: an array of strings, a single string, and a name, which
is a string or an object whose only key is the name and whose value is `null`.
-/

namespace Overlay.Json

/-- Reads the items of an array behind an item or the opening bracket. -/
def items? : (first : Bool) → List Token → Option (List (List Char))
  | _, [.closeArray] => some []
  | true, .text value :: rest => (items? false rest).map (value :: ·)
  | false, .comma :: .text value :: rest => (items? false rest).map (value :: ·)
  | _, _ => none

/-- Reads an array of strings. -/
def stringArray? (text : List Char) : Option (List (List Char)) :=
  match tokens? text with
  | some (.openArray :: rest) => items? true rest
  | _ => none

/-- Reads a name. -/
def name? (text : List Char) : Option (List Char) :=
  match tokens? text with
  | some [.text name] => some name
  | some [.openObject, .text name, .colon, .null, .closeObject] => some name
  | _ => none

/-- Reads the name of one of the given values. -/
def oneOf? {α : Type} (values : List α) (nameOf : α → String) (text : String) : Option α :=
  (name? text.toList).bind fun name ↦ values.find? fun a ↦ nameOf a == String.ofList name

/-- The escape of a character within a string literal. -/
def escape (c : Char) : List Char :=
  match c with
  | '"' => ['\\', '"']
  | '\\' => ['\\', '\\']
  | '\x08' => ['\\', 'b']
  | '\x0c' => ['\\', 'f']
  | '\n' => ['\\', 'n']
  | '\r' => ['\\', 'r']
  | '\t' => ['\\', 't']
  | c =>
    if c.toNat < 0x20 then '\\' :: 'u' :: '0' :: '0' :: Bytes.Hex.pair (UInt8.ofNat c.toNat)
    else [c]

/-- The string literal of a text. -/
def quote (s : String) : String := String.ofList ('"' :: s.toList.flatMap escape ++ ['"'])

/-- The array of strings with one item on each line, indented by two spaces. -/
def prettyArray (items : List String) : String :=
  if items.isEmpty then "[]"
  else "[\n" ++ ",\n".intercalate (items.map fun s ↦ "  " ++ quote s) ++ "\n]"

end Overlay.Json
