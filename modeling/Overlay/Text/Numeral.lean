/-!
# Decimal numerals with an upper bound

A numeral is one or more ASCII digits after an optional plus sign; leading zeros are fine.
It is read from left to right, and the first character that is no digit or takes the
value to the bound decides what is wrong with the text.
-/

namespace Overlay.Text

/-- What is wrong with a text that should be a numeral. -/
inductive NumeralError where
  /-- There is no character at all. -/
  | empty
  /-- A character, or a lone sign, is no digit. -/
  | invalidDigit
  /-- The value does not fit. -/
  | tooLarge
deriving DecidableEq, Repr

/-- The wording of a numeral error. -/
def NumeralError.message : NumeralError → String
  | .empty => "cannot parse integer from empty string"
  | .invalidDigit => "invalid digit found in string"
  | .tooLarge => "number too large to fit in target type"

/-- The value of an ASCII decimal digit. -/
def digit? (c : Char) : Option Nat :=
  if '0' ≤ c ∧ c ≤ '9' then some (c.toNat - '0'.toNat) else none

/-- Reads further digits after a value, which stays below the bound. -/
def readDigits (bound : Nat) : Nat → List Char → Except NumeralError Nat
  | value, [] => .ok value
  | value, c :: rest =>
    match digit? c with
    | none => .error .invalidDigit
    | some d =>
      if value * 10 + d < bound then readDigits bound (value * 10 + d) rest
      else .error .tooLarge

/-- Reads a numeral whose value is below the bound. -/
def readBelow (bound : Nat) : List Char → Except NumeralError Nat
  | [] => .error .empty
  | ['+'] => .error .invalidDigit
  | '+' :: rest => readDigits bound 0 rest
  | text => readDigits bound 0 text

/-- The decimal digits of a number, as text. -/
def decimal (n : Nat) : String := String.ofList (Nat.toDigits 10 n)

end Overlay.Text
