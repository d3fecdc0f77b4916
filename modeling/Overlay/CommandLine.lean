/-!
# Command lines with options

A command line is a list of words. A word that begins with two dashes is an option with a
long name, one that begins with a single dash an option with a short name, and either may
carry its value in the same word. Otherwise the value of an option is the next word without
a dash in front.

A value in a word of its own is looked at late: when the next known option begins, or at the
end of the line. Until then an unknown option or a word out of place wins over it. So an
option is kept as `Pending` until it is settled.

Asking for help ends the reading wherever it stands, once the pending option is settled.
-/

namespace Overlay.CommandLine

/-- Why a command line is not carried out. The first three are answered by showing a text. -/
inductive UsageError where
  | help
  | version
  /-- There is nothing on the line. -/
  | nothing
  | unknownCommand
  /-- An unknown option, or a word out of place. -/
  | unknownArgument
  /-- An option that is required is given neither on the line nor by the environment. -/
  | missingOption
  /-- An option without its value, or with an empty value where none is allowed. -/
  | missingValue
  | invalidValue
  | repeatedOption
  /-- A value for an option that takes none. -/
  | unexpectedValue
deriving DecidableEq, Repr

/-- What a word looks like. -/
inductive Word where
  /-- Two dashes: no options follow. -/
  | terminator
  | long (name : List Char) (value : Option String)
  /-- A short name and what follows it in the word. -/
  | short (name : Char) (more : List Char)
  | plain (text : String)
deriving DecidableEq, Repr

/-- The text behind an equals sign. -/
def attached? : List Char → Option String
  | '=' :: value => some (String.ofList value)
  | _ => none

/-- What a word looks like. A single dash is a plain word. -/
def Word.ofString (text : String) : Word :=
  match text.toList with
  | ['-', '-'] => .terminator
  | '-' :: '-' :: body =>
    .long (body.takeWhile (· != '=')) (attached? (body.dropWhile (· != '=')))
  | '-' :: name :: more => .short name more
  | _ => .plain text

/-- The value that follows a short name in the same word. -/
def shortValue? : List Char → Option String
  | [] => none
  | '=' :: value => some (String.ofList value)
  | value => some (String.ofList value)

/-- What options there are, and how they are recorded. -/
structure Grammar (κ ρ : Type) where
  long? : List Char → Option κ
  short? : Char → Option κ
  /-- Whether an option has a value. -/
  takesValue : κ → Bool
  /-- Whether an option has been recorded. -/
  isGiven : κ → ρ → Bool
  /-- Records an option with its value, which is empty if it takes none. -/
  store : κ → String → ρ → Except UsageError ρ

/-- An option that is not settled yet. -/
structure Pending (κ : Type) where
  option : κ
  value : Option String

namespace Grammar

variable {κ ρ : Type}

/-- Records an option with its value. -/
def record (g : Grammar κ ρ) (option : κ) (value : String) (r : ρ) : Except UsageError ρ :=
  if g.isGiven option r then .error .repeatedOption else g.store option value r

/-- Settles the pending option. -/
def settle (g : Grammar κ ρ) : Option (Pending κ) → ρ → Except UsageError ρ
  | none, r => .ok r
  | some ⟨_, none⟩, _ => .error .missingValue
  | some ⟨option, some value⟩, r => g.record option value r

/-- Begins an option; one that takes a value and has none in its word stays pending. -/
def beginOption (g : Grammar κ ρ) (option : κ) (value : Option String)
    (pending : Option (Pending κ)) (r : ρ) : Except UsageError (Option (Pending κ) × ρ) :=
  match g.takesValue option, value with
  | false, some _ => .error .unexpectedValue
  | false, none => do
    let r ← g.settle pending r
    return (none, ← g.record option "" r)
  | true, some value => do
    let r ← g.settle pending r
    return (none, ← g.record option value r)
  | true, none => do
    let r ← g.settle pending r
    return (some ⟨option, none⟩, r)

/-- Answers a call for help. -/
def showHelp (g : Grammar κ ρ) (pending : Option (Pending κ)) (r : ρ) :
    Except UsageError (Option (Pending κ) × ρ) := do
  let _ ← g.settle pending r
  throw .help

/-- Reads one word. -/
def readWord (g : Grammar κ ρ) (word : Word) (pending : Option (Pending κ)) (r : ρ) :
    Except UsageError (Option (Pending κ) × ρ) :=
  match word with
  | .terminator => .error .unknownArgument
  | .plain text =>
    match pending with
    | some ⟨option, none⟩ => .ok (some ⟨option, some text⟩, r)
    | _ => .error .unknownArgument
  | .long name value =>
    if name = "help".toList then
      match value with
      | some _ => .error .unexpectedValue
      | none => g.showHelp pending r
    else match g.long? name with
      | none => .error .unknownArgument
      | some option => g.beginOption option value pending r
  | .short name more =>
    if name = 'h' then g.showHelp pending r
    else match g.short? name with
      | none => .error .unknownArgument
      | some option => g.beginOption option (shortValue? more) pending r

/-- Reads words behind a pending option. Two dashes may only stand at the end, since no
command takes words other than options. -/
def readWords (g : Grammar κ ρ) :
    List String → Option (Pending κ) → ρ → Except UsageError ρ
  | [], pending, r => g.settle pending r
  | text :: rest, pending, r =>
    if Word.ofString text = .terminator ∧ rest = [] then g.settle pending r
    else match g.readWord (Word.ofString text) pending r with
      | .error e => .error e
      | .ok (pending, r) => g.readWords rest pending r

/-- Reads a list of words into a record. -/
def read (g : Grammar κ ρ) (words : List String) (r : ρ) : Except UsageError ρ :=
  g.readWords words none r

/-- Takes options that were not given from the environment: `names` gives the variable of
each option, in the order in which they are looked at. -/
def readEnvironment (g : Grammar κ ρ) (lookup : String → Option String) :
    (names : List (κ × String)) → ρ → Except UsageError ρ
  | [], r => .ok r
  | (option, name) :: rest, r =>
    if g.isGiven option r then g.readEnvironment lookup rest r
    else match lookup name with
      | none => g.readEnvironment lookup rest r
      | some value =>
        match g.store option value r with
        | .error e => .error e
        | .ok r => g.readEnvironment lookup rest r

end Grammar

end Overlay.CommandLine
