import Overlay.CommandLine
import Overlay.Role
import Overlay.Text.Numeral

/-!
# The command line of a node

There are two commands: `run` runs a node in a role, and `keygen` prints fresh key ring
entries. Every option of `run` that takes a value can be given by an environment variable
instead; the variable is looked at, and its value checked, only when the option is absent.
-/

namespace Overlay.Node

open CommandLine

/-- The options of `run`. -/
inductive RunOption where
  | role
  | port
  | keyIndex
  | keyring
  | bootstrap
  | bootstrapFile
  | relay
  | target
  | loopback
deriving DecidableEq, Repr

namespace RunOption

/-- Every option. -/
def all : List RunOption :=
  [.role, .port, .keyIndex, .keyring, .bootstrap, .bootstrapFile, .relay, .target, .loopback]

/-- The name of an option. -/
def name : RunOption → String
  | .role => "role"
  | .port => "port"
  | .keyIndex => "key-index"
  | .keyring => "keyring"
  | .bootstrap => "bootstrap"
  | .bootstrapFile => "bootstrap-file"
  | .relay => "relay"
  | .target => "target"
  | .loopback => "loopback"

/-- The environment variable that stands in for an option. -/
def standIn? : RunOption → Option String
  | .role => some "TETHER_ROLE"
  | .port => some "TETHER_PORT"
  | .keyIndex => some "TETHER_KEY_INDEX"
  | .keyring => some "TETHER_KEYRING"
  | .bootstrap => some "TETHER_BOOTSTRAP"
  | .bootstrapFile => some "TETHER_BOOTSTRAP_FILE"
  | .relay => some "TETHER_RELAY"
  | .target => some "TETHER_TARGET"
  | .loopback => none

end RunOption

/-- What `run` was given. -/
structure RunArguments where
  role : Option Role
  port : Option UInt16
  keyIndex : Option Nat
  keyring : Option String
  bootstrap : Option String
  bootstrapFile : Option String
  relay : Option String
  target : Option String
  loopback : Bool
deriving DecidableEq, Repr

namespace RunArguments

/-- Nothing is given. -/
def none : RunArguments :=
  ⟨Option.none, Option.none, Option.none, Option.none, Option.none, Option.none, Option.none,
    Option.none, false⟩

/-- Whether an option is given. -/
def isGiven (option : RunOption) (a : RunArguments) : Bool :=
  match option with
  | .role => a.role.isSome
  | .port => a.port.isSome
  | .keyIndex => a.keyIndex.isSome
  | .keyring => a.keyring.isSome
  | .bootstrap => a.bootstrap.isSome
  | .bootstrapFile => a.bootstrapFile.isSome
  | .relay => a.relay.isSome
  | .target => a.target.isSome
  | .loopback => a.loopback

end RunArguments

/-- Reads a numeral below a bound as the value of an option. -/
def readNumber (bound : Nat) (text : List Char) : Except UsageError Nat :=
  (Text.readBelow bound text).mapError fun _ ↦ .invalidValue

/-- Reads a port. A minus sign is read as part of the numeral, so minus zero is zero. -/
def readPort (text : String) : Except UsageError UInt16 :=
  match text.toList with
  | '-' :: '+' :: _ => .error .invalidValue
  | '-' :: digits => (readNumber 1 digits).map UInt16.ofNat
  | digits => (readNumber UInt16.size digits).map UInt16.ofNat

/-- Reads an index or a count, which fits into a word. -/
def readIndex (text : String) : Except UsageError Nat := readNumber UInt64.size text.toList

/-- Reads a path, which must not be empty. -/
def readPath (text : String) : Except UsageError String :=
  if text = "" then .error .missingValue else .ok text

/-- Reads a role. -/
def readRole (text : String) : Except UsageError Role :=
  (Role.parse text).mapError fun _ ↦ .invalidValue

/-- Records an option of `run`. -/
def RunArguments.store (option : RunOption) (value : String) (a : RunArguments) :
    Except UsageError RunArguments :=
  match option with
  | .role => return { a with role := some (← readRole value) }
  | .port => return { a with port := some (← readPort value) }
  | .keyIndex => return { a with keyIndex := some (← readIndex value) }
  | .keyring => return { a with keyring := some (← readPath value) }
  | .bootstrap => return { a with bootstrap := some value }
  | .bootstrapFile => return { a with bootstrapFile := some (← readPath value) }
  | .relay => return { a with relay := some value }
  | .target => return { a with target := some value }
  | .loopback => return { a with loopback := true }

/-- The options of `run` and how they are recorded. -/
def runGrammar : Grammar RunOption RunArguments where
  long? name := RunOption.all.find? fun o ↦ o.name.toList == name
  short? _ := none
  takesValue option := option != .loopback
  isGiven := RunArguments.isGiven
  store := RunArguments.store

/-- The only option of `keygen` is the count, `--count` or `-n`. -/
def keygenGrammar : Grammar Unit (Option Nat) where
  long? name := if name = "count".toList then some () else none
  short? c := if c = 'n' then some () else none
  takesValue _ := true
  isGiven _ r := r.isSome
  store _ value _ := return some (← readIndex value)

/-- What a node is asked to do. -/
inductive Command where
  /-- To run in a role. -/
  | run (role : Role) (arguments : RunArguments)
  /-- To print `count` fresh key ring entries. -/
  | keygen (count : Nat)
deriving DecidableEq, Repr

namespace Command

/-- The variables of the environment that stand in for options, in the order in which they
are looked at. -/
def standIns : List (RunOption × String) :=
  RunOption.all.filterMap fun o ↦ o.standIn?.map fun name ↦ (o, name)

/-- Reads the words behind `run`. -/
def parseRun (lookup : String → Option String) (words : List String) :
    Except UsageError Command := do
  let a ← runGrammar.read words .none
  let a ← runGrammar.readEnvironment lookup standIns a
  match a.role with
  | none => throw .missingOption
  | some role => return .run role a

/-- Reads the words behind `keygen`. -/
def parseKeygen (words : List String) : Except UsageError Command := do
  return .keygen ((← keygenGrammar.read words none).getD 1)

/-- The words that are commands. -/
def names : List String := ["run", "keygen", "help"]

/-- Reads the words behind `help`, which shows the help of one command or of all. -/
def parseHelp : List String → UsageError
  | [] => .help
  | [name] => if name ∈ names then .help else .unknownCommand
  | _ => .unknownCommand

/-- Reads a command line. -/
def parse (lookup : String → Option String) : List String → Except UsageError Command
  | [] => .error .nothing
  | text :: rest =>
    match Word.ofString text with
    | .terminator =>
      match rest with
      | [] => .error .nothing
      | word :: _ => .error (if word ∈ names then .unknownArgument else .unknownCommand)
    | .plain "run" => parseRun lookup rest
    | .plain "keygen" => parseKeygen rest
    | .plain "help" => .error (parseHelp rest)
    | .plain _ => .error .unknownCommand
    | .long name value =>
      if name = "help".toList ∨ name = "version".toList then
        if value.isSome then .error .unexpectedValue
        else .error (if name = "help".toList then .help else .version)
      else .error .unknownArgument
    | .short 'h' _ => .error .help
    | .short 'V' _ => .error .version
    | .short _ _ => .error .unknownArgument

end Command

end Overlay.Node
