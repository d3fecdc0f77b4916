import Overlay.Keyring
import Overlay.Node.Config
import Overlay.Node.Mission

/-!
# How the program ends

What is printed, and with which status the program exits. A command line that is refused
exits with its own status, so that it can be told from a command that failed.
-/

namespace Overlay.Node

open CommandLine

/-- The end of the program: its status, what it prints, and what it complains of. -/
structure Finish where
  status : UInt8
  output : String
  complaint : String
deriving DecidableEq, Repr

namespace Finish

/-- The status of a command that was carried out. -/
def success : UInt8 := 0

/-- The status of a command that failed. -/
def failure : UInt8 := 1

/-- The status of a command line that was refused. -/
def refusal : UInt8 := 2

/-- The name of the program and its version. -/
def versionText : String := "tether-node 0.1.0\n"

/-- The options of `run` with their variables, one on each line. -/
def optionLines : List String :=
  RunOption.all.map fun o ↦
    match o.standIn? with
    | some name => s!"  --{o.name} <{o.name}> [env: {name}]"
    | none => s!"  --{o.name}"

/-- The text that is shown as help. -/
def helpText : String :=
  "\n".intercalate (["Usage: tether-node <COMMAND>", "", "Commands:",
    "  run     Run a node in the given role", "  keygen  Print fresh keyring entries",
    "  help    Show this text", "", "Options of run:"] ++ optionLines ++
    ["", "Options of keygen:", "  -n, --count <count> [default: 1]"]) ++ "\n"

/-- What is wrong with a command line. -/
def complaintOf : UsageError → String
  | .help | .version => ""
  | .nothing => helpText
  | .unknownCommand => "unknown command\n"
  | .unknownArgument => "unknown argument\n"
  | .missingOption => "the option --role is required\n"
  | .missingValue => "an option lacks its value\n"
  | .invalidValue => "the value of an option is invalid\n"
  | .repeatedOption => "an option is given twice\n"
  | .unexpectedValue => "an option has a value and takes none\n"

/-- The end of a program whose command line is not carried out. -/
def ofUsage : UsageError → Finish
  | .help => ⟨success, helpText, ""⟩
  | .version => ⟨success, versionText, ""⟩
  | e => ⟨refusal, "", complaintOf e⟩

/-- The end of a program whose arguments make no configuration. -/
def ofConfig (e : ConfigError) : Finish := ⟨failure, "", e.message ++ "\n"⟩

/-- The end of a program that prints fresh keys. -/
def ofKeys (keys : List Keyring.Keypair) : Finish :=
  ⟨success, Keyring.renderFile keys ++ "\n", ""⟩

/-- The end of a program that ran a node. -/
def ofNode : Except NodeError Unit → Finish
  | .ok () => ⟨success, "", ""⟩
  | .error e => ⟨failure, "", e.message ++ "\n"⟩

end Finish

end Overlay.Node
