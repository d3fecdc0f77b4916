import Overlay.Fabric.Node
import Overlay.Node.Program

/-!
# The command line program

Reads the words of the command line, the environment and the files that they name, and
carries out the command. A node is run on a fabric of its own; one that serves others stays
up until the program is interrupted.
-/

open Overlay

/-- The values of the variables that stand in for options, where they are set. -/
def readEnvironment : IO (List (String × String)) := do
  let found ← Node.Command.standIns.mapM fun (_, name) ↦ do
    return (← IO.getEnv name).map fun value ↦ (name, value)
  return found.filterMap id

/-- What reading a file gives. -/
def readBytes (path : String) : IO (Except FileError (List UInt8)) := do
  try
    return .ok (← IO.FS.readBinFile path).toList
  catch
    | .noFileOrDirectory .. => return .error .notFound
    | .inappropriateType _ 20 _ => return .error .notDirectory
    | .inappropriateType .. => return .error .isDirectory
    | .invalidArgument _ 36 _ => return .error .nameTooLong
    | e => return .error (.other ⟨.other, toString e⟩)

/-- The files with the given paths. -/
def readFiles (paths : List String) : IO Files := do
  let contents ← paths.mapM fun path ↦ do return (path, ← readBytes path)
  return ⟨fun path ↦ (contents.lookup path).getD (.error .notFound)⟩

/-- Fresh keys. -/
def freshKeys (count : Nat) : IO (List Keyring.Keypair) := do
  let keys ← (List.range count).mapM fun _ ↦ do
    return Keyring.Keypair.ofSeed? (← IO.getRandomBytes 32).toList
  return keys.filterMap id

/-- Waits until the program is interrupted. -/
partial def waitForever : IO Unit := do
  IO.sleep 1000
  waitForever

/-- Runs a node until it stops. -/
def runNode (files : Files) (config : Node.Config) : IO Node.Finish := do
  match ((Fabric.empty .intact).runNode "node" files config none).ending with
  | some (_, result) => return .ofNode result
  | none => do
    waitForever
    return .ofNode (.ok ())

/-- Carries out a command line. -/
def carryOut (args : List String) : IO Node.Finish := do
  let settings ← readEnvironment
  match Node.Command.parse (fun name ↦ settings.lookup name) args with
  | .error e => return .ofUsage e
  | .ok (.keygen count) => return .ofKeys (← freshKeys count)
  | .ok (.run role arguments) =>
    let files ← readFiles ([arguments.keyring, arguments.bootstrapFile].filterMap id)
    match Node.Config.ofArguments files role arguments with
    | .error e => return .ofConfig e
    | .ok config => runNode files config

/-- The program. -/
def main (args : List String) : IO UInt32 := do
  let finish ← carryOut args
  IO.print finish.output
  IO.eprint finish.complaint
  return finish.status.toUInt32
