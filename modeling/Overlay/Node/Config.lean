import Overlay.Contact.Batch
import Overlay.Files
import Overlay.Node.Arguments
import Overlay.Role.Profile

/-!
# The configuration of a node

Arguments are checked before anything touches the network. The bootstrap contacts come from
the inline list and from the bootstrap file, in this order. Entries that name no contact are
passed over, unless the role cannot do without bootstrap peers and no entry at all is left.
-/

namespace Overlay.Node

/-- What a node needs to know to run. -/
structure Config where
  role : Role
  port : Option UInt16
  keyIndex : Nat
  keyring : Option String
  bootstrap : List Contact
  relay : Option Contact
  target : Option Contact
  scope : ListenScope
deriving DecidableEq, Repr

/-- Why arguments make no configuration. -/
inductive ConfigError where
  | bootstrapFile (path : String) (error : FileError)
  /-- Bootstrap peers are required, and none of the `count` entries names one. -/
  | noValidBootstrap (count : Nat)
  | relay (error : AddressError)
  | target (error : AddressError)
deriving DecidableEq, Repr

/-- The wording of an error. -/
def ConfigError.message : ConfigError → String
  | .bootstrapFile path error => s!"reading bootstrap file {path}: {error.message}"
  | .noValidBootstrap count => s!"none of the {count} bootstrap addresses is valid"
  | .relay error => "invalid relay address: " ++ error.message
  | .target error => "invalid target address: " ++ error.message

namespace Config

/-- The entries of the inline list that are not empty. -/
def inlineEntries (list : Option String) : List String :=
  match list with
  | none => []
  | some text => (Contact.listEntries text).filter (· ≠ "")

/-- The batch of the bootstrap file, which is empty if there is none. -/
def fileBatch (files : Files) (path : Option String) : Except ConfigError Contact.Batch :=
  match path with
  | none => .ok .empty
  | some path =>
    match files.text path with
    | .error e => .error (.bootstrapFile path e)
    | .ok content => .ok (Contact.ofFile content)

/-- Reads a contact that may be absent. -/
def contact? (wrap : AddressError → ConfigError) (text : Option String) :
    Except ConfigError (Option Contact) :=
  match text with
  | none => .ok none
  | some text =>
    match Contact.parse text with
    | .error e => .error (wrap e)
    | .ok c => .ok (some c)

/-- Checks the arguments of a role. -/
def ofArguments (files : Files) (role : Role) (a : RunArguments) : Except ConfigError Config := do
  let entries := inlineEntries a.bootstrap
  let listed := Contact.Batch.ofEntries entries
  let filed ← fileBatch files a.bootstrapFile
  let contacts := listed.contacts ++ filed.contacts
  let count := entries.length + filed.contacts.length + filed.errors.length
  if role.profile.requiresBootstrap && count != 0 && contacts.isEmpty then
    throw (.noValidBootstrap count)
  let relay ← contact? .relay a.relay
  let target ← contact? .target a.target
  return {
    role
    port := a.port
    keyIndex := a.keyIndex.getD role.defaultKeyIndex
    keyring := a.keyring
    bootstrap := contacts
    relay
    target
    scope := if a.loopback then .loopback else .everywhere }

end Config

end Overlay.Node
