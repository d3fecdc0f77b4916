import Overlay.Multiaddr.Parser
import Overlay.Text.Blank

/-!
# Contacts

A contact is a peer and the addresses at which it may be reached. As text it is
`<transport>/p2p/<peer-id>`: the last component names the peer, and what stands before it,
if anything, is the only address.
-/

namespace Overlay

/-- A peer and the addresses at which it may be reached, which may be none. -/
structure Contact where
  id : PeerId
  addresses : List Multiaddr
deriving DecidableEq, Repr

/-- Why a text names no contact. -/
inductive AddressError where
  | malformed (input reason : String)
  | missingPeerId (input : String)
deriving DecidableEq, Repr

/-- The wording of an error. -/
def AddressError.message : AddressError → String
  | .malformed input reason => s!"Malformed address '{input}': {reason}"
  | .missingPeerId input => s!"Address '{input}' has no /p2p/<peer-id> component"

namespace Contact

/-- A contact without a known address. -/
def bare (id : PeerId) : Contact := ⟨id, []⟩

/-- The contact that an address names with its last component. -/
def ofMultiaddr? (addr : Multiaddr) : Option Contact :=
  match addr.endsInPeer? with
  | none => none
  | some id => some ⟨id, if addr.dropLast = [] then [] else [addr.dropLast]⟩

/-- Reads a contact; white space around it does not count. -/
def parse (text : String) : Except AddressError Contact :=
  let input := Text.trim text
  if input = "" then .error (.malformed text "empty address")
  else match Multiaddr.parse input with
    | .error e => .error (.malformed input e.message)
    | .ok addr =>
      match ofMultiaddr? addr with
      | none => .error (.missingPeerId input)
      | some contact => .ok contact

/-- Every address, ending with the peer's id. -/
def peerAddresses (c : Contact) : List Multiaddr := c.addresses.map (·.withPeer c.id)

/-- The text of a contact: its first address, or the bare id. -/
def render (c : Contact) : String :=
  match c.addresses with
  | [] => c.id.render
  | addr :: _ => (addr.withPeer c.id).render

end Contact

end Overlay
