import Overlay.Contact

/-!
# Relay circuits

A peer behind a relay is reached at `<relay address>/p2p/<relay>/p2p-circuit/p2p/<target>`:
dial the relay, then ask it for a circuit to the target. The canonical form leaves the
relay's own address out, and the address book supplies it when the circuit is dialed.

`destination` is the peer to which an address with circuits leads: the last peer named
after the last circuit.
-/

namespace Overlay

/-- Why a circuit cannot be used. -/
inductive CircuitError where
  | relayHasNoAddress (relay : PeerId)
  | mismatch (expected derived : PeerId)
  | missingDestination
  | invalidTarget (target : PeerId)
deriving DecidableEq, Repr

/-- The wording of an error. -/
def CircuitError.message : CircuitError → String
  | .relayHasNoAddress relay => s!"Relay {relay.render} has no addresses"
  | .mismatch expected derived =>
    s!"Circuit address resolves to {derived.render}, expected {expected.render}"
  | .missingDestination => "Circuit address has no destination peer"
  | .invalidTarget target =>
    s!"Peer {target.render} is a bootstrap or relay peer and cannot be a circuit target"

namespace Circuit

/-- What is known of the destination within an address. -/
structure Course where
  /-- A circuit has been passed. -/
  relayed : Bool
  /-- The last peer named since the last circuit. -/
  destination : Option PeerId
deriving DecidableEq, Repr

/-- The course before the first component. -/
def Course.start : Course := ⟨false, none⟩

/-- The course after one more component. -/
def Course.pass (course : Course) : Component → Course
  | .circuit => ⟨true, none⟩
  | .peer id => if course.relayed then { course with destination := some id } else course
  | _ => course

/-- The peer to which a circuit address leads. -/
def destination (addr : Multiaddr) : Option PeerId :=
  (addr.foldl Course.pass .start).destination

/-- The components that ask a relay for a circuit to a peer. -/
def hop (target : PeerId) : Multiaddr := [.circuit, .peer target]

/-- The address of a circuit without the relay's own address. -/
def canonical (relay target : PeerId) : Multiaddr := .peer relay :: hop target

/-- A contact for the target that leads through the relay. The relay must have an address,
and its first address must not end in another peer. -/
def assemble (relay target : Contact) : Except CircuitError Contact :=
  match relay.addresses with
  | [] => .error (.relayHasNoAddress relay.id)
  | addr :: _ =>
    match addr.endsInPeer? with
    | some other =>
      if other ≠ relay.id then .error (.mismatch relay.id other) else route addr
    | none => route addr
where
  /-- Checks that the full address leads to the target, and forgets the relay's address. -/
  route (addr : Multiaddr) : Except CircuitError Contact :=
    match destination (addr.withPeer relay.id ++ hop target.id) with
    | none => .error .missingDestination
    | some derived =>
      if derived ≠ target.id then .error (.mismatch target.id derived)
      else .ok ⟨derived, [canonical relay.id derived]⟩

/-- The address to listen on in order to ask the relay for a reservation. -/
def reservation (relay : Contact) : Except CircuitError Multiaddr :=
  match relay.addresses with
  | [] => .error (.relayHasNoAddress relay.id)
  | addr :: _ => .ok (addr.withPeer relay.id ++ [.circuit])

/-- The addresses at which others reach the local peer through the relay: one for each
direct address of the relay. -/
def advertised (relay : Contact) (localId : PeerId) : List Multiaddr :=
  (relay.addresses.filter fun addr ↦ !addr.isCircuit).map fun addr ↦
    addr.withPeer relay.id ++ hop localId

/-- Refuses bootstrap and relay peers as targets of a circuit. -/
def checkTarget (target : PeerId) (bootstrap relays : List Contact) :
    Except CircuitError Unit :=
  if (bootstrap ++ relays).any (·.id == target) then .error (.invalidTarget target)
  else .ok ()

end Circuit

end Overlay
