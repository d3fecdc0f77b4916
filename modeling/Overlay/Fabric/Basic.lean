import Overlay.Host.BringUp
import Overlay.Host.Session

/-!
# A fabric of hosts

A fabric is a network in memory: hosts on one machine, the ports they have bound, and the
circuits that relays have granted. Nothing on a fabric takes time: a call either comes to
its end at once or hangs forever.

A fabric can be severed. Then hosts come up and hold their ports as ever, but no connection
between them comes about.
-/

namespace Overlay

/-- Whether connections on a fabric come about. -/
inductive Links where
  | intact
  | severed
deriving DecidableEq, Repr

namespace Fabric

/-- A place on the machine where a listener can be bound. -/
structure Endpoint where
  family : Family
  transport : Transport
  port : UInt16
deriving DecidableEq, Repr

/-- The endpoint to which a direct address without a peer's id leads. -/
def Endpoint.ofMultiaddr? : Multiaddr → Option Endpoint
  | [host, .port .tcp port] => (family? host).map fun family ↦ ⟨family, .tcp, port⟩
  | [host, .port .udp port, .marker .quicV1] =>
    (family? host).map fun family ↦ ⟨family, .quic, port⟩
  | _ => none
where
  /-- The family of the machine's own address. -/
  family? : Component → Option Family
    | .ip4 ip => if ip = .loopback then some .v4 else none
    | .ip6 ip => if ip = .loopback then some .v6 else none
    | _ => none

/-- A host on a fabric. -/
structure Member where
  role : Role
  session : Host.Session
  /-- A responder for handshakes is registered. -/
  serving : Bool
  /-- The peers in the routing table of the host. -/
  table : List PeerId

/-- The peer id of a host. -/
def Member.id (m : Member) : PeerId := m.session.board.localId

end Fabric

/-- Hosts on one machine. -/
structure Fabric where
  links : Links
  members : List (String × Fabric.Member)
  /-- The endpoints in use and the hosts that use them, or none for a plain socket, which
  takes connections and never answers. -/
  bound : List (Fabric.Endpoint × Option String)
  /-- The relays and the peers to which they have granted circuits. -/
  granted : List (PeerId × PeerId)
  /-- Ports and numbers handed out so far. -/
  nextPort : Nat
  nextNumber : Nat

namespace Fabric

/-- A fabric without hosts. The ports it hands out begin at 40000. -/
def empty (links : Links) : Fabric := ⟨links, [], [], [], 40000, 0⟩

/-- A port that nobody uses. -/
def freePort (f : Fabric) : UInt16 × Fabric :=
  (UInt16.ofNat f.nextPort, { f with nextPort := f.nextPort + 1 })

/-- Takes a port with a plain socket. -/
def holdPort (f : Fabric) : UInt16 × Fabric :=
  let (port, f) := f.freePort
  (port, { f with bound := f.bound ++ [(⟨.v4, .tcp, port⟩, none)] })

/-- The host with a name. -/
def member? (f : Fabric) (name : String) : Option Member := Keyed.find? name f.members

/-- The name and the host with a peer id, as long as it runs. -/
def memberOf? (f : Fabric) (id : PeerId) : Option (String × Member) :=
  f.members.find? fun m ↦ m.2.id = id ∧ m.2.session.running

/-- Replaces the session of a host. -/
def setSession (f : Fabric) (name : String) (session : Host.Session) : Fabric :=
  match f.member? name with
  | none => f
  | some m => { f with members := Keyed.put name { m with session } f.members }

/-- What bring-up meets with: a port in use cannot be claimed, and listeners get consecutive
numbers. -/
def ground (f : Fabric) : Host.Ground where
  claim addr :=
    match Host.fixedSocket? addr with
    | none => .ok ()
    | some (host, port) =>
      let family : Family := match host with
        | .ip6 _ => .v6
        | _ => .v4
      if f.bound.any fun b ↦ b.1 == ⟨family, .tcp, port⟩ then
        .error "Address already in use (os error 98)"
      else .ok ()
  listen n _ := .ok (f.nextNumber + n)

/-- The address that the `n`-th listener of a role reports. -/
def reported (f : Fabric) (port : UInt16) (n : Nat) (spec : ListenSpec) : Multiaddr :=
  let assigned := if spec.requestedPort port = 0 then UInt16.ofNat (f.nextPort + n)
    else spec.requestedPort port
  ({ spec with port := .fixed }).address assigned .loopback

/-- Brings up a host under a name. -/
def raise (f : Fabric) (name : String) (role : Role) (id : PeerId) (port : UInt16)
    (scope : ListenScope) : Except BringUpError Fabric :=
  let specs := role.profile.listen
  let reports := specs.zipIdx.map fun (spec, n) ↦
    Host.Event.listening (f.nextNumber + n) (f.reported port n spec)
  match Host.bringUp role id port scope f.ground reports with
  | .error e => .error e
  | .ok (board, _) =>
    let addresses := board.listeners.flatMap (·.addresses)
    .ok { f with
      members := Keyed.put name ⟨role, .start board, false, []⟩ f.members
      bound := f.bound ++ (addresses.filterMap Endpoint.ofMultiaddr?).map fun e ↦ (e, some name)
      nextPort := f.nextPort + specs.length
      nextNumber := f.nextNumber + specs.length }

/-- Hands a report of the network to a host. The peers that it makes known are entered into the
host's routing table. -/
def deliver (f : Fabric) (name : String) (event : Host.Event) : Fabric × Host.Replies :=
  match f.member? name with
  | none => (f, [])
  | some m =>
    let (session, replies) := m.session.report event
    let table := (event.introductions.map Prod.fst).foldl Host.Switchboard.enroll m.table
    ({ f with members := Keyed.put name { m with session, table } f.members }, replies)

/-- Hands reports of the network to hosts, one after another. -/
def deliverAll (f : Fabric) : List (String × Host.Event) → Fabric × Host.Replies
  | [] => (f, [])
  | (name, event) :: rest =>
    let (f, first) := f.deliver name event
    let (f, more) := f.deliverAll rest
    (f, first ++ more)

end Fabric

end Overlay
