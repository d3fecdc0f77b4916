import Overlay.Fabric.Basic
import Overlay.Handshake.Wire
import Overlay.Settings

/-!
# Calls on a fabric

Where an address leads, and what comes of the calls of a host. Of several addresses the
first that leads to the peer counts; a dial fails when each of them is refused, and hangs
if one of them is a plain socket and none leads to the peer.

A circuit leads to a peer if the relay can be reached and has granted the peer a circuit.
Only relays grant circuits.
-/

namespace Overlay.Fabric

/-- Where an address leads. -/
inductive Lead where
  | refused
  | hanging
  /-- To a host, perhaps through a relay. -/
  | reached (name : String) (addr : Multiaddr) (relay : Option String)
deriving DecidableEq, Repr

/-- Where a direct address leads when a peer is looked for. -/
def leadDirect (f : Fabric) (peer : PeerId) (addr : Multiaddr) : Lead :=
  match Endpoint.ofMultiaddr? (addr.withoutPeer peer) with
  | none => .refused
  | some endpoint =>
    match Keyed.find? endpoint f.bound with
    | none => .refused
    | some none => .hanging
    | some (some name) =>
      match f.member? name with
      | none => .refused
      | some m => if m.session.running ∧ m.id = peer then .reached name addr none else .refused

/-- The address of the relay, the relay, and the components behind the first circuit. -/
def splitCircuit? (addr : Multiaddr) : Option (Multiaddr × PeerId × Multiaddr) :=
  match addr.dropWhile (· != .circuit) with
  | [] => none
  | _ :: behind =>
    let before : Multiaddr := addr.takeWhile (· != .circuit)
    before.endsInPeer?.map fun relay ↦ (before, relay, behind)

/-- Where an address leads when a peer is looked for. -/
def lead (f : Fabric) (peer : PeerId) (addr : Multiaddr) : Lead :=
  if f.links = .severed then .refused
  else if addr.isCircuit then
    match splitCircuit? addr with
    | none => .refused
    | some (before, relay, behind) =>
      match f.leadDirect relay before, f.memberOf? peer with
      | .reached relayName _ _, some (name, _) =>
        if behind = [.peer peer] ∧ (relay, peer) ∈ f.granted then
          .reached name addr (some relayName)
        else .refused
      | .hanging, _ => .hanging
      | _, _ => .refused
  else f.leadDirect peer addr

/-- Where the best of several addresses leads. -/
def bestLead (f : Fabric) (peer : PeerId) : List Multiaddr → Lead
  | [] => .refused
  | addr :: rest =>
    match f.lead peer addr, f.bestLead peer rest with
    | .reached name addr relay, _ => .reached name addr relay
    | .hanging, .refused => .hanging
    | _, other => other

/-- The listen addresses of a host. -/
def listenAddresses (m : Member) : List Multiaddr :=
  m.session.board.listeners.flatMap (·.addresses)

/-- What is reported when one host has connected to another: the connection on both sides,
and then the listen addresses of each to the other. -/
def connection (connection : Nat) (dialer : String × Member) (other : String × Member)
    (addr : Multiaddr) : List (String × Host.Event) :=
  [(dialer.1, .established connection other.2.id addr true),
    (other.1, .established connection dialer.2.id [] false),
    (dialer.1, .identified other.2.id (listenAddresses other.2)),
    (other.1, .identified dialer.2.id (listenAddresses dialer.2))]

/-- What is reported after a dial. Dialing a circuit connects to the relay as well. -/
def dialReports (f : Fabric) (number : Nat) (dialer : String × Member) (peer : PeerId)
    (addrs : List Multiaddr) : List (String × Host.Event) :=
  let failed := [(dialer.1, Host.Event.dialFailed number (.other "no address leads to the peer"))]
  if peer = dialer.2.id then failed
  else match f.bestLead peer addrs with
    | .refused => failed
    | .hanging => []
    | .reached name addr relay =>
      let relayed := match relay.bind fun r ↦ (f.member? r).map fun m ↦ (r, m) with
        | none => []
        | some other => connection (number + 1) dialer other []
      match f.member? name with
      | none => failed
      | some m => relayed ++ connection number dialer (name, m) addr

/-- Why a circuit address cannot be listened on: it must consist of an address and a relay,
followed by one circuit. -/
def circuitFault? (addr : Multiaddr) : Option String :=
  let before := addr.takeWhile (· != .circuit)
  let isPeer : Component → Bool := fun
    | .peer _ => true
    | _ => false
  if addr.countP (· == .circuit) ≠ 1 then some "multiple circuits are not supported"
  else if before.countP isPeer ≠ 1 then some "malformed circuit address"
  else if before.all isPeer then some "the relay's address is missing"
  else none

/-- What is reported after a host has asked a relay for a reservation, and the circuits
granted then. -/
def reserveReports (f : Fabric) (number : Nat) (client : String × Member) (addr : Multiaddr) :
    List (String × Host.Event) × List (PeerId × PeerId) :=
  let refused := ([(client.1, Host.Event.listenerClosed number (some "reservation failed"))], [])
  match splitCircuit? addr with
  | none => refused
  | some (before, relay, _) =>
    match f.bestLead relay [before] with
    | .hanging => ([], [])
    | .reached name _ _ =>
      match f.member? name with
      | none => refused
      | some m =>
        let connected := if relay ∈ client.2.session.board.connected then []
          else connection (number + 1) client (name, m) before
        if m.role.profile.relayService then
          (connected ++ [(client.1, .reservationAccepted relay)], [(relay, client.2.id)])
        else (connected ++ refused.1, [])
    | .refused => refused

/-- The fabric's answer to a call that gets the given number, unless it only counts. -/
def answer (number : Nat) (m : Member) : Option Host.Call → Host.Answer
  | some (.listen addr) =>
    match circuitFault? addr with
    | some reason => .error (.other reason)
    | none => .ok number
  | some .bootstrap => if m.table = [] then .error (.other "no known peers") else .ok number
  | some .countPeers => .ok m.table.length
  | _ => .ok number

/-- What a host's turn leads to: replies, and reports that are still to come. -/
structure Aftermath where
  replies : Host.Replies
  reports : List (String × Host.Event)

/-- Queues a command of a host under a number and gives it its turn. -/
def takeTurn (f : Fabric) (name : String) (number : Nat) (command : Host.Command) :
    Aftermath × Fabric :=
  match f.member? name with
  | none => (⟨[(number, command.closedReply)], []⟩, f)
  | some m =>
    let (session, early) := m.session.submit number command
    let call := session.call?
    let answer := answer number { m with session } call
    let (session, replies) := session.turn answer
    let f := f.setSession name session
    let (reports, granted) := match call, answer with
      | some (.dial peer addrs), .ok _ =>
        (f.dialReports number (name, { m with session }) peer addrs, [])
      | some (.listen addr), .ok _ => f.reserveReports number (name, { m with session }) addr
      | some .bootstrap, .ok _ => ([(name, .bootstrapProgressed number (.ok ()) true)], [])
      | _, _ => ([], [])
    (⟨early ++ replies, reports⟩, { f with granted := f.granted ++ granted })

/-- Gives several commands of a host their turns, one after another. A call uses up to two
numbers. -/
def takeTurns (f : Fabric) (name : String) (number : Nat) :
    List Host.Command → Aftermath × Fabric
  | [] => (⟨[], []⟩, f)
  | command :: rest =>
    let (first, f) := f.takeTurn name number command
    let (more, f) := f.takeTurns name (number + 2) rest
    (⟨first.replies ++ more.replies, first.reports ++ more.reports⟩, f)

/-- Asks a host for several things at once: the reply to each, unless it never comes. -/
def askAll (f : Fabric) (name : String) (commands : List Host.Command) :
    List (Delayed Host.Reply) × Fabric :=
  let number := f.nextNumber
  let (after, f) := f.takeTurns name number commands
  let (f, late) := f.deliverAll after.reports
  let replies := (List.range commands.length).map fun k ↦
    match Keyed.find? (number + 2 * k) (after.replies ++ late) with
    | some reply => .after 0 reply
    | none => .never
  (replies, { f with nextNumber := number + 2 * commands.length })

/-- Asks a host for something: its reply, unless it never comes. -/
def ask (f : Fabric) (name : String) (command : Host.Command) : Delayed Host.Reply × Fabric :=
  let (replies, f) := f.askAll name [command]
  (replies.headD .never, f)

/-- Shuts a host down: its ports are free again, its circuits are gone, and its connections
are closed. -/
def stop (f : Fabric) (name : String) : Fabric :=
  match f.member? name with
  | none => f
  | some m =>
    let (_, f) := f.ask name .shutdown
    let f := { f with
      bound := f.bound.filter fun b ↦ b.2 ≠ some name
      granted := f.granted.filter fun g ↦ g.1 ≠ m.id ∧ g.2 ≠ m.id }
    (f.deliverAll (f.members.map fun other ↦ (other.1, .disconnected m.id 0))).1

/-- Registers the responder for handshakes on a host. -/
def accept (f : Fabric) (name : String) : Except StreamError Unit × Fabric :=
  match f.member? name with
  | none => (.error (.io (.ofKind .other)), f)
  | some m =>
    if m.serving then (.error (.alreadyRegistered Settings.handshakeProtocol), f)
    else (.ok (), { f with members := Keyed.put name { m with serving := true } f.members })

/-- Opens a handshake stream to a connected peer. -/
def openStream (f : Fabric) (name : String) (peer : PeerId) : Except StreamError Handshake.Wire :=
  match f.member? name, f.memberOf? peer with
  | some m, some (_, other) =>
    if m.session.running ∧ peer ∈ m.session.board.connected then
      if other.serving then .ok (.ofReads [.data Settings.handshakeReply])
      else .error (.unsupportedProtocol Settings.handshakeProtocol)
    else .error (.io (.ofKind .notConnected))
  | _, _ => .error (.io (.ofKind .notConnected))

end Overlay.Fabric
