import Overlay.Connect
import Overlay.Host.Error

/-!
# The switchboard of a host

The switchboard carries out the commands of a host. Some are answered at once. Connecting,
reserving and routing bootstrap call the network and park the request until the network
reports what came of it: a dial under its connection, a reservation under its relay, a
routing bootstrap under its query. A report about anything else answers nothing.

A command makes at most one call (`call?`), and `handle` takes the network's answer to it.
The network hands out a fresh number for everything that it begins.

The routing table is the network's. The switchboard knows only whether its host takes part in
routing; what a report makes known of other peers (`Event.introductions`) is learned by the book
and entered into the table, and the network counts the entries when it is asked to.

The switchboard also keeps the listeners opened at bring-up and the addresses they report.
A host that is dialed directly confirms these addresses as external.
-/

namespace Overlay.Host

/-- A request, by the number under which its reply is awaited. -/
abbrev Ticket := Nat

/-- What a host can be asked to do. -/
inductive Command where
  | connect (contact : Contact)
  | reserve (relay : Contact)
  | bootstrapRouting
  | routingPeers
  | listenAddresses
  | externalAddresses
  | connectedPeers
  | shutdown
deriving DecidableEq, Repr

/-- What a request comes to. -/
inductive Reply where
  | connected (result : Dialed)
  | reserved (result : Except ReserveError Multiaddr)
  | bootstrapped (result : Except RoutingError Unit)
  | counted (result : Except RoutingError Nat)
  | addresses (addrs : List Multiaddr)
  | peers (ids : List PeerId)
  /-- The host stops. -/
  | stopping
deriving DecidableEq

/-- The reply to a command that the host no longer carries out. -/
def Command.closedReply : Command → Reply
  | .connect _ => .connected (.error .hostClosed)
  | .reserve _ => .reserved (.error .hostClosed)
  | .bootstrapRouting => .bootstrapped (.error .hostClosed)
  | .routingPeers => .counted (.error .hostClosed)
  | .listenAddresses => .addresses []
  | .externalAddresses => .addresses []
  | .connectedPeers => .peers []
  | .shutdown => .stopping

/-- Replies with the requests to which they belong. -/
abbrev Replies := List (Ticket × Reply)

/-- What a switchboard asks of the network. -/
inductive Call where
  /-- To connect to a peer at one of the addresses. -/
  | dial (peer : PeerId) (addresses : List Multiaddr)
  | listen (addr : Multiaddr)
  | bootstrap
  /-- To count the peers in the routing table. -/
  | countPeers
deriving DecidableEq, Repr

/-- Why the network does not connect, listen or route. -/
inductive Refusal where
  | noAddresses
  | other (reason : String)
deriving DecidableEq, Repr

namespace Refusal

/-- The reason in words. -/
def reason : Refusal → String
  | .noAddresses => "no addresses"
  | .other reason => reason

/-- The error of a connection that was refused. -/
def connectError : Refusal → ConnectError
  | .noAddresses => .noAddresses
  | .other reason => .unreachable reason

end Refusal

/-- The network's answer to a call: the fresh number of what it begins, or the count that was asked
for, or a refusal. -/
abbrev Answer := Except Refusal Nat

/-- What the network reports. -/
inductive Event where
  /-- A connection to a peer exists; `dialer` says that this host opened it. -/
  | established (connection : Nat) (peer : PeerId) (addr : Multiaddr) (dialer : Bool)
  | dialFailed (connection : Nat) (refusal : Refusal)
  /-- A connection is gone, and `remaining` others to the same peer are left. -/
  | disconnected (peer : PeerId) (remaining : Nat)
  /-- A peer has told its listen addresses. -/
  | identified (peer : PeerId) (addresses : List Multiaddr)
  | listening (listener : Nat) (addr : Multiaddr)
  | expired (listener : Nat) (addr : Multiaddr)
  | listenerFailed (listener : Nat) (reason : String)
  | listenerClosed (listener : Nat) (reason : Option String)
  | reservationAccepted (relay : PeerId)
  /-- A routing query has advanced; `last` says that it is complete. -/
  | bootstrapProgressed (query : Nat) (result : Except String Unit) (last : Bool)
deriving DecidableEq

/-- The addresses of peers that a report makes known, to the book and to the routing table: a direct
address that this host has dialed, and the direct ones that a peer has told. -/
def Event.introductions : Event → List (PeerId × Multiaddr)
  | .established _ peer addr dialer => if dialer && !addr.isCircuit then [(peer, addr)] else []
  | .identified peer addresses =>
    (addresses.filter fun addr ↦ !addr.isCircuit).map fun addr ↦ (peer, addr)
  | _ => []

/-- A listener opened at bring-up. -/
structure Listener where
  id : Nat
  /-- The address that was asked for. -/
  requested : Multiaddr
  primary : Bool
  /-- The addresses reported and not expired. -/
  addresses : List Multiaddr
deriving DecidableEq, Repr

/-- A reservation that a relay has not granted yet. -/
structure ParkedReservation where
  listener : Nat
  addr : Multiaddr
  ticket : Ticket
deriving DecidableEq, Repr

/-- The state of a switchboard. -/
structure Switchboard where
  localId : PeerId
  /-- The host is dialed directly, and confirms its listen addresses. -/
  dialable : Bool
  /-- The host takes part in routing. -/
  routes : Bool
  book : AddressBook
  connected : List PeerId
  externals : List Multiaddr
  listeners : List Listener
  /-- The failure of the primary listener, until bring-up takes notice. -/
  lostPrimary : Option BringUpError
  /-- Parked requests by connection. -/
  dials : List (Nat × Ticket)
  /-- Parked requests by relay. -/
  reservations : List (PeerId × ParkedReservation)
  /-- Parked requests by query. -/
  bootstraps : List (Nat × Ticket)

namespace Switchboard

/-- A switchboard before anything has happened. -/
def init (localId : PeerId) (dialable routes : Bool) : Switchboard where
  localId
  dialable
  routes
  book := .empty
  connected := []
  externals := []
  listeners := []
  lostPrimary := none
  dials := []
  reservations := []
  bootstraps := []

/-- The list with one more element, unless it is there already. -/
def enroll {α : Type} [DecidableEq α] (xs : List α) (x : α) : List α :=
  if x ∈ xs then xs else xs ++ [x]

/-! ### Commands -/

/-- The addresses to dial for a contact whose own addresses the book has learned: those to
which the contact resolves, or else those the book knows. -/
def dialAddresses (book : AddressBook) (contact : Contact) : List Multiaddr :=
  match book.resolveContact contact with
  | [] => book.known contact.id
  | addrs => addrs

/-- The call that a command makes. -/
def call? (s : Switchboard) : Command → Option Call
  | .connect contact =>
    if contact.id ∈ s.connected then none
    else match dialAddresses (s.book.learn contact) contact with
      | [] => none
      | addrs => some (.dial contact.id addrs)
  | .reserve relay =>
    match Circuit.reservation relay with
    | .error _ => none
    | .ok addr => some (.listen addr)
  | .bootstrapRouting => if s.routes then some .bootstrap else none
  | .routingPeers => if s.routes then some .countPeers else none
  | _ => none

/-- Connects to a peer, unless it is connected already. -/
def connect (s : Switchboard) (ticket : Ticket) (contact : Contact) (answer : Answer) :
    Switchboard × Replies :=
  if contact.id ∈ s.connected then (s, [(ticket, .connected (.ok ()))])
  else
    let s := { s with book := s.book.learn contact }
    match dialAddresses s.book contact with
    | [] => (s, [(ticket, .connected (.error .noAddresses))])
    | _ :: _ =>
      match answer with
      | .ok connection => ({ s with dials := Keyed.put connection ticket s.dials }, [])
      | .error refusal => (s, [(ticket, .connected (.error refusal.connectError))])

/-- Asks a relay for a reservation. A request that waits for the same relay is denied. -/
def reserve (s : Switchboard) (ticket : Ticket) (relay : Contact) (answer : Answer) :
    Switchboard × Replies :=
  match Circuit.reservation relay with
  | .error e => (s, [(ticket, .reserved (.error (.circuit e)))])
  | .ok addr =>
    let s := { s with book := s.book.learn relay }
    match answer with
    | .ok listener =>
      let superseded := match Keyed.find? relay.id s.reservations with
        | none => []
        | some earlier => [(earlier.ticket, .reserved (.error (.denied "superseded")))]
      ({ s with reservations := Keyed.put relay.id ⟨listener, addr, ticket⟩ s.reservations },
        superseded)
    | .error refusal =>
      (s, [(ticket, .reserved (.error (.listen addr.render refusal.reason)))])

/-- Starts a routing bootstrap, if the host takes part in routing. -/
def bootstrapRouting (s : Switchboard) (ticket : Ticket) (answer : Answer) :
    Switchboard × Replies :=
  if s.routes then
    match answer with
    | .ok query => ({ s with bootstraps := Keyed.put query ticket s.bootstraps }, [])
    | .error _ => (s, [(ticket, .bootstrapped (.error .noKnownPeers))])
  else (s, [(ticket, .bootstrapped (.error .disabled))])

/-- Tells how many peers are in the routing table, if the host takes part in routing. The network
never refuses to count; a table that it did not count would be empty. -/
def routingPeers (s : Switchboard) (answer : Answer) : Except RoutingError Nat :=
  if s.routes then
    match answer with
    | .ok count => .ok count
    | .error _ => .ok 0
  else .error .disabled

/-- Carries out a command; `answer` is the network's answer to its call, if it makes one. -/
def handle (s : Switchboard) (ticket : Ticket) (command : Command) (answer : Answer) :
    Switchboard × Replies :=
  match command with
  | .connect contact => s.connect ticket contact answer
  | .reserve relay => s.reserve ticket relay answer
  | .bootstrapRouting => s.bootstrapRouting ticket answer
  | .routingPeers => (s, [(ticket, .counted (s.routingPeers answer))])
  | .listenAddresses => (s, [(ticket, .addresses (s.listeners.flatMap (·.addresses)))])
  | .externalAddresses => (s, [(ticket, .addresses s.externals)])
  | .connectedPeers => (s, [(ticket, .peers s.connected)])
  | .shutdown => (s, [(ticket, .stopping)])

/-! ### Events -/

/-- Applies a change to the listener with a number. -/
def updateListener (s : Switchboard) (id : Nat) (change : Listener → Listener) : Switchboard :=
  { s with listeners := s.listeners.map fun l ↦ if l.id = id then change l else l }

/-- The listener with a number. -/
def listener? (s : Switchboard) (id : Nat) : Option Listener :=
  s.listeners.find? fun l ↦ l.id = id

/-- The reservation that waits on a listener. -/
def reservationOn? (s : Switchboard) (listener : Nat) : Option (PeerId × ParkedReservation) :=
  s.reservations.find? fun r ↦ r.2.listener = listener

/-- Takes notice of the end of a listener. A reservation that waits on it is denied; a
bring-up listener is forgotten, which is a failure of bring-up if it was primary and had no
address. -/
def dropListener (s : Switchboard) (id : Nat) (reason : String) : Switchboard × Replies :=
  match s.reservationOn? id with
  | some (relay, pending) =>
    ({ s with reservations := Keyed.remove relay s.reservations },
      [(pending.ticket, .reserved (.error (.denied reason)))])
  | none =>
    match s.listener? id with
    | none => (s, [])
    | some l =>
      let s := { s with listeners := s.listeners.eraseP fun l ↦ l.id = id }
      if l.primary ∧ l.addresses = [] then
        ({ s with lostPrimary := some (.transportBind l.requested.render reason) }, [])
      else (s, [])

/-- Learns what a report makes known of other peers. -/
def meet (s : Switchboard) (event : Event) : Switchboard :=
  { s with book := s.book.learnPairs event.introductions }

/-- Answers the request that waits for a connection, if there is one. -/
def answerDial (s : Switchboard) (connection : Nat) (result : Dialed) : Switchboard × Replies :=
  match Keyed.find? connection s.dials with
  | none => (s, [])
  | some ticket =>
    ({ s with dials := Keyed.remove connection s.dials }, [(ticket, .connected result)])

/-- Answers the request that waits for a query, if there is one. -/
def answerBootstrap (s : Switchboard) (query : Nat) (result : Except RoutingError Unit) :
    Switchboard × Replies :=
  match Keyed.find? query s.bootstraps with
  | none => (s, [])
  | some ticket =>
    ({ s with bootstraps := Keyed.remove query s.bootstraps }, [(ticket, .bootstrapped result)])

/-- Takes notice of a report of the network. -/
def onEvent (s : Switchboard) : Event → Switchboard × Replies
  | .established connection peer addr dialer =>
    let s := s.meet (.established connection peer addr dialer)
    { s with connected := enroll s.connected peer }.answerDial connection (.ok ())
  | .dialFailed connection refusal =>
    s.answerDial connection (.error refusal.connectError)
  | .disconnected peer remaining =>
    if remaining = 0 then ({ s with connected := s.connected.filter (· ≠ peer) }, [])
    else (s, [])
  | .identified peer addresses => (s.meet (.identified peer addresses), [])
  | .listening id addr =>
    match s.listener? id with
    | none => (s, [])
    | some _ =>
      let s := s.updateListener id fun l ↦ { l with addresses := l.addresses ++ [addr] }
      if s.dialable && !addr.isCircuit then
        ({ s with externals := enroll s.externals addr }, [])
      else (s, [])
  | .expired id addr =>
    let s := s.updateListener id fun l ↦
      { l with addresses := l.addresses.filter (· ≠ addr) }
    if s.dialable then ({ s with externals := s.externals.filter (· ≠ addr) }, []) else (s, [])
  | .listenerFailed id reason => s.dropListener id reason
  | .listenerClosed id reason => s.dropListener id (reason.getD "listener closed")
  | .reservationAccepted relay =>
    match Keyed.find? relay s.reservations with
    | none => (s, [])
    | some pending =>
      ({ s with reservations := Keyed.remove relay s.reservations },
        [(pending.ticket, .reserved (.ok (pending.addr ++ [.peer s.localId])))])
  | .bootstrapProgressed query result last =>
    match result, last with
    | .error reason, _ => s.answerBootstrap query (.error (.failed reason))
    | .ok (), true => s.answerBootstrap query (.ok ())
    | .ok (), false => (s, [])

/-- The requests that are parked, with the reply each gets if the host stops. -/
def parked (s : Switchboard) : Replies :=
  (s.dials.map fun d ↦ (d.2, .connected (.error .hostClosed))) ++
    (s.reservations.map fun r ↦ (r.2.ticket, .reserved (.error .hostClosed))) ++
    (s.bootstraps.map fun b ↦ (b.2, .bootstrapped (.error .hostClosed)))

end Switchboard

end Overlay.Host
