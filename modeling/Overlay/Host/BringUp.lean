import Overlay.Host.Switchboard
import Overlay.Role.Profile

/-!
# Bringing up a host

The listeners of the role are opened in order. A port that is given must be free: it is
claimed before anything listens on it. A primary listener that cannot be opened ends
bring-up; the others are skipped. A role that listens must have opened some listener.

Then bring-up waits until every listener has reported an address. The primary listener may
still fail while it has none, which ends bring-up too; the wait itself is limited, and
when time is up the host goes on with what it has.
-/

namespace Overlay.Host

/-- What opening listeners meets with. -/
structure Ground where
  /-- Claims a given port before it is listened on. -/
  claim : Multiaddr → Except String Unit
  /-- The answer to the call that opens the `n`-th listener. -/
  listen : (n : Nat) → Multiaddr → Answer

/-- The internet address and the port at which an address would be bound. -/
structure Socket where
  host : Option Component
  port : Option UInt16
deriving DecidableEq, Repr

/-- The socket after one more component. -/
def Socket.pass (s : Socket) : Component → Socket
  | .ip4 ip => { s with host := some (.ip4 ip) }
  | .ip6 ip => { s with host := some (.ip6 ip) }
  | .port .tcp number => { s with port := some number }
  | _ => s

/-- The internet address and TCP port that must be free for an address. A port left to the
system needs no claim. -/
def fixedSocket? (addr : Multiaddr) : Option (Component × UInt16) :=
  match addr.foldl Socket.pass ⟨none, none⟩ with
  | ⟨some host, some port⟩ => if port = 0 then none else some (host, port)
  | _ => none

namespace Switchboard

/-- Opens one listener, or skips it. -/
def openListener (s : Switchboard) (addr : Multiaddr) (primary : Bool)
    (claim : Except String Unit) (answer : Answer) : Except BringUpError Switchboard :=
  let refused (reason : String) : Except BringUpError Switchboard :=
    if primary then .error (.transportBind addr.render reason) else .ok s
  match claim, answer with
  | .error reason, _ => refused reason
  | .ok (), .error refusal => refused refusal.reason
  | .ok (), .ok id => .ok { s with listeners := s.listeners ++ [⟨id, addr, primary, []⟩] }

/-- Opens the listeners of a role. -/
def openListeners (ground : Ground) (port : UInt16) (scope : ListenScope) :
    (n : Nat) → List ListenSpec → Switchboard → Except BringUpError Switchboard
  | _, [], s => .ok s
  | n, spec :: rest, s =>
    let addr := spec.address port scope
    match s.openListener addr spec.primary (ground.claim addr) (ground.listen n addr) with
    | .error e => .error e
    | .ok s => openListeners ground port scope (n + 1) rest s

/-- Whether every listener has reported an address. -/
def isReady (s : Switchboard) : Bool := s.listeners.all fun l ↦ !l.addresses.isEmpty

/-- The result of waiting for the listeners, if nothing more need be waited for. A failure
of the primary listener comes first, and is noticed once. -/
def settled? (s : Switchboard) : Option (Except BringUpError Unit × Switchboard) :=
  match s.lostPrimary with
  | some e => some (.error e, { s with lostPrimary := none })
  | none => if s.isReady then some (.ok (), s) else none

/-- Waits for the listeners while the network makes the given reports, and then until the
time is up: the result, the switchboard, and the reports that are left. -/
def settle (s : Switchboard) :
    (reports : List Event) → Except BringUpError Unit × Switchboard × List Event
  | [] =>
    match s.settled? with
    | some (result, s) => (result, s, [])
    | none => (.ok (), s, [])
  | event :: rest =>
    match s.settled? with
    | some (result, s) => (result, s, event :: rest)
    | none => settle (s.onEvent event).1 rest

end Switchboard

/-- Brings up the switchboard of a role, while the network makes the given reports. -/
def bringUp (role : Role) (localId : PeerId) (port : UInt16) (scope : ListenScope)
    (ground : Ground) (reports : List Event) : Except BringUpError (Switchboard × List Event) :=
  let profile := role.profile
  let board := Switchboard.init localId (profile.reachability == .dialable) profile.routes
  match board.openListeners ground port scope 0 profile.listen with
  | .error e => .error e
  | .ok board =>
    if profile.listens then
      if board.listeners.isEmpty then
        .error (.transportBind "*" "no listener could be opened")
      else match board.settle reports with
        | (.error e, _, _) => .error e
        | (.ok (), board, reports) => .ok (board, reports)
    else .ok (board, reports)

end Overlay.Host
