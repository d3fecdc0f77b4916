import Overlay.Connect
import Overlay.Handshake.Task
import Overlay.Host.Error
import Overlay.Keyring
import Overlay.Node.Config

/-!
# What a node does

A node loads its key ring, selects its identity and brings up its host. It then joins the
overlay: it connects to the bootstrap peers and, if one of them answered, bootstraps its
routing table. After that each role has its own business:

* a bootstrap node waits to be shut down;
* a relay answers handshakes and waits;
* a node runner reserves a circuit on its relay, answers handshakes and waits;
* a mobile client reaches its target through its relay, runs one handshake and is done.

Every step that needs the network is bounded by one policy. A journey records the steps
that were begun, in order.
-/

namespace Overlay.Node

/-- What a running host offers, over a state of the world that each use may change. -/
structure Facilities (σ : Type) where
  connect : Dialer σ
  reserve : Contact → σ → Delayed (Except ReserveError Multiaddr) × σ
  bootstrapRouting : σ → Delayed (Except RoutingError Unit) × σ
  /-- Registers the responder for inbound handshakes. -/
  accept : σ → Except StreamError Unit × σ
  /-- Opens a handshake stream to a connected peer. -/
  openStream : PeerId → σ → Delayed (Except StreamError Handshake.Wire) × σ

/-- A step that a node begins on the network. -/
inductive Action where
  | enterOverlay (peers : List Contact)
  | bootstrapRouting
  | connect (contact : Contact)
  | reserve (relay : Contact)
  | accept
  | openStream (peer : PeerId)
  /-- Runs the initiator's side of a handshake on a stream to the peer. -/
  | request (peer : PeerId)
deriving DecidableEq, Repr

/-- Why a bounded step failed. -/
inductive StepError (ε : Type) where
  | interrupted (why : Interrupted)
  | failed (error : ε)
deriving DecidableEq, Repr

/-- The wording of an error. -/
def StepError.message {ε : Type} (wording : ε → String) : StepError ε → String
  | .interrupted why => why.message
  | .failed error => wording error

/-- Why a node stops. -/
inductive NodeError where
  | keyring (error : KeyringError)
  | identity (error : KeyringError)
  | bringUp (error : BringUpError)
  /-- None of the `count` bootstrap peers could be connected, and the role needs one. -/
  | noBootstrapPeer (count : Nat)
  | responder (error : StreamError)
  | relay (error : ConnectError)
  | reserve (error : StepError ReserveError)
  | target (error : CircuitError)
  | assemble (error : CircuitError)
  | circuit (error : StepError ConnectError)
  | stream (error : StepError StreamError)
  | handshake (error : StepError Handshake.HandshakeError)
deriving DecidableEq, Repr

/-- The wording of an error of a stream, with its cause. -/
def streamMessage (e : StreamError) : String :=
  match e with
  | .io error => e.message ++ ": " ++ error.text
  | _ => e.message

/-- The wording of an error of a handshake, with its cause. -/
def handshakeMessage (e : Handshake.HandshakeError) : String :=
  match e with
  | .io error => e.message ++ ": " ++ error.text
  | _ => e.message

/-- The wording of an error, with what the node was about. -/
def NodeError.message : NodeError → String
  | .keyring e => "loading keyring: " ++ e.message
  | .identity e => "selecting node identity: " ++ e.message
  | .bringUp e => "bringing up host: " ++ e.message
  | .noBootstrapPeer count => s!"failed to connect to any of {count} bootstrap peers"
  | .responder e => "registering handshake responder: " ++ streamMessage e
  | .relay e => "connecting to relay: " ++ e.message
  | .reserve e => "reserving relay circuit: " ++ e.message ReserveError.message
  | .target e => "invalid target: " ++ e.message
  | .assemble e => "assembling relay circuit: " ++ e.message
  | .circuit e => "connecting to target through relay: " ++ e.message ConnectError.message
  | .stream e => "opening handshake stream: " ++ e.message streamMessage
  | .handshake e => "handshake: " ++ e.message handshakeMessage

/-- How far a node has come. -/
structure Journey (σ : Type) where
  now : Nat
  world : σ
  /-- The steps begun so far, the latest first. -/
  actions : List Action

/-- A part of a journey, which may fail. -/
abbrev Leg (σ α : Type) := Journey σ → Except NodeError α × Journey σ

namespace Leg

variable {σ α β : Type}

/-- The leg that does nothing. -/
def done (a : α) : Leg σ α := fun j ↦ (.ok a, j)

/-- The leg that fails. -/
def fail (e : NodeError) : Leg σ α := fun j ↦ (.error e, j)

/-- One leg after another, unless the first one fails. -/
def next (leg : Leg σ α) (more : α → Leg σ β) : Leg σ β := fun j ↦
  match leg j with
  | (.ok a, j) => more a j
  | (.error e, j) => (.error e, j)

/-- A leg that stands on a result. -/
def ofExcept {ε : Type} (wrap : ε → NodeError) : Except ε α → Leg σ α
  | .ok a => done a
  | .error e => fail (wrap e)

/-- A step bounded by a policy. One that is cancelled before it begins is never begun. -/
def bounded {ε : Type} (policy : Policy) (action : Action)
    (work : σ → Delayed (Except ε α) × σ) (j : Journey σ) :
    Except (StepError ε) α × Journey σ :=
  if policy.admits j.now then
    let (result, world) := work j.world
    let begun := action :: j.actions
    match policy.bounded j.now result with
    | (time, .ok (.ok a)) => (.ok a, ⟨time, world, begun⟩)
    | (time, .ok (.error e)) => (.error (.failed e), ⟨time, world, begun⟩)
    | (time, .error why) => (.error (.interrupted why), ⟨time, world, begun⟩)
  else
    let (time, why) := policy.cutoff j.now
    (.error (.interrupted why), { j with now := time })

/-- A bounded step whose failure is that of the node. -/
def step {ε : Type} (policy : Policy) (action : Action) (wrap : StepError ε → NodeError)
    (work : σ → Delayed (Except ε α) × σ) : Leg σ α := fun j ↦
  let (result, j) := bounded policy action work j
  (result.mapError wrap, j)

end Leg

namespace Mission

variable {σ : Type}

/-- Connects to the bootstrap peers and bootstraps the routing table. A role that requires
bootstrap peers fails if it has some and none of them answers; a routing bootstrap that
fails does no harm. -/
def enterOverlay (f : Facilities σ) (policy : Policy) (config : Config) : Leg σ Unit := fun j ↦
  if config.bootstrap = [] then (.ok (), j)
  else
    let (attendance, ended, world) :=
      Connect.all policy f.connect j.now config.bootstrap j.world
    let j : Journey σ := ⟨ended, world, .enterOverlay config.bootstrap :: j.actions⟩
    let profile := config.role.profile
    if attendance.reachedAnyone then
      if profile.routes then
        (.ok (), (Leg.bounded policy .bootstrapRouting f.bootstrapRouting j).2)
      else (.ok (), j)
    else if profile.requiresBootstrap then
      (.error (.noBootstrapPeer config.bootstrap.length), j)
    else (.ok (), j)

/-- Connects to a relay. -/
def dialRelay (f : Facilities σ) (policy : Policy) (relay : Contact) : Leg σ Unit := fun j ↦
  let (made, world) := Connect.attempt policy f.connect j.now relay j.world
  let actions := if policy.admits j.now then .connect relay :: j.actions else j.actions
  let j : Journey σ := ⟨made.ended, world, actions⟩
  match made.result with
  | .ok () => (.ok (), j)
  | .error e => (.error (.relay e), j)

/-- Registers the handshake responder. -/
def answerHandshakes (f : Facilities σ) : Leg σ Unit := fun j ↦
  let (result, world) := f.accept j.world
  let j : Journey σ := { j with world, actions := .accept :: j.actions }
  match result with
  | .ok () => (.ok (), j)
  | .error e => (.error (.responder e), j)

/-- Reserves a circuit on the relay. -/
def advertise (f : Facilities σ) (policy : Policy) (relay : Contact) : Leg σ Multiaddr :=
  (dialRelay f policy relay).next fun _ ↦
    Leg.step policy (.reserve relay) .reserve (f.reserve relay)

/-- Runs the initiator's side of a handshake on a stream to a peer. -/
def request (policy : Policy) (peer : PeerId) (wire : Handshake.Wire) : Leg σ Unit := fun j ↦
  let (_, time, result) := Handshake.requestWithin policy policy.cancelAt j.now wire
  let actions := if policy.admits j.now then .request peer :: j.actions else j.actions
  let j : Journey σ := { j with now := time, actions }
  match result with
  | .ok (.ok ()) => (.ok (), j)
  | .ok (.error e) => (.error (.handshake (.failed e)), j)
  | .error why => (.error (.handshake (.interrupted why)), j)

/-- Reaches a target through a relay and runs one handshake with it. -/
def reach (f : Facilities σ) (policy : Policy) (bootstrap : List Contact)
    (relay target : Contact) : Leg σ Unit :=
  (Leg.ofExcept .target (Circuit.checkTarget target.id bootstrap [relay])).next fun _ ↦
    (dialRelay f policy relay).next fun _ ↦
      (Leg.ofExcept .assemble (Circuit.assemble relay target)).next fun routed ↦
        (Leg.step policy (.connect routed) .circuit (f.connect routed)).next fun _ ↦
          (Leg.step policy (.openStream target.id) .stream (f.openStream target.id)).next
            fun wire ↦ request policy target.id wire

/-- Reaches the target of a mobile client, which needs both a relay and a target. -/
def clientBusiness (f : Facilities σ) (policy : Policy) (config : Config) : Leg σ Unit :=
  match config.relay, config.target with
  | some relay, some target => reach f policy config.bootstrap relay target
  | _, _ => Leg.done ()

/-- What a node is about after it has started. -/
inductive Standing where
  /-- It serves others until it is shut down. -/
  | waiting
  /-- It has nothing more to do. -/
  | finished
deriving DecidableEq, Repr

/-- The business of a role. -/
def business (f : Facilities σ) (policy : Policy) (config : Config) : Leg σ Standing :=
  match config.role with
  | .bootstrap => Leg.done .waiting
  | .relay => (answerHandshakes f).next fun _ ↦ Leg.done .waiting
  | .nodeRunner =>
    let serve := (answerHandshakes f).next fun _ ↦ Leg.done .waiting
    match config.relay with
    | some relay => (advertise f policy relay).next fun _ ↦ serve
    | none => serve
  | .mobileClient => (clientBusiness f policy config).next fun _ ↦ Leg.done .finished

/-- Everything a node does once its host is up. -/
def start (f : Facilities σ) (policy : Policy) (config : Config) : Leg σ Standing :=
  (enterOverlay f policy config).next fun _ ↦ business f policy config

/-- The policy of a node that is shut down at a moment, or never. -/
def policy (shutdown : Option Nat) : Policy := ⟨Settings.attemptTimeout, shutdown⟩

/-- The identity of a node. -/
def identity (files : Files) (config : Config) : Except NodeError Identity := do
  let ring ← match config.keyring with
    | none => pure Keyring.embedded
    | some path => (Keyring.load files path).mapError .keyring
  (ring.identity config.keyIndex).mapError .identity

/-- When and how a node stops; it may never do. -/
def ending (shutdown : Option Nat) (now : Nat) :
    Except NodeError Standing → Option (Nat × Except NodeError Unit)
  | .error e => some (now, .error e)
  | .ok .finished => some (now, .ok ())
  | .ok .waiting => shutdown.map fun time ↦ (max now time, .ok ())

end Mission

end Overlay.Node
