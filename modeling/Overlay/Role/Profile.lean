import Overlay.Multiaddr.Printer
import Overlay.Role

/-!
# What a role means for a host

A profile says on what a host of the role listens, whether others reach it directly,
whether it relays circuits, how it takes part in routing, and whether it must have met
another peer before it goes on.
-/

namespace Overlay

/-- The version of the internet protocol a listener uses. -/
inductive Family where
  | v4
  | v6
deriving DecidableEq, Repr

/-- The transport a listener uses. -/
inductive Transport where
  | tcp
  | quic
deriving DecidableEq, Repr

/-- Whether a listener's port is given or chosen by the system. -/
inductive PortChoice where
  | fixed
  | ephemeral
deriving DecidableEq, Repr

/-- On which interfaces a host listens. -/
inductive ListenScope where
  | everywhere
  | loopback
deriving DecidableEq, Repr

/-- Whether others reach a host directly. -/
inductive Reachability where
  | dialable
  | hidden
deriving DecidableEq, Repr

/-- How a host takes part in routing. -/
inductive RoutingMode where
  | server
  | client
  | disabled
deriving DecidableEq, Repr

/-- The name of a scope. -/
def ListenScope.text : ListenScope → String
  | .everywhere => "all"
  | .loopback => "loopback"

/-- The name of a reachability. -/
def Reachability.text : Reachability → String
  | .dialable => "public"
  | .hidden => "private"

/-- The name of a routing mode. -/
def RoutingMode.text : RoutingMode → String
  | .server => "server"
  | .client => "client"
  | .disabled => "disabled"

/-- A listener that a role opens. -/
structure ListenSpec where
  family : Family
  transport : Transport
  port : PortChoice
  /-- The host is of no use without this listener. -/
  primary : Bool
deriving DecidableEq, Repr

namespace ListenSpec

/-- The interface of a listener. -/
def interface (spec : ListenSpec) (scope : ListenScope) : Component :=
  match spec.family, scope with
  | .v4, .everywhere => .ip4 .unspecified
  | .v4, .loopback => .ip4 .loopback
  | .v6, .everywhere => .ip6 .unspecified
  | .v6, .loopback => .ip6 .loopback

/-- The port a listener asks for; zero leaves the choice to the system. -/
def requestedPort (spec : ListenSpec) (port : UInt16) : UInt16 :=
  match spec.port with
  | .fixed => port
  | .ephemeral => 0

/-- The address a listener asks for. -/
def address (spec : ListenSpec) (port : UInt16) (scope : ListenScope) : Multiaddr :=
  spec.interface scope ::
    match spec.transport with
    | .tcp => [.port .tcp (spec.requestedPort port)]
    | .quic => [.port .udp (spec.requestedPort port), .marker .quicV1]

end ListenSpec

namespace Role

/-- What a role means for a host. -/
structure Profile where
  listen : List ListenSpec
  reachability : Reachability
  relayService : Bool
  routing : RoutingMode
  requiresBootstrap : Bool
deriving DecidableEq, Repr

/-- Whether the host listens at all. -/
def Profile.listens (p : Profile) : Bool := !p.listen.isEmpty

/-- Whether the host keeps a routing table. -/
def Profile.routes (p : Profile) : Bool := p.routing != .disabled

/-- The profile of a role. -/
def profile : Role → Profile
  | .bootstrap =>
    { listen := [⟨.v4, .tcp, .fixed, true⟩]
      reachability := .dialable
      relayService := false
      routing := .server
      requiresBootstrap := false }
  | .relay =>
    { listen := [⟨.v4, .tcp, .fixed, true⟩, ⟨.v6, .tcp, .ephemeral, false⟩]
      reachability := .dialable
      relayService := true
      routing := .server
      requiresBootstrap := true }
  | .nodeRunner =>
    { listen := [⟨.v4, .tcp, .ephemeral, false⟩, ⟨.v6, .tcp, .ephemeral, false⟩,
        ⟨.v4, .quic, .ephemeral, false⟩, ⟨.v6, .quic, .ephemeral, false⟩]
      reachability := .hidden
      relayService := false
      routing := .client
      requiresBootstrap := true }
  | .mobileClient =>
    { listen := []
      reachability := .hidden
      relayService := false
      routing := .disabled
      requiresBootstrap := false }

end Role

end Overlay
