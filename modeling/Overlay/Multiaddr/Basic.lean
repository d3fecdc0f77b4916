import Overlay.Multiaddr.Ip
import Overlay.PeerId

/-!
# Multiaddresses

A multiaddress is a list of components, each a protocol with or without a value. Protocols
whose values have the same form share a constructor.

`endsInPeer?` and `isCircuit` are the two questions that addressing asks: who is named at
the end, and whether a relay takes part.
-/

namespace Overlay

/-- Protocols whose value is a port. -/
inductive PortProtocol where
  | tcp
  | udp
  | dccp
  | sctp
deriving DecidableEq, Repr

/-- Protocols whose value is any text. -/
inductive NameProtocol where
  | dns
  | dns4
  | dns6
  | dnsaddr
  | unix
  | ip6zone
  | sni
deriving DecidableEq, Repr

/-- Protocols without a value, the relay circuit apart. -/
inductive Marker where
  | tls
  | noise
  | udt
  | utp
  | http
  | https
  | quic
  | quicV1
  | webtransport
  | websocketStar
  | webrtcStar
  | oldWebrtcDirect
  | webrtcDirect
  | webrtc
  | stardust
deriving DecidableEq, Repr

/-- One component of a multiaddress. -/
inductive Component where
  | ip4 (ip : Ip4)
  | ip6 (ip : Ip6)
  | port (protocol : PortProtocol) (number : UInt16)
  | ipcidr (bits : UInt8)
  | memory (number : UInt64)
  | name (protocol : NameProtocol) (text : String)
  /-- A WebSocket at a path, with or without encryption. -/
  | websocket (secure : Bool) (path : String)
  | marker (m : Marker)
  /-- A circuit through the relay named before it. -/
  | circuit
  | peer (id : PeerId)
  | certhash (hash : Multihash)
  | onion (host : List UInt8) (port : UInt16)
  | onion3 (host : List UInt8) (port : UInt16)
  | garlic64 (bytes : List UInt8)
  | garlic32 (bytes : List UInt8)
deriving DecidableEq, Repr

/-- A multiaddress: its components from left to right. -/
abbrev Multiaddr := List Component

namespace Multiaddr

/-- The peer that the last component names. -/
def endsInPeer? (addr : Multiaddr) : Option PeerId :=
  match addr.getLast? with
  | some (.peer id) => some id
  | _ => none

/-- The peer that the first component names. -/
def startsWithPeer? : Multiaddr → Option PeerId
  | .peer id :: _ => some id
  | _ => none

/-- Whether a relay circuit is part of the address. -/
def isCircuit (addr : Multiaddr) : Bool := addr.contains .circuit

theorem isCircuit_eq_true_iff {addr : Multiaddr} : addr.isCircuit = true ↔ .circuit ∈ addr :=
  List.contains_iff_mem

theorem isCircuit_eq_false_iff {addr : Multiaddr} : addr.isCircuit = false ↔ .circuit ∉ addr := by
  rw [← Bool.not_eq_true, isCircuit_eq_true_iff]

theorem isCircuit_append (addr more : Multiaddr) :
    (addr ++ more).isCircuit = (addr.isCircuit || more.isCircuit) :=
  List.contains_append

/-- The address followed by the peer's id, unless it ends with this id already. -/
def withPeer (addr : Multiaddr) (id : PeerId) : Multiaddr :=
  if addr.endsInPeer? = some id then addr else addr ++ [.peer id]

/-- The address without one trailing mention of the peer's id. -/
def withoutPeer (addr : Multiaddr) (id : PeerId) : Multiaddr :=
  if addr.endsInPeer? = some id then addr.dropLast else addr

end Multiaddr

end Overlay
