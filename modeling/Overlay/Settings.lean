/-!
# Settings

The names of the protocols, the tokens of the handshake, and the limits and durations that
hold unless a caller gives others. Durations are in milliseconds.
-/

namespace Overlay.Settings

/-- The protocol version that peers tell each other. -/
def protocolVersion : String := "/tether/1.0.0"

/-- The name under which handshake streams are opened. -/
def handshakeProtocol : String := "/tether/handshake/1.0.0"

/-- What the initiator writes: `PING` and a line feed. -/
def handshakeRequest : List UInt8 := [0x50, 0x49, 0x4E, 0x47, 0x0A]

/-- What the responder answers: `PONG` and a line feed. -/
def handshakeReply : List UInt8 := [0x50, 0x4F, 0x4E, 0x47, 0x0A]

/-- The length of both tokens. -/
def tokenLength : Nat := 5

/-- How often a responder looks for a request on a stream that seems to have ended. -/
def maxAttempts : Nat := 5

/-- How long a responder waits before it looks again. -/
def backoff : Nat := 1000

/-- How long a responder takes for one stream at most. -/
def streamTimeout : Nat := 30000

/-- The port of listeners with a fixed port. -/
def listenPort : UInt16 := 4001

/-- How long one attempt to connect takes at most. -/
def attemptTimeout : Nat := 20000

/-- How long bring-up waits for listeners. -/
def listenTimeout : Nat := 5000

/-- The pause between refreshes of the routing table. -/
def routingRefresh : Nat := 60000

/-- How long a connection without use is kept. -/
def idleTimeout : Nat := 60000

/-- The limits of the relay service. -/
structure RelayLimits where
  maxReservations : Nat
  maxReservationsPerPeer : Nat
  maxCircuits : Nat
  maxCircuitsPerPeer : Nat
  /-- In seconds. -/
  maxCircuitDuration : Nat
  maxCircuitBytes : Nat
  /-- Pairs of a count and an interval in seconds within which it may be used up. -/
  reservationRates : List (Nat × Nat)
  circuitRates : List (Nat × Nat)
deriving DecidableEq, Repr

/-- A relay does not limit its service: every count is as large as a word, circuits last
for a year, and no rate is limited. -/
def unlimitedRelay : RelayLimits where
  maxReservations := UInt64.size - 1
  maxReservationsPerPeer := UInt64.size - 1
  maxCircuits := UInt64.size - 1
  maxCircuitsPerPeer := UInt64.size - 1
  maxCircuitDuration := 365 * 24 * 3600
  maxCircuitBytes := UInt64.size - 1
  reservationRates := []
  circuitRates := []

theorem length_handshakeRequest : handshakeRequest.length = tokenLength := rfl

theorem length_handshakeReply : handshakeReply.length = tokenLength := rfl

end Overlay.Settings
