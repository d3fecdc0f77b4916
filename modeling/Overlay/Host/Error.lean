import Overlay.Circuit
import Overlay.Failure

/-!
# Errors of hosts

What can go wrong when a host is brought up, when it asks for a reservation, when it takes
part in routing, and when it opens a stream. Connecting has its own error (`Connect`).
-/

namespace Overlay

/-- Why a host could not be brought up. -/
inductive BringUpError where
  | configuration (reason : String)
  /-- Nothing could be bound at the address, or at any address if it is `*`. -/
  | transportBind (addr reason : String)
deriving DecidableEq, Repr

/-- The wording of an error. -/
def BringUpError.message : BringUpError → String
  | .configuration reason => "Configuration error: " ++ reason
  | .transportBind addr reason => s!"Failed to bind {addr}: {reason}"

/-- Why a relay gave no reservation. -/
inductive ReserveError where
  | circuit (error : CircuitError)
  /-- The circuit address cannot be listened on. -/
  | listen (addr reason : String)
  | denied (reason : String)
  | hostClosed
deriving DecidableEq, Repr

/-- The wording of an error. -/
def ReserveError.message : ReserveError → String
  | .circuit error => error.message
  | .listen addr reason => s!"Relay refused to listen on {addr}: {reason}"
  | .denied reason => "Reservation denied: " ++ reason
  | .hostClosed => "Host is shut down"

/-- Why routing did not work. -/
inductive RoutingError where
  | disabled
  | noKnownPeers
  | failed (reason : String)
  | hostClosed
deriving DecidableEq, Repr

/-- The wording of an error. -/
def RoutingError.message : RoutingError → String
  | .disabled => "Routing is disabled for this role"
  | .noKnownPeers => "Routing table has no known peers"
  | .failed reason => "Routing bootstrap failed: " ++ reason
  | .hostClosed => "Host is shut down"

/-- Why a stream could not be opened or accepted. -/
inductive StreamError where
  | unsupportedProtocol (protocol : String)
  | alreadyRegistered (protocol : String)
  | io (error : SystemError)
deriving DecidableEq, Repr

/-- The wording of an error. -/
def StreamError.message : StreamError → String
  | .unsupportedProtocol protocol => "Remote does not support " ++ protocol
  | .alreadyRegistered protocol => s!"Protocol {protocol} already has a handler"
  | .io error => "Stream IO error: " ++ error.text

end Overlay
