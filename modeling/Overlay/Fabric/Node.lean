import Overlay.Fabric.Calls
import Overlay.Node.Mission

/-!
# Nodes on a fabric

A node runs on a fabric under a name. What its host offers are calls on the fabric. When the
node stops, its host is shut down; a node that waits to be shut down stays up.
-/

namespace Overlay.Fabric

/-- The result of connecting. -/
def dialed : Host.Reply → Dialed
  | .connected result => result
  | _ => .error .hostClosed

/-- The result of asking for a reservation. -/
def reserved : Host.Reply → Except ReserveError Multiaddr
  | .reserved result => result
  | _ => .error .hostClosed

/-- The result of a routing bootstrap. -/
def bootstrapped : Host.Reply → Except RoutingError Unit
  | .bootstrapped result => result
  | _ => .error .hostClosed

/-- Asks a host for something and reads its reply. -/
def request {α : Type} (read : Host.Reply → α) (name : String) (command : Host.Command)
    (f : Fabric) : Delayed α × Fabric :=
  match f.ask name command with
  | (.never, f) => (.never, f)
  | (.after delay reply, f) => (.after delay (read reply), f)

/-- What the host with a name offers. -/
def facilities (name : String) : Node.Facilities Fabric where
  connect contact := request dialed name (.connect contact)
  reserve relay := request reserved name (.reserve relay)
  bootstrapRouting := request bootstrapped name .bootstrapRouting
  accept f := f.accept name
  openStream peer f := (.after 0 (f.openStream name peer), f)

/-- How a node has fared. -/
structure NodeRun where
  /-- When and how the node stopped; none if it waits. -/
  ending : Option (Nat × Except Node.NodeError Unit)
  fabric : Fabric

/-- Runs a node under a name; it is shut down at the given moment, or never. -/
def runNode (f : Fabric) (name : String) (files : Files) (config : Node.Config)
    (shutdown : Option Nat) : NodeRun :=
  match Node.Mission.identity files config with
  | .error e => ⟨some (0, .error e), f⟩
  | .ok identity =>
    let port := config.port.getD Settings.listenPort
    match f.raise name config.role identity.peerId port config.scope with
    | .error e => ⟨some (0, .error (.bringUp e)), f⟩
    | .ok f =>
      let (standing, journey) :=
        Node.Mission.start (facilities name) (Node.Mission.policy shutdown) config ⟨0, f, []⟩
      let ending := Node.Mission.ending shutdown journey.now standing
      ⟨ending, if ending.isSome then journey.world.stop name else journey.world⟩

end Overlay.Fabric
