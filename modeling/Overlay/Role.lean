import Overlay.Text.Blank

/-!
# Roles

A node plays one of four roles. Its names are read without regard to the case of ASCII
letters or to white space around them.
-/

namespace Overlay

/-- What a node does in the overlay. -/
inductive Role where
  /-- Anchors new peers in the routing overlay. -/
  | bootstrap
  /-- Forwards circuits for peers that cannot be dialed. -/
  | relay
  /-- Is reached through a relay and answers handshakes. -/
  | nodeRunner
  /-- Reaches a node runner through a relay. -/
  | mobileClient
deriving DecidableEq, Repr

/-- A text that names no role. -/
structure UnknownRole where
  text : String
deriving DecidableEq, Repr

/-- The wording of an unknown role. -/
def UnknownRole.message (e : UnknownRole) : String :=
  s!"Unknown role '{e.text}' (expected bootstrap, relay, node-runner or mobile-client)"

namespace Role

/-- Every role. -/
def all : List Role := [.bootstrap, .relay, .nodeRunner, .mobileClient]

/-- The name of a role. -/
def text : Role → String
  | .bootstrap => "bootstrap"
  | .relay => "relay"
  | .nodeRunner => "node-runner"
  | .mobileClient => "mobile-client"

/-- The names under which a role is known. -/
def names : Role → List String
  | .bootstrap => ["bootstrap", "boot"]
  | .relay => ["relay"]
  | .nodeRunner => ["node-runner", "noderunner", "node_runner"]
  | .mobileClient => ["mobile-client", "mobileclient", "mobile_client", "mobile"]

/-- Reads the name of a role. -/
def parse (s : String) : Except UnknownRole Role :=
  let name := String.ofList ((Text.trimChars s.toList).map Char.toLower)
  match all.find? fun role ↦ role.names.contains name with
  | some role => .ok role
  | none => .error ⟨s⟩

/-- The key ring slot that a node of this role uses unless told otherwise. -/
def defaultKeyIndex : Role → Nat
  | .bootstrap => 0
  | .relay => 3
  | .nodeRunner => 6
  | .mobileClient => 8

end Role

end Overlay
