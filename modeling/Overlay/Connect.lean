import Overlay.AddressBook
import Overlay.Clock

/-!
# Connecting to peers

An attempt asks a dialer once, under the deadline and the cancellation of a policy. Several
peers are attempted at the same moment, each on its own, so one that hangs delays no other
and time limits do not add up. The dialer is asked in the order of the peers.

`Attendance` collects what came of it. Peers that could be connected are listed in order;
failures are kept by peer, where a later failure of the same peer replaces an earlier one.
-/

namespace Overlay

/-- Why a peer could not be connected. -/
inductive ConnectError where
  | noAddresses
  | unreachable (reason : String)
  | timeout
  | cancelled
  | hostClosed
deriving DecidableEq, Repr

namespace ConnectError

/-- The wording of an error. -/
def message : ConnectError → String
  | .noAddresses => "No known addresses for peer"
  | .unreachable reason => "Peer unreachable: " ++ reason
  | .timeout => "Connection attempt timed out"
  | .cancelled => "Connection attempt cancelled"
  | .hostClosed => "Host is shut down"

/-- The error of an attempt that was cut off. -/
def ofInterrupted : Interrupted → ConnectError
  | .timeout => .timeout
  | .cancelled => .cancelled

end ConnectError

/-- What came of an attempt to connect. -/
abbrev Dialed := Except ConnectError Unit

/-- A way to connect to peers, with a state that each call may change. -/
abbrev Dialer (σ : Type) := Contact → σ → Delayed Dialed × σ

namespace Connect

/-- One attempt: the peer, when it ended, and how. -/
structure Attempt where
  peer : PeerId
  ended : Nat
  result : Dialed
deriving DecidableEq, Repr

/-- The attempt that follows from what the dialer would answer. -/
def Attempt.ofWork (policy : Policy) (start : Nat) (peer : PeerId) (work : Delayed Dialed) :
    Attempt :=
  match policy.bounded start work with
  | (ended, .ok result) => ⟨peer, ended, result⟩
  | (ended, .error why) => ⟨peer, ended, .error (.ofInterrupted why)⟩

variable {σ : Type}

/-- Attempts to connect to one peer. An attempt that is cancelled before it begins does not
ask the dialer. -/
def attempt (policy : Policy) (dial : Dialer σ) (start : Nat) (peer : Contact) (s : σ) :
    Attempt × σ :=
  if policy.admits start then
    let (work, s) := dial peer s
    (.ofWork policy start peer.id work, s)
  else (.ofWork policy start peer.id .never, s)

/-- Attempts to connect to every peer at the same moment. -/
def attempts (policy : Policy) (dial : Dialer σ) (start : Nat) :
    List Contact → σ → List Attempt × σ
  | [], s => ([], s)
  | peer :: rest, s =>
    let (first, s) := attempt policy dial start peer s
    let (others, s) := attempts policy dial start rest s
    (first :: others, s)

end Connect

/-- What came of attempts to connect to a list of peers. -/
structure Attendance where
  /-- The peers that were connected, in the order of the list. -/
  succeeded : List PeerId
  /-- The last failure of each peer that had one. -/
  failures : List (PeerId × ConnectError)
deriving DecidableEq, Repr

namespace Attendance

/-- Nobody has been attempted. -/
def empty : Attendance := ⟨[], []⟩

/-- The attendance after one more attempt. -/
def record (a : Attendance) (attempt : Connect.Attempt) : Attendance :=
  match attempt.result with
  | .ok () => { a with succeeded := a.succeeded ++ [attempt.peer] }
  | .error e => { a with failures := Keyed.put attempt.peer e a.failures }

/-- The attendance of attempts in the order of the peers. -/
def ofAttempts (attempts : List Connect.Attempt) : Attendance := attempts.foldl record empty

/-- Whether any peer was connected. -/
def reachedAnyone (a : Attendance) : Bool := !a.succeeded.isEmpty

/-- How many peers succeeded or failed. -/
def attempted (a : Attendance) : Nat := a.succeeded.length + a.failures.length

end Attendance

namespace Connect

variable {σ : Type}

/-- Attempts to connect to every peer: the attendance, and when the last attempt ended. -/
def all (policy : Policy) (dial : Dialer σ) (start : Nat) (peers : List Contact) (s : σ) :
    Attendance × Nat × σ :=
  let (made, s) := attempts policy dial start peers s
  (.ofAttempts made, made.foldl (fun t a ↦ max t a.ended) start, s)

end Connect

end Overlay
