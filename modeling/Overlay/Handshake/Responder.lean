import Overlay.Handshake.Party

/-!
# The responder

The responder waits for the request and answers it. A stream that ends before any byte has
arrived may still bring the request later: the responder backs off and reads again, up to a
bounded number of times. Any other bytes are rejected without an answer.
-/

namespace Overlay.Handshake

/-- The settings of a responder. -/
structure Config where
  /-- How many times an empty stream is read before it is abandoned; zero counts as one. -/
  maxAttempts : Nat
  /-- The pause before an empty stream is read again. -/
  backoff : Nat
  /-- How long one stream may take. -/
  timeout : Nat
deriving DecidableEq, Repr

/-- The usual settings. -/
def Config.standard : Config :=
  ⟨Settings.maxAttempts, Settings.backoff, Settings.streamTimeout⟩

/-- How many times an empty stream is read. -/
def Config.attempts (config : Config) : Nat := max 1 config.maxAttempts

/-- How a responder that is not interrupted ends. -/
inductive Verdict where
  | responded
  /-- Something other than the request arrived. -/
  | rejected (received : List UInt8)
  /-- Every read found an empty stream. -/
  | abandoned (attempts : Nat)
  | failed (kind : Failure)
deriving DecidableEq, Repr

namespace Responder

/-- The states of a responder. -/
inductive State where
  /-- Reading the request for the `attempt`-th time. -/
  | awaiting (attempt : Nat) (got : List UInt8)
  | backingOff (attempt : Nat)
  | replying (left : List UInt8)
  | flushing
  | finished (verdict : Verdict)
deriving DecidableEq, Repr

/-- The state after a token has been read. -/
def judge (received : List UInt8) : State :=
  if received = Settings.handshakeRequest then .replying Settings.handshakeReply
  else .finished (.rejected received)

/-- The state after the `attempt`-th read found an empty stream. -/
def retry (config : Config) (attempt : Nat) : State :=
  if config.attempts ≤ attempt then .finished (.abandoned attempt) else .backingOff attempt

/-- What a responder asks for. -/
def step (config : Config) : State → Step State Verdict
  | .awaiting attempt got => .read (room got) fun
    | .error kind => .finished (.failed kind)
    | .ok bytes =>
      match collect got bytes with
      | .incomplete got => .awaiting attempt got
      | .token received => judge received
      | .nothing => retry config attempt
  | .backingOff attempt => .pause config.backoff (.awaiting (attempt + 1) [])
  | .replying left => .write left fun
    | .error kind => .finished (.failed kind)
    | .ok count =>
      match send left count with
      | .incomplete left => .replying left
      | .complete => .flushing
      | .stalled => .finished (.failed .writeZero)
  | .flushing => .flush fun
    | .error kind => .finished (.failed kind)
    | .ok () => .finished .responded
  | .finished verdict => .done verdict

/-- A bound on the number of answers a responder still needs. Every attempt but the last
takes one read and one pause. -/
def remaining (config : Config) : State → Nat
  | .awaiting attempt got => 2 * (config.attempts - attempt) + room got + 7
  | .backingOff attempt => 2 * (config.attempts - attempt) + 11
  | .replying left => left.length + 1
  | .flushing => 1
  | .finished _ => 0

/-- The responder with the given settings. -/
def party (config : Config) : Party State Verdict :=
  ⟨.awaiting 1 [], step config, remaining config⟩

end Responder

end Overlay.Handshake
