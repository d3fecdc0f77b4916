import Overlay.Handshake.Initiator
import Overlay.Handshake.Responder
import Overlay.Handshake.Wire

/-!
# Running a party on a wire

A task is a party at work on a wire under limits. `Task.next?` carries out the next thing that
happens, and says when: an answer reaches the party, the party is done, or the limits cut
it off. A task over which nothing happens any more has ended or waits forever.

Everything that happens is logged with its moment. Whatever ends a task, the stream is
closed then, and only then.
-/

namespace Overlay.Handshake

/-- What happens on a stream. -/
inductive Event where
  /-- A read with room for `room` bytes came back. -/
  | read (room : Nat) (result : Except Failure (List UInt8))
  /-- A pause is over. -/
  | rested
  /-- A write came back; the bytes are those taken. -/
  | wrote (result : Except Failure (List UInt8))
  | flushed (result : Except Failure Unit)
  | closed
deriving DecidableEq

/-- A party at work on a wire. -/
structure Task (σ ω : Type) where
  state : σ
  /-- What is left of the wire's script. -/
  wire : Wire
  now : Nat
  /-- What happened so far, the latest first. -/
  log : List (Nat × Event)
  /-- When and how the task ended. -/
  ending : Option (Nat × Except Interrupted ω)
deriving DecidableEq

namespace Task

variable {σ ω : Type}

/-- A task that begins now. -/
def begin (party : Party σ ω) (wire : Wire) (now : Nat) : Task σ ω :=
  ⟨party.start, wire, now, [], none⟩

/-- The task after its end, with the stream closed. -/
def finish (t : Task σ ω) (time : Nat) (outcome : Except Interrupted ω) : Task σ ω :=
  { t with now := time, log := (time, .closed) :: t.log, ending := some (time, outcome) }

/-- The task is cut off, unless it may go on forever. -/
def interrupt (limits : Limits) (t : Task σ ω) : Option (Nat × Task σ ω) :=
  (limits.cut? t.now).map fun (time, why) ↦ (time, t.finish time (.error why))

/-- An answer comes after a delay, if the limits allow it. -/
def receive (limits : Limits) (t : Task σ ω) (delay : Nat) (event : Event) (state : σ)
    (wire : Wire) : Option (Nat × Task σ ω) :=
  let time := t.now + delay
  if limits.allows time then
    some (time, { t with state, wire, now := time, log := (time, event) :: t.log })
  else t.interrupt limits

/-- The bytes that a write took. -/
def taken (bytes : List UInt8) : Except Failure Nat → Except Failure (List UInt8)
  | .ok count => .ok (bytes.take count)
  | .error kind => .error kind

/-- The next thing that happens, and when. -/
def next? (party : Party σ ω) (limits : Limits) (t : Task σ ω) : Option (Nat × Task σ ω) :=
  if t.ending.isSome then none
  else if limits.allows t.now then
    match party.step t.state with
    | .done outcome => some (t.now, t.finish t.now (.ok outcome))
    | .pause delay next => t.receive limits delay .rested next t.wire
    | .read room next =>
      match Wire.readFrom room t.wire.reads with
      | .never => t.interrupt limits
      | .after delay (result, reads) =>
        t.receive limits delay (.read room result) (next result) { t.wire with reads }
    | .write bytes next =>
      match Wire.writeTo bytes.length t.wire.writes with
      | .never => t.interrupt limits
      | .after delay (result, writes) =>
        t.receive limits delay (.wrote (taken bytes result)) (next result) { t.wire with writes }
    | .flush next =>
      match t.wire.flush with
      | .never => t.interrupt limits
      | .after delay result =>
        t.receive limits delay (.flushed result) (next result) t.wire
  else t.interrupt limits

/-- The task after at most `fuel` more things have happened. -/
def runFor (party : Party σ ω) (limits : Limits) : (fuel : Nat) → Task σ ω → Task σ ω
  | 0, t => t
  | fuel + 1, t =>
    match t.next? party limits with
    | none => t
    | some (_, t) => runFor party limits fuel t

/-- How many more things can happen: answers to the party, and the end. -/
def budget (party : Party σ ω) (t : Task σ ω) : Nat := party.remaining t.state + 1

/-- The task after everything has happened. -/
def run (party : Party σ ω) (limits : Limits) (t : Task σ ω) : Task σ ω :=
  t.runFor party limits (t.budget party)

/-- The task as far as outer limits let it go. Outer limits drop the task: unlike its own
limits, they leave it no time to close the stream. -/
def runWithin (party : Party σ ω) (limits outer : Limits) :
    (fuel : Nat) → Task σ ω → Task σ ω
  | 0, t => t
  | fuel + 1, t =>
    match t.next? party limits with
    | none => t
    | some (time, next) =>
      if outer.allows time then runWithin party limits outer fuel next else t

/-- What happened so far, in order. -/
def events (t : Task σ ω) : List (Nat × Event) := t.log.reverse

end Task

/-- The limits of a responder that begins to answer a stream at `start`. -/
def Config.limits (config : Config) (cancelAt : Option Nat) (start : Nat) : Limits :=
  ⟨some (start + config.timeout), cancelAt⟩

/-- Answers one handshake on a wire. -/
def respond (config : Config) (cancelAt : Option Nat) (start : Nat) (wire : Wire) :
    Task Responder.State Verdict :=
  (Task.begin (Responder.party config) wire start).run (Responder.party config)
    (config.limits cancelAt start)

/-- The limits of an initiator: it has no deadline of its own. -/
def Initiator.limits (cancelAt : Option Nat) : Limits := ⟨none, cancelAt⟩

/-- Runs the initiator's side of a handshake on a wire. -/
def request (cancelAt : Option Nat) (start : Nat) (wire : Wire) :
    Task Initiator.State Initiator.Verdict :=
  (Task.begin Initiator.party wire start).run Initiator.party (Initiator.limits cancelAt)

/-- What the initiator's side comes to; it is only ever cut off by a cancellation. -/
def Initiator.result : Except Interrupted Initiator.Verdict → Initiator.Verdict
  | .ok verdict => verdict
  | .error _ => .error .cancelled

/-- Runs the initiator's side as one step of a policy: the task as far as it got, when the
step ended, and what it came to unless the policy cut it off. -/
def requestWithin (policy : Policy) (cancelAt : Option Nat) (start : Nat) (wire : Wire) :
    Task Initiator.State Initiator.Verdict × Nat × Except Interrupted Initiator.Verdict :=
  let task := Task.begin Initiator.party wire start
  let task :=
    if policy.admits start then
      task.runWithin Initiator.party (Initiator.limits cancelAt) (policy.limits start)
        (task.budget Initiator.party)
    else task
  match task.ending with
  | some (time, outcome) => (task, time, .ok (Initiator.result outcome))
  | none => (task, (policy.cutoff start).1, .error (policy.cutoff start).2)

namespace Event

/-- The room that a completed read offered. -/
def room? : Event → Option Nat
  | .read room _ => some room
  | _ => none

/-- Whether a write came back, with success or not. -/
def isWrite : Event → Bool
  | .wrote _ => true
  | _ => false

/-- Whether a flush came back, with success or not. -/
def isFlush : Event → Bool
  | .flushed _ => true
  | _ => false

/-- The bytes that were written. -/
def written : Event → List UInt8
  | .wrote (.ok bytes) => bytes
  | _ => []

end Event

/-- What a log shows of a stream. -/
structure Report where
  /-- The room that each completed read offered. -/
  readRooms : List Nat
  writes : Nat
  written : List UInt8
  flushes : Nat
  /-- The moments at which the stream was closed. -/
  closes : List Nat
deriving DecidableEq, Repr

namespace Report

/-- The report on a list of events. -/
def ofEvents (events : List (Nat × Event)) : Report where
  readRooms := events.filterMap fun e ↦ e.2.room?
  writes := events.countP fun e ↦ e.2.isWrite
  written := events.flatMap fun e ↦ e.2.written
  flushes := events.countP fun e ↦ e.2.isFlush
  closes := events.filterMap fun e ↦ if e.2 = .closed then some e.1 else none

/-- The report on a stream to which nothing happened. -/
def untouched : Report := ofEvents []

end Report

end Overlay.Handshake
