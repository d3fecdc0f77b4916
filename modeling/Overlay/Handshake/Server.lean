import Overlay.Handshake.Task

/-!
# Serving streams

A server takes inbound streams from a source and answers each in a task of its own. It stops
taking streams when it is cancelled or when the source ends; tasks under way go on.

The server is a scheduler over one clock: of all the things that can happen next, a stream
that arrives, the end of the accept loop, or the next step of some task, the earliest
happens first (`Server.next?`). At one moment the accept loop goes before the tasks, and
earlier tasks before later ones.
-/

namespace Overlay.Handshake

/-- A stream on its way to a server. -/
structure Inbound where
  /-- The place of the stream in the list of streams. -/
  index : Nat
  arrival : Nat
  wire : Wire
deriving DecidableEq

/-- What a server takes streams from. -/
structure Source where
  /-- The streams still to come, in the order of their arrival. -/
  coming : List Inbound
  /-- The source has no end. -/
  keepOpen : Bool
deriving DecidableEq

namespace Source

/-- Streams that are handed over one after another: none arrives before its forerunner. -/
def queue : (now : Nat) → List Inbound → List Inbound
  | _, [] => []
  | now, s :: rest =>
    { s with arrival := max now s.arrival } :: queue (max now s.arrival) rest

/-- The source of a list of streams with the moments for which they are planned. Those
planned for the beginning are there from the start; the others follow in the order of the
list. -/
def ofPlan (plan : List (Nat × Wire)) (keepOpen : Bool) : Source :=
  let streams := plan.zipIdx.map fun ((arrival, wire), index) ↦ (⟨index, arrival, wire⟩ : Inbound)
  ⟨streams.filter (·.arrival == 0) ++ queue 0 (streams.filter (·.arrival != 0)), keepOpen⟩

end Source

/-- The task that answers a stream. -/
abbrev ResponderTask := Task Responder.State Verdict

/-- A stream that a server has taken: its place, its arrival, and the task that answers it. -/
structure Served where
  index : Nat
  arrival : Nat
  task : ResponderTask
deriving DecidableEq

/-- A server at work. -/
structure Server where
  source : Source
  /-- The moment of the last stream taken. -/
  now : Nat
  /-- When the accept loop ended. -/
  endedAt : Option Nat
  /-- The streams taken, in order. -/
  served : List Served
deriving DecidableEq

namespace Server

/-- A server before its first step. -/
def begin (source : Source) : Server := ⟨source, 0, none, []⟩

/-- The server after its accept loop has ended. -/
def stop (s : Server) (time : Nat) : Server := { s with endedAt := some time }

/-- The server after a stream has been taken. -/
def take (config : Config) (s : Server) (stream : Inbound) (rest : List Inbound) : Server :=
  { s with
    source := { s.source with coming := rest }
    now := stream.arrival
    served := s.served ++
      [⟨stream.index, stream.arrival,
        .begin (Responder.party config) stream.wire stream.arrival⟩] }

/-- The next thing the accept loop does. A cancellation that is visible goes first. -/
def loop? (config : Config) (cancelAt : Option Nat) (s : Server) : Option (Nat × Server) :=
  if s.endedAt.isSome then none
  else
    let cancelled := cancelAt.map fun c ↦ (max s.now c, s.stop (max s.now c))
    match s.source.coming with
    | [] =>
      if s.source.keepOpen then cancelled
      else some (s.now, s.stop s.now)
    | stream :: rest =>
      if cancelAt.all fun c ↦ stream.arrival < c then
        some (stream.arrival, s.take config stream rest)
      else cancelled

/-- The next step of each task, with the server after it. -/
def taskMoves (config : Config) (cancelAt : Option Nat) (s : Server) :
    (before : List Served) → (after : List Served) → List (Nat × Server)
  | _, [] => []
  | before, x :: after =>
    let others := taskMoves config cancelAt s (before ++ [x]) after
    match x.task.next? (Responder.party config) (config.limits cancelAt x.arrival) with
    | none => others
    | some (time, task) =>
      (time, { s with served := before ++ { x with task } :: after }) :: others

/-- The first of the earliest moves. -/
def earliest {α : Type} : List (Nat × α) → Option (Nat × α)
  | [] => none
  | move :: rest =>
    match earliest rest with
    | none => some move
    | some other => if other.1 < move.1 then some other else some move

/-- The next thing that happens, and when. -/
def next? (config : Config) (cancelAt : Option Nat) (s : Server) : Option (Nat × Server) :=
  earliest ((s.loop? config cancelAt).toList ++ s.taskMoves config cancelAt [] s.served)

/-- The server after at most `fuel` more things have happened. -/
def runFor (config : Config) (cancelAt : Option Nat) : (fuel : Nat) → Server → Server
  | 0, s => s
  | fuel + 1, s =>
    match s.next? config cancelAt with
    | none => s
    | some (_, s) => runFor config cancelAt fuel s

/-- How many more things can happen: the end of the accept loop, and for each stream its
arrival, the answers to its task, and the end of the task. -/
def budget (config : Config) (s : Server) : Nat :=
  let party := Responder.party config
  1 + s.source.coming.length * (party.remaining party.start + 2) +
    s.served.foldl (fun n x ↦ n + x.task.budget party) 0

/-- The server after everything has happened. -/
def run (config : Config) (cancelAt : Option Nat) (s : Server) : Server :=
  s.runFor config cancelAt (s.budget config)

/-- The task of the stream at a place of the list, if it was taken. -/
def taskOf? (s : Server) (index : Nat) : Option ResponderTask :=
  (s.served.find? fun x ↦ x.index == index).map Served.task

end Server

/-- Serves the streams of a source until nothing happens any more. -/
def serve (config : Config) (cancelAt : Option Nat) (source : Source) : Server :=
  (Server.begin source).run config cancelAt

end Overlay.Handshake
