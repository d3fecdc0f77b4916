import Overlay.Host.Switchboard

/-!
# The session of a host

Commands from all who hold on to a host are queued and carried out one by one, in between
with the reports of the network. A shutdown ends the session when its turn comes: requests
that are parked or still queued then, and all that come later, are answered as closed. A session
also ends when nobody holds on to the host any more and nothing is queued.
-/

namespace Overlay.Host

/-- A host with its queue. -/
structure Session where
  board : Switchboard
  queue : List (Ticket × Command)
  running : Bool

namespace Session

/-- A session that begins. -/
def start (board : Switchboard) : Session := ⟨board, [], true⟩

/-- What can happen in a session. -/
inductive Happening where
  /-- Somebody makes a request. -/
  | submit (ticket : Ticket) (command : Command)
  /-- The first request of the queue has its turn; the network gives the answer to the call
  it makes, if any. -/
  | turn (answer : Answer)
  /-- The network reports something. -/
  | report (event : Event)
  /-- Nobody holds on to the host any more. -/
  | release

/-- The replies to requests that are queued when the session ends. -/
def closedReplies (queue : List (Ticket × Command)) : Replies :=
  queue.map fun (ticket, command) ↦ (ticket, command.closedReply)

/-- Takes a request; after the end it is answered as closed. -/
def submit (s : Session) (ticket : Ticket) (command : Command) : Session × Replies :=
  if s.running then ({ s with queue := s.queue ++ [(ticket, command)] }, [])
  else (s, [(ticket, command.closedReply)])

/-- The session at its end: nothing is parked or queued any more. -/
def ended (s : Session) : Session :=
  ⟨{ s.board with dials := [], reservations := [], bootstraps := [] }, [], false⟩

/-- Carries out the first request of the queue. -/
def turn (s : Session) (answer : Answer) : Session × Replies :=
  match s.queue with
  | [] => (s, [])
  | (ticket, .shutdown) :: queue =>
    (s.ended, (ticket, .stopping) :: s.board.parked ++ closedReplies queue)
  | (ticket, command) :: queue =>
    let (board, replies) := s.board.handle ticket command answer
    ({ s with board, queue }, replies)

/-- The call that the first request of the queue makes. -/
def call? (s : Session) : Option Call :=
  match s.queue with
  | [] => none
  | (_, command) :: _ => s.board.call? command

/-- Takes notice of a report. -/
def report (s : Session) (event : Event) : Session × Replies :=
  if s.running then
    let (board, replies) := s.board.onEvent event
    ({ s with board }, replies)
  else (s, [])

/-- Ends the session if nothing is queued. -/
def release (s : Session) : Session × Replies :=
  match s.running, s.queue with
  | true, [] => (s.ended, s.board.parked)
  | _, _ => (s, [])

/-- The session and the replies after one thing has happened. -/
def step (s : Session) : Happening → Session × Replies
  | .submit ticket command => s.submit ticket command
  | .turn answer => s.turn answer
  | .report event => s.report event
  | .release => s.release

/-- The session and the replies after a list of things has happened. -/
def run (s : Session) : List Happening → Session × Replies
  | [] => (s, [])
  | h :: rest =>
    let (s, first) := s.step h
    let (s, more) := s.run rest
    (s, first ++ more)

end Session

end Overlay.Host
