import Overlay.Proofs.Host.Requests

/-!
# What a granted reservation says

A reservation is granted by the report that the relay has accepted it, with the address under which
the request was parked and the id of the host behind it. That this is the address of the relay that
was asked for needs a look at where it comes from: a command parks what `Circuit.reservation` makes
of its own relay (`Booking`), a report answers with what is parked or not at all (`Granting`), and
in between nothing changes it.

So every parked reservation can be traced to a request that was made (`Vouched`), which holds from
bring-up on (`vouched_run`), and with it every reply that grants one (`Granted`).
-/

namespace Overlay.Host

/-- The address that a reply grants, if it grants a reservation. -/
def Reply.granted? : Reply → Option Multiaddr
  | .reserved (.ok addr) => some addr
  | _ => none

theorem Topic.granted?_closedReply (topic : Topic) : topic.closedReply.granted? = none := by
  cases topic <;> rfl

namespace Switchboard

variable {s : Switchboard}

/-! ### Commands -/

/-- All that a command can do about reservations: it leaves them alone, or it parks the one that it
asks for. It grants none. -/
inductive Booking (s : Switchboard) (ticket : Ticket) : Command → Switchboard × Replies → Prop
  | aside {command : Command} {next : Switchboard} {replies : Replies}
      (hid : next.localId = s.localId) (hparked : next.reservations = s.reservations)
      (hgrants : ∀ r ∈ replies, r.2.granted? = none) : Booking s ticket command (next, replies)
  | parked {relay : Contact} {addr : Multiaddr} {listener : Nat} {next : Switchboard}
      {replies : Replies} (haddr : Circuit.reservation relay = .ok addr)
      (hid : next.localId = s.localId)
      (hparked : next.reservations =
        Keyed.put relay.id ⟨listener, addr, ticket⟩ s.reservations)
      (hgrants : ∀ r ∈ replies, r.2.granted? = none) :
      Booking s ticket (.reserve relay) (next, replies)

/-- A command that is answered at once with something else than a reservation. -/
theorem Booking.of_answer {ticket : Ticket} {command : Command} {next : Switchboard}
    {reply : Reply} (hid : next.localId = s.localId)
    (hparked : next.reservations = s.reservations) (hreply : reply.granted? = none) :
    Booking s ticket command (next, [(ticket, reply)]) :=
  .aside hid hparked (List.forall_mem_singleton.2 hreply)

/-- A command that is parked elsewhere. -/
theorem Booking.of_silence {ticket : Ticket} {command : Command} {next : Switchboard}
    (hid : next.localId = s.localId) (hparked : next.reservations = s.reservations) :
    Booking s ticket command (next, []) :=
  .aside hid hparked (List.forall_mem_nil _)

theorem booking_connect (s : Switchboard) (ticket : Ticket) (contact : Contact)
    (answer : Answer) : Booking s ticket (.connect contact) (s.connect ticket contact answer) := by
  rw [connect]
  split
  · exact .of_answer rfl rfl rfl
  · dsimp only
    split
    · exact .of_answer rfl rfl rfl
    · split
      · exact .of_silence rfl rfl
      · exact .of_answer rfl rfl rfl

theorem booking_reserve (s : Switchboard) (ticket : Ticket) (relay : Contact) (answer : Answer) :
    Booking s ticket (.reserve relay) (s.reserve ticket relay answer) := by
  rw [reserve]
  split
  · exact .of_answer rfl rfl rfl
  · next addr haddr =>
    dsimp only
    split
    · refine .parked haddr rfl rfl ?_
      -- the one reply there can be denies an earlier request
      split
      · exact List.forall_mem_nil _
      · exact List.forall_mem_singleton.2 rfl
    · exact .of_answer rfl rfl rfl

theorem booking_bootstrapRouting (s : Switchboard) (ticket : Ticket) (answer : Answer) :
    Booking s ticket .bootstrapRouting (s.bootstrapRouting ticket answer) := by
  unfold bootstrapRouting
  split
  · split
    · exact .of_silence rfl rfl
    · exact .of_answer rfl rfl rfl
  · exact .of_answer rfl rfl rfl

/-- **What a command does about reservations.** -/
theorem booking (s : Switchboard) (ticket : Ticket) (command : Command) (answer : Answer) :
    Booking s ticket command (s.handle ticket command answer) := by
  cases command with
  | connect contact => exact s.booking_connect ticket contact answer
  | reserve relay => exact s.booking_reserve ticket relay answer
  | bootstrapRouting => exact s.booking_bootstrapRouting ticket answer
  | routingPeers => exact .of_answer rfl rfl rfl
  | listenAddresses => exact .of_answer rfl rfl rfl
  | externalAddresses => exact .of_answer rfl rfl rfl
  | connectedPeers => exact .of_answer rfl rfl rfl
  | shutdown => exact .of_answer rfl rfl rfl

/-! ### Reports -/

/-- All that a report can do about reservations: some may go, and one may be granted, with the
address under which it is parked. None is added. -/
inductive Granting (s : Switchboard) : Event → Switchboard × Replies → Prop
  | nothing {event : Event} {next : Switchboard} {replies : Replies}
      (hid : next.localId = s.localId) (hparked : next.reservations ⊆ s.reservations)
      (hgrants : ∀ r ∈ replies, r.2.granted? = none) : Granting s event (next, replies)
  | granted {relay : PeerId} {pending : ParkedReservation} {next : Switchboard}
      (hpending : Keyed.find? relay s.reservations = some pending)
      (hid : next.localId = s.localId) (hparked : next.reservations ⊆ s.reservations) :
      Granting s (.reservationAccepted relay)
        (next, [(pending.ticket, .reserved (.ok (pending.addr ++ [.peer s.localId])))])

/-- A report that leaves the reservations alone and is not about them. -/
theorem Granting.of_silence {event : Event} {next : Switchboard} (hid : next.localId = s.localId)
    (hparked : next.reservations = s.reservations) : Granting s event (next, []) :=
  .nothing hid (hparked ▸ List.Subset.refl _) (List.forall_mem_nil _)

/-- In either case the host keeps its id, and no reservation is added. -/
theorem Granting.keeps {event : Event} {outcome : Switchboard × Replies}
    (h : Granting s event outcome) :
    outcome.1.localId = s.localId ∧ outcome.1.reservations ⊆ s.reservations := by
  cases h with
  | nothing hid hparked _ => exact ⟨hid, hparked⟩
  | granted _ hid hparked => exact ⟨hid, hparked⟩

theorem granting_answerDial {board : Switchboard} (hid : board.localId = s.localId)
    (hparked : board.reservations = s.reservations) (event : Event) (connection : Nat)
    (result : Dialed) : Granting s event (board.answerDial connection result) := by
  rw [answerDial]
  split
  · exact .of_silence hid hparked
  · exact .nothing hid (hparked ▸ List.Subset.refl _) (List.forall_mem_singleton.2 rfl)

theorem granting_answerBootstrap (s : Switchboard) (event : Event) (query : Nat)
    (result : Except RoutingError Unit) :
    Granting s event (s.answerBootstrap query result) := by
  rw [answerBootstrap]
  split
  · exact .of_silence rfl rfl
  · exact .nothing rfl (List.Subset.refl _) (List.forall_mem_singleton.2 rfl)

theorem granting_dropListener (s : Switchboard) (event : Event) (id : Nat) (reason : String) :
    Granting s event (s.dropListener id reason) := by
  rw [dropListener]
  split
  · exact .nothing rfl (Keyed.remove_subset _ _) (List.forall_mem_singleton.2 rfl)
  · split
    · exact .of_silence rfl rfl
    · dsimp only
      split <;> exact .of_silence rfl rfl

/-- **What a report does about reservations.** -/
theorem granting (s : Switchboard) (event : Event) : Granting s event (s.onEvent event) := by
  cases event with
  | established connection peer addr dialer =>
    rw [onEvent]
    refine granting_answerDial ?_ ?_ _ connection _
    · rfl
    · rfl
  | dialFailed connection refusal => exact granting_answerDial rfl rfl _ connection _
  | disconnected peer remaining =>
    rw [onEvent]
    split <;> exact .of_silence rfl rfl
  | identified peer addrs => exact .of_silence rfl rfl
  | listening id addr =>
    rw [onEvent]
    split
    · exact .of_silence rfl rfl
    · dsimp only
      split <;> exact .of_silence rfl rfl
  | expired id addr =>
    rw [onEvent]
    split <;> exact .of_silence rfl rfl
  | listenerFailed id reason => exact s.granting_dropListener _ id reason
  | listenerClosed id reason => exact s.granting_dropListener _ id _
  | reservationAccepted relay =>
    rw [onEvent]
    split
    · exact .of_silence rfl rfl
    · next pending hpending => exact .granted hpending rfl (Keyed.remove_subset _ _)
  | bootstrapProgressed query result last =>
    rw [onEvent.eq_def]
    dsimp only
    split
    · exact s.granting_answerBootstrap _ query _
    · exact s.granting_answerBootstrap _ query _
    · exact .of_silence rfl rfl

end Switchboard

namespace Session

/-- A reservation that was asked for under a number, and the address of its relay. -/
def Asked (requests : List (Ticket × Command)) (ticket : Ticket) (addr : Multiaddr) : Prop :=
  ∃ relay, (ticket, .reserve relay) ∈ requests ∧ Circuit.reservation relay = .ok addr

/-- What holds of a session of a host at every moment, if some requests have been made: what is
queued is among them, and so is what every parked reservation was asked for. -/
structure Vouched (localId : PeerId) (requests : List (Ticket × Command)) (s : Session) :
    Prop where
  localId : s.board.localId = localId
  queued : s.queue ⊆ requests
  parked : ∀ x ∈ s.board.reservations, Asked requests x.2.ticket x.2.addr

/-- Whatever some replies grant was asked for, and is the address of the relay with the host's own
id behind it. -/
def Granted (localId : PeerId) (requests : List (Ticket × Command)) (replies : Replies) : Prop :=
  ∀ r ∈ replies, ∀ addr ∈ r.2.granted?,
    ∃ base, Asked requests r.1 base ∧ addr = base ++ [.peer localId]

variable {localId : PeerId} {requests more : List (Ticket × Command)} {s : Session}

theorem Asked.mono {ticket : Ticket} {addr : Multiaddr} (h : Asked requests ticket addr)
    (hmore : requests ⊆ more) : Asked more ticket addr := by
  obtain ⟨relay, hmem, haddr⟩ := h
  exact ⟨relay, hmore hmem, haddr⟩

theorem Vouched.mono (h : s.Vouched localId requests) (hmore : requests ⊆ more) :
    s.Vouched localId more where
  localId := h.localId
  queued := List.Subset.trans h.queued hmore
  parked x hx := (h.parked x hx).mono hmore

theorem Granted.mono {replies : Replies} (h : Granted localId requests replies)
    (hmore : requests ⊆ more) : Granted localId more replies := by
  intro r hr addr haddr
  obtain ⟨base, hasked, heq⟩ := h r hr addr haddr
  exact ⟨base, hasked.mono hmore, heq⟩

theorem Granted.append {replies later : Replies} (h : Granted localId requests replies)
    (h' : Granted localId requests later) : Granted localId requests (replies ++ later) :=
  fun r hr ↦ (List.mem_append.1 hr).elim (h r) (h' r)

theorem granted_of_forall_eq_none {replies : Replies} (h : ∀ r ∈ replies, r.2.granted? = none) :
    Granted localId requests replies := by
  intro r hr addr haddr
  rw [h r hr] at haddr
  cases haddr

theorem granted_nil : Granted localId requests [] :=
  granted_of_forall_eq_none (List.forall_mem_nil _)

/-- A turn: what is parked, if anything, is what the command asks for. -/
theorem Vouched.handled (hs : s.Vouched localId requests) {ticket : Ticket} {command : Command}
    {queue : List (Ticket × Command)} (hqueue : s.queue = (ticket, command) :: queue)
    (answer : Answer) :
    Vouched localId requests
        { s with board := (s.board.handle ticket command answer).1, queue } ∧
      Granted localId requests (s.board.handle ticket command answer).2 := by
  have hmade := hs.queued
  rw [hqueue] at hmade
  obtain ⟨hcommand, hrest⟩ := List.cons_subset.1 hmade
  have hbooking := s.board.booking ticket command answer
  generalize s.board.handle ticket command answer = outcome at hbooking ⊢
  cases hbooking with
  | aside hid hparked hgrants =>
    exact ⟨⟨hid.trans hs.localId, hrest, hparked ▸ hs.parked⟩,
      granted_of_forall_eq_none hgrants⟩
  | parked haddr hid hparked hgrants =>
    refine ⟨⟨hid.trans hs.localId, hrest, fun x hx ↦ ?_⟩, granted_of_forall_eq_none hgrants⟩
    rw [hparked] at hx
    rcases Keyed.mem_put hx with rfl | hx
    · exact ⟨_, hcommand, haddr⟩
    · exact hs.parked x hx

/-- A report: what is granted, if anything, is what was parked. -/
theorem Vouched.noticed (hs : s.Vouched localId requests) (event : Event) :
    Vouched localId requests { s with board := (s.board.onEvent event).1 } ∧
      Granted localId requests (s.board.onEvent event).2 := by
  have hgranting := s.board.granting event
  obtain ⟨hid, hparked⟩ := hgranting.keeps
  refine ⟨⟨hid.trans hs.localId, hs.queued, fun x hx ↦ hs.parked x (hparked hx)⟩, ?_⟩
  generalize s.board.onEvent event = outcome at hgranting
  cases hgranting with
  | nothing _ _ hgrants => exact granted_of_forall_eq_none hgrants
  | granted hpending _ _ =>
    intro r hr addr haddr
    rw [List.mem_singleton.1 hr] at haddr ⊢
    cases haddr
    exact ⟨_, hs.parked _ (Keyed.mem_of_find? hpending), by rw [hs.localId]⟩

/-- **One thing that happens** keeps every reservation accounted for. -/
theorem Vouched.step (hs : s.Vouched localId requests) (happening : Happening) :
    Vouched localId (requests ++ happening.request?.toList) (s.step happening).1 ∧
      Granted localId (requests ++ happening.request?.toList) (s.step happening).2 := by
  have hstay := hs.mono (List.subset_append_left requests happening.request?.toList)
  have hstep := s.stepped happening
  generalize s.step happening = next at hstep ⊢
  cases hstep with
  | asked hrunning =>
    refine ⟨⟨hs.localId, ?_, hstay.parked⟩, granted_nil⟩
    exact List.append_subset.2 ⟨hstay.queued, List.subset_append_right _ _⟩
  | @refused ticket command hrunning =>
    refine ⟨hstay, granted_of_forall_eq_none (List.forall_mem_singleton.2 ?_)⟩
    rw [Command.closedReply_eq]
    exact command.topic.granted?_closedReply
  | handled hqueue hcommand => exact hstay.handled hqueue _
  | noticed hrunning => exact hstay.noticed _
  | ended hrequest hnumber hreplies =>
    refine ⟨⟨hs.localId, List.nil_subset _, List.forall_mem_nil _⟩, ?_⟩
    refine granted_of_forall_eq_none fun r hr ↦ ?_
    rw [hreplies.mem_iff, closedReplies_eq, parked_eq, ← List.map_append] at hr
    obtain ⟨x, -, rfl⟩ := List.mem_map.1 hr
    exact x.2.topic.granted?_closedReply
  | idle hrequest hnumber => exact ⟨hstay, granted_nil⟩

/-- **Along a run** every reservation is accounted for. -/
theorem Vouched.run (hs : s.Vouched localId more) (happenings : List Happening) :
    Vouched localId (more ++ Session.requests happenings) (s.run happenings).1 ∧
      Granted localId (more ++ Session.requests happenings) (s.run happenings).2 := by
  induction happenings generalizing s more with
  | nil =>
    rw [Session.requests, List.filterMap_nil, List.append_nil]
    exact ⟨hs, granted_nil⟩
  | cons happening rest ih =>
    obtain ⟨hnext, hfirst⟩ := hs.step happening
    obtain ⟨hlast, hlater⟩ := ih hnext
    rw [requests_cons, ← List.append_assoc, run_cons]
    exact ⟨hlast, (hfirst.mono (List.subset_append_left _ _)).append hlater⟩

/-- A host that was brought up goes by the id with which it was. -/
theorem localId_bringUp {role : Role} {port : UInt16} {scope : ListenScope} {ground : Ground}
    {reports left : List Event} {board : Switchboard}
    (h : bringUp role localId port scope ground reports = .ok (board, left)) :
    board.localId = localId := by
  exact Switchboard.bringUp_invariant (P := fun s ↦ s.localId = localId) (fun _ _ ↦ rfl)
    (fun _ _ hs ↦ hs) (fun _ hs ↦ hs) (fun s event hs ↦ (s.granting event).keeps.1.trans hs) h

/-- **From bring-up on** every reservation, parked or granted, is accounted for. -/
theorem vouched_run {role : Role} {port : UInt16} {scope : ListenScope} {ground : Ground}
    {reports left : List Event} {board : Switchboard}
    (h : bringUp role localId port scope ground reports = .ok (board, left))
    (happenings : List Happening) :
    Vouched localId (Session.requests happenings) ((start board).run happenings).1 ∧
      Granted localId (Session.requests happenings) ((start board).run happenings).2 := by
  have hnone : board.reservations = [] := congrArg Waiting.reservations (waiting_bringUp h)
  have hstart : (start board).Vouched localId [] :=
    ⟨localId_bringUp h, List.nil_subset _, fun x hx ↦ absurd (hnone ▸ hx) List.not_mem_nil⟩
  exact hstart.run happenings

end Session

end Overlay.Host
