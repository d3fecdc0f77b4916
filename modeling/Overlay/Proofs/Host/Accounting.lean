import Overlay.Proofs.Host.Requests

/-!
# Every request is accounted for

From bring-up on, every request that was ever made of a host is at exactly one place at every
moment: in the queue, parked under a number of the network, or answered (`request_in_one_place`).
What `Requests` says of a run is put together here with what single turns do: a second request for a
reservation with the same relay (`turn_reserve_again`), and one to which the network gives no number
(`turn_of_number?_eq_none`).
-/

namespace Overlay.Host.Session

variable {s : Session} {numbers : List Subject} {replies : Replies} {ticket : Ticket}

/-! ### Where a request is -/

theorem mem_held_of_places {place : Place} (h : s.places replies ticket = [place]) :
    (ticket, place) ∈ s.held replies := by
  have hmem : place ∈ s.places replies ticket := h ▸ List.mem_singleton_self place
  obtain ⟨x, hx, rfl⟩ := List.mem_map.1 hmem
  obtain ⟨hheld, hticket⟩ := List.mem_filter.1 hx
  exact of_decide_eq_true hticket ▸ hheld

/-- A request that is held is answered, or it is queued or parked. -/
theorem mem_held {place : Place} (h : (ticket, place) ∈ s.held replies) :
    (ticket, place) ∈ queued s.queue ++ s.board.waiting.places ∨
      ∃ reply, place = .answered reply ∧ (ticket, reply) ∈ replies := by
  rw [held, ← List.append_assoc, List.mem_append] at h
  refine h.imp_right fun hanswered ↦ ?_
  obtain ⟨r, hr, heq⟩ := List.mem_map.1 hanswered
  cases heq
  exact ⟨r.2, rfl, hr⟩

theorem mem_replies {reply : Reply} (h : (ticket, .answered reply) ∈ s.held replies) :
    (ticket, reply) ∈ replies := by
  rcases mem_held h with hwaits | ⟨_, heq, hmem⟩
  · have hopen := (List.mem_append.1 hwaits).elim (isOpen_queued _) (isOpen_waiting _)
    cases hopen
  · cases heq
    exact hmem

/-- From bring-up on each request is at one place. -/
theorem exists_place_run {board : Switchboard} (hboard : board.waiting = .empty)
    {happenings : List Happening} (htickets : ((requests happenings).map Prod.fst).Nodup)
    (hfresh : ((start board).issued happenings).Nodup) {command : Command}
    (hrequest : (ticket, command) ∈ requests happenings) :
    ∃ place,
      ((start board).run happenings).1.places ((start board).run happenings).2 ticket = [place] ∧
        place.Suits command := by
  have hpasses := passes_run (orderly_start hboard) [] hfresh
  have hnothing : (start board).held [] = [] := by
    rw [held, start, hboard]
    rfl
  rw [hnothing, List.append_nil] at hpasses
  exact hpasses.exists_place htickets hrequest

/-! ### Single turns -/

/-- A request to which the network gives no number is answered at once, and what is parked stays
parked. -/
theorem turn_of_number?_eq_none (hs : s.Orderly numbers) {command : Command}
    {queue : List (Ticket × Command)} (hqueue : s.queue = (ticket, command) :: queue)
    (hcommand : command ≠ .shutdown) {answer : Answer}
    (hnone : s.number? (.turn answer) = none) :
    (s.turn answer).1.board.waiting = s.board.waiting ∧
      ∃ reply, (s.turn answer).2 = [(ticket, reply)] ∧ reply.topic = command.topic := by
  have hhandled := hs.handled hqueue (fun x hx ↦ by cases hnone.symm.trans hx)
  rw [hnone] at hhandled
  rw [turn_of_queue hqueue hcommand]
  exact hhandled.eq_of_none

/-- **A second request for a reservation** with the same relay, if the network accepts its call: the
first is denied as superseded, the relay stands for the second, and the listener of the first for
nothing any more. -/
theorem turn_reserve_again (hs : s.Orderly numbers) {relay : Contact}
    {queue : List (Ticket × Command)} (hqueue : s.queue = (ticket, .reserve relay) :: queue)
    {earlier : ParkedReservation}
    (hearlier : Keyed.find? relay.id s.board.reservations = some earlier) {addr : Multiaddr}
    (haddr : Circuit.reservation relay = .ok addr) {listener : Nat}
    (hfresh : ∀ x ∈ s.number? (.turn (.ok listener)), x ∉ numbers) :
    (s.turn (.ok listener)).2 = [(earlier.ticket, .reserved (.error (.denied "superseded")))] ∧
      (s.turn (.ok listener)).1.board.waiting.under (.relay relay.id) = [ticket] ∧
      .listener earlier.listener ∈ numbers ∧
      .listener earlier.listener ∉ subjects (s.turn (.ok listener)).1.board.waiting.places := by
  have hturn : s.turn (.ok listener) =
      ({ s with
          board := { s.board with
            book := s.board.book.learn relay
            reservations := Keyed.put relay.id ⟨listener, addr, ticket⟩ s.board.reservations }
          queue },
        [(earlier.ticket, .reserved (.error (.denied "superseded")))]) := by
    rw [turn_of_queue hqueue (fun h ↦ by cases h), Switchboard.handle, Switchboard.reserve, haddr]
    dsimp only
    rw [hearlier]
  have hnumber : s.number? (.turn (.ok listener)) = some (.listener listener) := by
    have hcall : s.board.call? (.reserve relay) = some (.listen addr) := by
      rw [Switchboard.call?, haddr]
    rw [number?, hqueue]
    exact Switchboard.number?_of_call hcall listener
  have hdistinct := (hs.step hfresh).distinct
  have hsubject : Subject.listener earlier.listener ∈ subjects s.board.waiting.places :=
    Waiting.listener_mem_subjects.2 ⟨_, (Keyed.find?_eq_some_iff_mem
      hs.distinct.nodup_reservations _ _).1 hearlier, rfl⟩
  have hissued : Subject.listener earlier.listener ∈ numbers := by
    refine (hs.numbered _ hsubject).resolve_right ?_
    rintro ⟨id, h⟩
    cases h
  rw [step, hturn] at hdistinct
  rw [hturn]
  refine ⟨rfl, ?under, hissued, ?gone⟩
  case under =>
    have hfind := Keyed.find?_put_self relay.id ⟨listener, addr, ticket⟩ s.board.reservations
    exact Waiting.under_eq_singleton hdistinct (Waiting.perm_of_reservation hdistinct hfind)
      List.mem_cons_self
  case gone =>
    refine Waiting.listener_notMem_put hs.distinct hearlier ?_
    rintro rfl
    exact hfresh _ hnumber hissued

/-- The listener of a request that was superseded is of no account ever after. -/
theorem silent_after_reserve_again (hs : s.Orderly numbers) {relay : Contact}
    {queue : List (Ticket × Command)} (hqueue : s.queue = (ticket, .reserve relay) :: queue)
    {earlier : ParkedReservation}
    (hearlier : Keyed.find? relay.id s.board.reservations = some earlier) {addr : Multiaddr}
    (haddr : Circuit.reservation relay = .ok addr) {listener : Nat} {after : List Happening}
    (hfresh : (numbers ++ s.issued (.turn (.ok listener) :: after)).Nodup) :
    .listener earlier.listener ∉
      subjects ((s.turn (.ok listener)).1.run after).1.board.waiting.places := by
  have hnew := fresh_head hfresh
  obtain ⟨-, -, hissued, hgone⟩ := turn_reserve_again hs hqueue hearlier haddr hnew
  exact silent_run (hs.step hnew) (fresh_tail hfresh) (List.mem_append_left _ hissued)
    (fun _ h ↦ by cases h) hgone

/-- **A report answers what is parked under its subject**, and nothing else. -/
theorem tickets_report (hs : s.Orderly numbers) (event : Event) :
    (s.step (.report event)).2.map Prod.fst =
      (event.about?.map s.board.waiting.under).getD [] := by
  rw [step, report]
  split
  · exact (hs.noticed event).tickets_eq hs.distinct
  · next hrunning =>
    rw [(hs.ended (Bool.not_eq_true _ ▸ hrunning)).2]
    cases event.about? <;> rfl

theorem running_turn_shutdown {queue : List (Ticket × Command)}
    (hqueue : s.queue = (ticket, .shutdown) :: queue) (answer : Answer) :
    (s.turn answer).1.running = false := by
  rw [turn, hqueue]
  rfl

/-! ### The whole account -/

/-- **No request is lost and none is answered twice.** A host was brought up, then anything happened
to it in any order, every request was made under a number of its own, and the network gave out
no number twice. Then, at the end of the run and so at every moment,

1. each request is at exactly one place, which suits it: it is queued, or parked under one key of
   one table, or answered by one reply; and it is answered as closed only if the session has ended;
2. a turn in which the network gives out no number is answered at once, and parks nothing;
3. if a second request for a reservation with the same relay had its turn in the run, the first was
   denied as superseded there and then, only the second was parked, and no report about the
   listener of the first answers anything any more;
4. a report answers what is parked under the subject that it names: nothing, if it names none or
   nothing is parked under it;
5. the turn of a shutdown ends the session, and what ends the session answers as closed whatever
   was asked and not answered;
6. after the end nothing that happens has an effect, and requests are answered as closed. -/
theorem request_in_one_place {role : Role} {localId : PeerId} {port : UInt16}
    {scope : ListenScope} {ground : Ground} {reports left : List Event} {board : Switchboard}
    (hup : bringUp role localId port scope ground reports = .ok (board, left))
    (happenings : List Happening) (htickets : ((requests happenings).map Prod.fst).Nodup)
    (hfresh : ((start board).issued happenings).Nodup) :
    let s := ((start board).run happenings).1
    let replies := ((start board).run happenings).2
    (∀ ticket command, (ticket, command) ∈ requests happenings →
      ∃ place, s.places replies ticket = [place] ∧ place.Suits command ∧
        ∀ reply, place = .answered reply → reply.isHostClosed = true → s.running = false) ∧
    (∀ ticket command queue answer, s.queue = (ticket, command) :: queue →
      command ≠ .shutdown → s.number? (.turn answer) = none →
        (s.turn answer).1.board.waiting = s.board.waiting ∧
          ∃ reply, (s.turn answer).2 = [(ticket, reply)] ∧ reply.topic = command.topic) ∧
    (∀ before after listener, happenings = before ++ .turn (.ok listener) :: after →
      let asked := ((start board).run before).1
      ∀ ticket relay queue, asked.queue = (ticket, .reserve relay) :: queue →
        ∀ addr, Circuit.reservation relay = .ok addr →
          ∀ earlier, Keyed.find? relay.id asked.board.reservations = some earlier →
            (asked.turn (.ok listener)).2 =
                [(earlier.ticket, .reserved (.error (.denied "superseded")))] ∧
              (asked.turn (.ok listener)).1.board.waiting.under (.relay relay.id) = [ticket] ∧
              ∀ event, event.about? = some (.listener earlier.listener) →
                (s.step (.report event)).2 = []) ∧
    (∀ event, (s.step (.report event)).2.map Prod.fst =
      (event.about?.map s.board.waiting.under).getD []) ∧
    (∀ ticket queue answer, s.queue = (ticket, .shutdown) :: queue →
      (s.step (.turn answer)).1.running = false) ∧
    (∀ happening, (s.step happening).1.running = false →
      ∀ ticket command, (ticket, command) ∈ requests happenings →
        (∀ reply, (ticket, reply) ∉ replies) →
          (ticket, command.closedReply) ∈ (s.step happening).2) ∧
    (s.running = false → ∀ happening,
      s.step happening = (s, happening.request?.toList.map fun r ↦ (r.1, r.2.closedReply))) := by
  intro s replies
  have hboard := waiting_bringUp hup
  have hstart := orderly_start hboard
  have hs : s.Orderly ([] ++ (start board).issued happenings) := hstart.run hfresh
  have hplaced (ticket : Ticket) (command : Command)
      (hrequest : (ticket, command) ∈ requests happenings) :
      ∃ place, s.places replies ticket = [place] ∧ place.Suits command :=
    exists_place_run hboard htickets hfresh hrequest
  refine ⟨?placed, ?refused, ?again, tickets_report hs, ?shutdown, ?closed, hs.step_of_ended⟩
  case placed =>
    intro ticket command hrequest
    obtain ⟨place, hplace, hsuits⟩ := hplaced ticket command hrequest
    refine ⟨place, hplace, hsuits, ?_⟩
    rintro reply rfl hclosed
    have hmem := mem_replies (mem_held_of_places hplace)
    refine Bool.eq_false_iff.2 fun hruns ↦ ?_
    have hopen := (not_isHostClosed_run hstart hfresh hruns).2 _ hmem
    cases hopen.symm.trans hclosed
  case refused =>
    exact fun ticket command queue answer hqueue hcommand hnone ↦
      turn_of_number?_eq_none hs hqueue hcommand hnone
  case again =>
    rintro before after listener rfl asked ticket relay queue hqueue addr haddr earlier hearlier
    rw [issued_append] at hfresh
    have hasked : asked.Orderly ([] ++ (start board).issued before) :=
      hstart.run (List.nodup_append.1 hfresh).1
    obtain ⟨hdenied, hunder, -, -⟩ :=
      turn_reserve_again hasked hqueue hearlier haddr (fresh_head hfresh)
    refine ⟨hdenied, hunder, fun event hevent ↦ ?_⟩
    have hgone := silent_after_reserve_again hasked hqueue hearlier haddr hfresh
    have hend : s = ((asked.turn (.ok listener)).1.run after).1 := by
      show ((start board).run (before ++ .turn (.ok listener) :: after)).1 = _
      rw [run_append, run_cons]
      rfl
    have htickets := tickets_report hs event
    rw [hevent, Option.map_some, Option.getD_some, hend,
      Waiting.under_eq_nil_iff.2 hgone] at htickets
    rw [hend]
    exact List.map_eq_nil_iff.1 htickets
  case shutdown => exact fun ticket queue answer hqueue ↦ running_turn_shutdown hqueue answer
  case closed =>
    intro happening hends ticket command hrequest hunanswered
    obtain ⟨place, hplace, hsuits⟩ := hplaced ticket command hrequest
    rcases mem_held (mem_held_of_places hplace) with hwaits | ⟨reply, -, hreply⟩
    · rw [Command.closedReply_eq, ← hsuits.topic_eq]
      exact hs.closed_of_ends hends hwaits
    · exact absurd hreply (hunanswered reply)

/-- Two requests for a reservation with one relay, and a shutdown with another request behind it:
the first is superseded and never hears of its listener again, the second waits under its own, and
the shutdown closes all that waits. -/
theorem request_in_one_place_of_superseded :
    let relay : Contact := ⟨⟨⟨0, [1]⟩, rfl⟩, [[.memory 7]]⟩
    let board := Switchboard.init ⟨⟨0, [4]⟩, rfl⟩ false false
    let happenings : List Happening :=
      [.submit 0 (.reserve relay), .turn (.ok 0), .submit 1 (.reserve relay), .turn (.ok 1),
        .submit 2 .shutdown, .submit 3 .listenAddresses]
    let s := ((start board).run happenings).1
    let replies := ((start board).run happenings).2
    ((requests happenings).map Prod.fst).Nodup ∧ ((start board).issued happenings).Nodup ∧
      s.places replies 0 = [.answered (.reserved (.error (.denied "superseded")))] ∧
      s.places replies 1 = [.reserving relay.id 1] ∧
      (s.step (.report (.listenerFailed 0 ""))).2 = [] ∧
      (s.step (.report (.listenerFailed 1 ""))).2.map Prod.fst = [1] ∧
      ∀ answer, (1, .reserved (.error .hostClosed)) ∈ (s.step (.turn answer)).2 ∧
        (3, .addresses []) ∈ (s.step (.turn answer)).2 := by
  intro relay board happenings s replies
  have hup : bringUp .mobileClient ⟨⟨0, [4]⟩, rfl⟩ 0 .loopback
      ⟨fun _ ↦ .ok (), fun n _ ↦ .ok n⟩ [] = .ok (board, []) := rfl
  have htickets : ((requests happenings).map Prod.fst).Nodup := by decide
  have hfresh : ((start board).issued happenings).Nodup := by decide
  obtain ⟨-, -, hagain, hreport, hshutdown, hclosed, -⟩ :=
    request_in_one_place hup happenings htickets hfresh
  have hreplies : replies = [(0, .reserved (.error (.denied "superseded")))] := rfl
  have hunanswered {ticket : Ticket} (h : ticket ≠ 0) : ∀ reply, (ticket, reply) ∉ replies :=
    fun reply hmem ↦ h (congrArg Prod.fst (List.mem_singleton.1 (hreplies ▸ hmem)))
  refine ⟨htickets, hfresh, rfl, rfl, ?_, hreport _, fun answer ↦ ?_⟩
  · have hsecond : happenings =
        happenings.take 3 ++ .turn (.ok 1) :: [.submit 2 .shutdown, .submit 3 .listenAddresses] :=
      rfl
    obtain ⟨-, -, hsilent⟩ := hagain _ _ 1 hsecond 1 relay [] rfl _ rfl _ rfl
    exact hsilent _ rfl
  · have hends := hshutdown 2 [(3, .listenAddresses)] answer rfl
    exact ⟨hclosed _ hends 1 (.reserve relay) (by decide) (hunanswered (by decide)),
      hclosed _ hends 3 .listenAddresses (by decide) (hunanswered (by decide))⟩

end Overlay.Host.Session
