import Overlay.Proofs.Host.Reached
import Overlay.Proofs.Host.Waiting

/-!
# No request is lost and none is answered twice

A session holds its requests in the queue, in the tables of its switchboard, and in the replies that
it has given (`held`). One thing that happens adds the request that it makes, if it makes one, and
moves others on (`passes_step`); so along a run the requests held are those that were made
(`passes_run`).

All this rests on the network's giving out a new number for every call it accepts, by which parked
requests stay apart (`Orderly`). The numbers that it gives out in a run are `issued`, and a run is
*fresh* if none of them is given out twice.
-/

namespace Overlay.Host

namespace Session

/-- The request that is made by a happening. -/
def Happening.request? : Happening → Option (Ticket × Command)
  | .submit ticket command => some (ticket, command)
  | _ => none

/-- The requests that are made while things happen. -/
def requests (happenings : List Happening) : List (Ticket × Command) :=
  happenings.filterMap Happening.request?

/-- Requests that wait for their turn. -/
def queued (requests : List (Ticket × Command)) : List (Ticket × Place) :=
  requests.map fun r ↦ (r.1, .queued r.2)

/-- The requests of a session with their places; `replies` are those that it has given. -/
def held (s : Session) (replies : Replies) : List (Ticket × Place) :=
  queued s.queue ++ (s.board.waiting.places ++ answers replies)

/-- All places at which the request of a number is. -/
def places (s : Session) (replies : Replies) (ticket : Ticket) : List Place :=
  ((s.held replies).filter fun x ↦ x.1 = ticket).map Prod.snd

/-- What the network numbers when something happens. -/
def number? (s : Session) : Happening → Option Subject
  | .turn answer =>
    match s.queue with
    | [] => none
    | (_, command) :: _ => s.board.number? command answer
  | _ => none

/-- What the network numbers while things happen. -/
def issued (s : Session) : List Happening → List Subject
  | [] => []
  | h :: rest => (s.number? h).toList ++ (s.step h).1.issued rest

/-- What holds of a session at every moment, if the network has given out some numbers: parked
requests are told apart by their subjects, which are among the numbers or are relays; and after the
end there is nothing in the queue or in the tables. -/
structure Orderly (s : Session) (numbers : List Subject) : Prop where
  distinct : s.board.waiting.Distinct
  numbered : ∀ x ∈ subjects s.board.waiting.places, x ∈ numbers ∨ ∃ id, x = .relay id
  ended : s.running = false → s.queue = [] ∧ s.board.waiting = .empty

theorem Orderly.mono {s : Session} {numbers more : List Subject} (hs : s.Orderly numbers)
    (h : numbers ⊆ more) : s.Orderly more where
  distinct := hs.distinct
  numbered x hx := (hs.numbered x hx).imp_left (@h x)
  ended := hs.ended

/-! ### One thing that happens -/

/-- All that a happening can come to. -/
inductive Stepped (s : Session) : Happening → Session × Replies → Prop
  | asked {ticket : Ticket} {command : Command} (hrunning : s.running = true) :
      Stepped s (.submit ticket command) ({ s with queue := s.queue ++ [(ticket, command)] }, [])
  | refused {ticket : Ticket} {command : Command} (hrunning : s.running = false) :
      Stepped s (.submit ticket command) (s, [(ticket, command.closedReply)])
  | handled {ticket : Ticket} {command : Command} {queue : List (Ticket × Command)}
      {answer : Answer} (hqueue : s.queue = (ticket, command) :: queue)
      (hcommand : command ≠ .shutdown) :
      Stepped s (.turn answer)
        ({ s with board := (s.board.handle ticket command answer).1, queue },
          (s.board.handle ticket command answer).2)
  | noticed {event : Event} (hrunning : s.running = true) :
      Stepped s (.report event)
        ({ s with board := (s.board.onEvent event).1 }, (s.board.onEvent event).2)
  | ended {happening : Happening} {replies : Replies} (hrequest : happening.request? = none)
      (hnumber : s.number? happening = none)
      (hreplies : replies.Perm (closedReplies s.queue ++ s.board.parked)) :
      Stepped s happening (s.ended, replies)
  | idle {happening : Happening} (hrequest : happening.request? = none)
      (hnumber : s.number? happening = none) : Stepped s happening (s, [])

theorem stepped_turn (s : Session) (answer : Answer) :
    Stepped s (.turn answer) (s.turn answer) := by
  obtain ⟨board, queue, running⟩ := s
  cases queue with
  | nil => exact .idle rfl rfl
  | cons first queue =>
    obtain ⟨ticket, command⟩ := first
    by_cases hcommand : command = .shutdown
    · subst hcommand
      refine .ended rfl rfl ?_
      exact List.perm_append_comm.cons (ticket, Reply.stopping)
    · rw [turn_of_queue rfl hcommand]
      exact .handled rfl hcommand

theorem stepped (s : Session) (happening : Happening) :
    Stepped s happening (s.step happening) := by
  cases happening with
  | submit ticket command =>
    rw [step, submit]
    split
    · next hrunning => exact .asked hrunning
    · next hrunning => exact .refused (Bool.not_eq_true _ ▸ hrunning)
  | turn answer => exact s.stepped_turn answer
  | report event =>
    rw [step, report]
    split
    · next hrunning => exact .noticed hrunning
    · exact .idle rfl rfl
  | release =>
    rw [step, release]
    split
    · next hrunning hqueue =>
      refine .ended rfl rfl ?_
      rw [hqueue]
      exact .refl _
    · exact .idle rfl rfl

/-! ### The end -/

/-- What is parked when a session ends is answered as closed. -/
theorem parked_eq (s : Switchboard) :
    s.parked = s.waiting.places.map fun x ↦ (x.1, x.2.topic.closedReply) := by
  simp [Switchboard.parked, Switchboard.waiting, Waiting.places, Place.topic, Topic.closedReply,
    Function.comp_def]

/-- And so is what is queued. -/
theorem closedReplies_eq (queue : List (Ticket × Command)) :
    closedReplies queue = (queued queue).map fun x ↦ (x.1, x.2.topic.closedReply) := by
  simp [closedReplies, queued, Place.topic, Command.closedReply_eq, Function.comp_def]

theorem isOpen_queued {queue : List (Ticket × Command)} :
    ∀ x ∈ queued queue, x.2.isOpen = true := by
  intro x hx
  obtain ⟨request, -, rfl⟩ := List.mem_map.1 hx
  rfl

theorem isOpen_waiting {w : Waiting} : ∀ x ∈ w.places, x.2.isOpen = true := by
  intro x hx
  simp only [Waiting.places, List.mem_append, List.mem_map] at hx
  rcases hx with (⟨d, -, rfl⟩ | ⟨r, -, rfl⟩) | ⟨b, -, rfl⟩ <;> rfl

/-- Every request without an answer is answered as closed. -/
theorem passes_closed (s : Session) :
    Passes (queued s.queue ++ s.board.waiting.places)
      (answers (closedReplies s.queue ++ s.board.parked)) := by
  have hopen : ∀ x ∈ queued s.queue ++ s.board.waiting.places, x.2.isOpen = true := fun x hx ↦
    (List.mem_append.1 hx).elim (isOpen_queued x) (isOpen_waiting x)
  have hall := Passes.answer_all (fun place ↦ place.topic.closedReply) fun x hx ↦
    ⟨hopen x hx, x.2.topic.topic_closedReply⟩
  rwa [closedReplies_eq, parked_eq, ← List.map_append, answers, List.map_map]

/-! ### What is held -/

theorem answers_append (replies more : Replies) :
    answers (replies ++ more) = answers replies ++ answers more :=
  List.map_append

theorem held_append (s : Session) (replies more : Replies) :
    s.held (replies ++ more) = s.held replies ++ answers more := by
  simp only [held, answers_append, List.append_assoc]

/-- What happens on the board alone moves requests that are held. -/
theorem passes_held {queue before places : List (Ticket × Place)} {replies more : Replies}
    (h : Passes before (places ++ answers more)) :
    Passes (queue ++ (before ++ answers replies))
      (queue ++ (places ++ answers (replies ++ more))) := by
  have hlast : ((places ++ answers more) ++ answers replies).Perm
      (places ++ answers (replies ++ more)) := by
    rw [List.append_assoc, answers_append]
    exact List.perm_append_comm.append_left places
  exact ((h.append_right _).trans (.perm hlast)).append_left queue

/-! ### What one thing that happens keeps -/

section Step

variable {s : Session} {numbers : List Subject} {happening : Happening}

theorem number?_ne_relay {id : PeerId} : s.number? happening ≠ some (.relay id) := by
  unfold number?
  split
  · split
    · exact fun h ↦ by cases h
    · exact s.board.number?_ne_relay
  · exact fun h ↦ by cases h

/-- A number that is new stands for no parked request. -/
theorem Orderly.notMem_subjects (hs : s.Orderly numbers)
    (hfresh : ∀ x ∈ s.number? happening, x ∉ numbers) :
    ∀ x ∈ s.number? happening, x ∉ subjects s.board.waiting.places := by
  intro x hx hmem
  rcases hs.numbered x hmem with hold | ⟨id, rfl⟩
  · exact hfresh x hx hold
  · exact number?_ne_relay hx

theorem Orderly.handled (hs : s.Orderly numbers) {ticket : Ticket} {command : Command}
    {queue : List (Ticket × Command)} (hqueue : s.queue = (ticket, command) :: queue)
    {answer : Answer} (hfresh : ∀ x ∈ s.number? (.turn answer), x ∉ numbers) :
    Handled s.board.waiting ticket command (s.number? (.turn answer))
      (s.board.handle ticket command answer).1.waiting
      (s.board.handle ticket command answer).2 := by
  have hnumber : s.number? (.turn answer) = s.board.number? command answer := by
    rw [number?, hqueue]
  have hnew := hs.notMem_subjects hfresh
  rw [hnumber] at hnew ⊢
  exact s.board.handled hs.distinct ticket command answer hnew

theorem Orderly.noticed (hs : s.Orderly numbers) (event : Event) :
    Noticed s.board.waiting event.about? (s.board.onEvent event).1.waiting
      (s.board.onEvent event).2 :=
  s.board.noticed hs.distinct event

/-- **One thing that happens** adds the request that it makes, and moves others on. -/
theorem passes_step (hs : s.Orderly numbers) (replies : Replies)
    (hfresh : ∀ x ∈ s.number? happening, x ∉ numbers) :
    Passes (queued happening.request?.toList ++ s.held replies)
      ((s.step happening).1.held (replies ++ (s.step happening).2)) := by
  have hstep := s.stepped happening
  generalize s.step happening = next at hstep ⊢
  cases hstep with
  | @asked ticket command hrunning =>
    show Passes ((ticket, .queued command) :: s.held replies)
      (queued (s.queue ++ [(ticket, command)]) ++
        (s.board.waiting.places ++ answers (replies ++ [])))
    rw [queued, List.map_append, List.append_assoc, List.append_nil]
    exact .perm List.perm_middle.symm
  | @refused ticket command hrunning =>
    have hanswer : Move (.queued command) (.answered command.closedReply) :=
      .answer rfl (by rw [Command.closedReply_eq, Topic.topic_closedReply]; rfl)
    show Passes ((ticket, .queued command) :: s.held replies)
      (s.held (replies ++ [(ticket, command.closedReply)]))
    rw [held_append]
    exact (Passes.move ticket _ hanswer).trans (.perm (List.perm_append_singleton _ _).symm)
  | handled hqueue hcommand =>
    show Passes (s.held replies) _
    rw [held, hqueue]
    -- the request at the head of the queue goes to the board, and the board moves it
    exact (Passes.perm List.perm_middle.symm).trans
      (passes_held (hs.handled hqueue hfresh).passes)
  | noticed hrunning => exact passes_held (hs.noticed _).passes
  | @ended happening more hrequest hnumber hreplies =>
    rw [hrequest]
    have hclosed := s.passes_closed.trans (.perm (hreplies.symm.map _))
    show Passes (s.held replies) (answers (replies ++ more))
    rw [held, ← List.append_assoc, answers_append]
    exact (hclosed.append_right _).trans (.perm List.perm_append_comm)
  | idle hrequest hnumber =>
    rw [hrequest, List.append_nil]
    exact .refl _

/-- A subject of a parked request was one before, or it is the number just given out, or a
relay. -/
theorem subjects_step (hs : s.Orderly numbers)
    (hfresh : ∀ x ∈ s.number? happening, x ∉ numbers) {x : Subject}
    (hx : x ∈ subjects (s.step happening).1.board.waiting.places) :
    x ∈ subjects s.board.waiting.places ∨ s.number? happening = some x ∨
      ∃ id, x = .relay id := by
  have hstep := s.stepped happening
  generalize s.step happening = next at hstep hx
  cases hstep with
  | asked hrunning => exact .inl hx
  | refused hrunning => exact .inl hx
  | handled hqueue hcommand => exact (hs.handled hqueue hfresh).subjects_subset hx
  | noticed hrunning => exact .inl ((hs.noticed _).subjects_subset hx)
  | ended hrequest hnumber hreplies => cases hx
  | idle hrequest hnumber => exact .inl hx

/-- A number that was given out and stands for no parked request still stands for none. -/
theorem silent_step (hs : s.Orderly numbers) (hfresh : ∀ x ∈ s.number? happening, x ∉ numbers)
    {x : Subject} (hissued : x ∈ numbers) (hrelay : ∀ id, x ≠ .relay id)
    (hx : x ∉ subjects s.board.waiting.places) :
    x ∉ subjects (s.step happening).1.board.waiting.places := by
  intro hmem
  rcases subjects_step hs hfresh hmem with hold | hnumber | ⟨id, hid⟩
  · exact hx hold
  · exact hfresh x hnumber hissued
  · exact hrelay id hid

/-- **An orderly session stays orderly**, if the network gives out a new number. -/
theorem Orderly.step (hs : s.Orderly numbers)
    (hfresh : ∀ x ∈ s.number? happening, x ∉ numbers) :
    (s.step happening).1.Orderly (numbers ++ (s.number? happening).toList) := by
  have hnumbered : ∀ x ∈ subjects (s.step happening).1.board.waiting.places,
      x ∈ numbers ++ (s.number? happening).toList ∨ ∃ id, x = .relay id := by
    intro x hx
    rcases subjects_step hs hfresh hx with hold | hnew | hrelay
    · exact (hs.numbered x hold).imp_left (List.mem_append_left _)
    · exact .inl (List.mem_append_right _ (Option.mem_toList.2 hnew))
    · exact .inr hrelay
  refine ⟨?distinct, hnumbered, ?ended⟩
  all_goals
    have hstep := s.stepped happening
    generalize s.step happening = next at hstep ⊢
  case distinct =>
    cases hstep with
    | asked hrunning => exact hs.distinct
    | refused hrunning => exact hs.distinct
    | handled hqueue hcommand =>
      exact (hs.handled hqueue hfresh).distinct hs.distinct (hs.notMem_subjects hfresh)
    | noticed hrunning => exact (hs.noticed _).distinct hs.distinct
    | ended hrequest hnumber hreplies => exact List.nodup_nil
    | idle hrequest hnumber => exact hs.distinct
  case ended =>
    intro hended
    cases hstep with
    | asked hrunning => cases hrunning.symm.trans hended
    | refused hrunning => exact hs.ended hended
    | handled hqueue hcommand =>
      rw [(hs.ended hended).1] at hqueue
      cases hqueue
    | noticed hrunning => cases hrunning.symm.trans hended
    | ended hrequest hnumber hreplies => exact ⟨rfl, rfl⟩
    | idle hrequest hnumber => exact hs.ended hended

/-- **After the end** nothing has an effect any more, and a request is answered as closed. -/
theorem Orderly.step_of_ended (hs : s.Orderly numbers) (hended : s.running = false)
    (happening : Happening) :
    s.step happening =
      (s, happening.request?.toList.map fun r ↦ (r.1, r.2.closedReply)) := by
  have hrunning : ¬ s.running = true := Bool.not_eq_true _ ▸ hended
  cases happening with
  | submit ticket command =>
    rw [Session.step, submit, if_neg hrunning]
    rfl
  | turn answer =>
    rw [Session.step, turn, (hs.ended hended).1]
    rfl
  | report event =>
    rw [Session.step, report, if_neg hrunning]
    rfl
  | release =>
    rw [Session.step, release, hended]
    rfl

/-- **At the end** every request that waits is answered as closed. -/
theorem Orderly.closed_of_ends (hs : s.Orderly numbers)
    (hends : (s.step happening).1.running = false) {ticket : Ticket} {place : Place}
    (hwaits : (ticket, place) ∈ queued s.queue ++ s.board.waiting.places) :
    (ticket, place.topic.closedReply) ∈ (s.step happening).2 := by
  -- whatever is queued or parked shows that the session has not ended before
  have hrunning : s.running ≠ false := by
    intro hended
    obtain ⟨hqueue, hwaiting⟩ := hs.ended hended
    rw [hqueue, hwaiting] at hwaits
    cases hwaits
  have hstep := s.stepped happening
  generalize s.step happening = next at hstep hends ⊢
  cases hstep with
  | asked _ => exact absurd hends hrunning
  | refused hended => exact absurd hended hrunning
  | handled hqueue hcommand => exact absurd hends hrunning
  | noticed _ => exact absurd hends hrunning
  | ended hrequest hnumber hreplies =>
    rw [closedReplies_eq, parked_eq, ← List.map_append] at hreplies
    exact hreplies.mem_iff.2 (List.mem_map.2 ⟨_, hwaits, rfl⟩)
  | idle hrequest hnumber => exact absurd hends hrunning

/-- Before the end no request is answered as closed. -/
theorem not_isHostClosed_step (hs : s.Orderly numbers)
    (hfresh : ∀ x ∈ s.number? happening, x ∉ numbers)
    (hruns : (s.step happening).1.running = true) :
    s.running = true ∧ ∀ x ∈ (s.step happening).2, x.2.isHostClosed = false := by
  have hstep := s.stepped happening
  generalize s.step happening = next at hstep hruns ⊢
  cases hstep with
  | asked hrunning => exact ⟨hrunning, fun x hx ↦ by cases hx⟩
  | refused hrunning => cases hrunning.symm.trans hruns
  | handled hqueue hcommand => exact ⟨hruns, (hs.handled hqueue hfresh).not_isHostClosed⟩
  | noticed hrunning => exact ⟨hrunning, (hs.noticed _).not_isHostClosed⟩
  | ended hrequest hnumber hreplies => cases hruns
  | idle hrequest hnumber => exact ⟨hruns, fun x hx ↦ by cases hx⟩

end Step

/-! ### Runs -/

section Run

variable {s : Session} {numbers : List Subject} {happenings : List Happening}

theorem issued_cons (s : Session) (happening : Happening) (rest : List Happening) :
    s.issued (happening :: rest) =
      (s.number? happening).toList ++ (s.step happening).1.issued rest := rfl

theorem run_cons (s : Session) (happening : Happening) (rest : List Happening) :
    s.run (happening :: rest) =
      (((s.step happening).1.run rest).1,
        (s.step happening).2 ++ ((s.step happening).1.run rest).2) := rfl

theorem run_append (s : Session) (before after : List Happening) :
    s.run (before ++ after) =
      (((s.run before).1.run after).1,
        (s.run before).2 ++ ((s.run before).1.run after).2) := by
  induction before generalizing s with
  | nil => rfl
  | cons happening before ih => rw [List.cons_append, run_cons, ih, run_cons, List.append_assoc]

theorem issued_append (s : Session) (before after : List Happening) :
    s.issued (before ++ after) = s.issued before ++ (s.run before).1.issued after := by
  induction before generalizing s with
  | nil => rfl
  | cons happening before ih =>
    rw [List.cons_append, issued_cons, ih, issued_cons, List.append_assoc]
    rfl

/-- The first number of a fresh run is new. -/
theorem fresh_head {happening : Happening}
    (hfresh : (numbers ++ s.issued (happening :: happenings)).Nodup) :
    ∀ x ∈ s.number? happening, x ∉ numbers := by
  intro x hx hmem
  rw [issued_cons] at hfresh
  refine (List.nodup_append.1 hfresh).2.2 x hmem x ?_ rfl
  exact List.mem_append_left _ (Option.mem_toList.2 hx)

theorem fresh_tail {happening : Happening}
    (hfresh : (numbers ++ s.issued (happening :: happenings)).Nodup) :
    ((numbers ++ (s.number? happening).toList) ++
      (s.step happening).1.issued happenings).Nodup := by
  rwa [List.append_assoc]

theorem Orderly.run (hs : s.Orderly numbers) (hfresh : (numbers ++ s.issued happenings).Nodup) :
    (s.run happenings).1.Orderly (numbers ++ s.issued happenings) := by
  induction happenings generalizing s numbers with
  | nil => rwa [issued, List.append_nil]
  | cons happening rest ih =>
    have hrest := ih (hs.step (fresh_head hfresh)) (fresh_tail hfresh)
    rwa [List.append_assoc] at hrest

theorem requests_cons (happening : Happening) (rest : List Happening) :
    requests (happening :: rest) = happening.request?.toList ++ requests rest := by
  rw [requests, List.filterMap_cons]
  cases happening.request? <;> rfl

/-- **Along a run** the requests held are those of before and those that were made, each where it
was or moved on. -/
theorem passes_run (hs : s.Orderly numbers) (replies : Replies)
    (hfresh : (numbers ++ s.issued happenings).Nodup) :
    Passes (queued (requests happenings) ++ s.held replies)
      ((s.run happenings).1.held (replies ++ (s.run happenings).2)) := by
  induction happenings generalizing s numbers replies with
  | nil =>
    rw [run, List.append_nil]
    exact .refl _
  | cons happening rest ih =>
    have hfirst := passes_step hs replies (fresh_head hfresh)
    have hrest := ih (hs.step (fresh_head hfresh)) (replies ++ (s.step happening).2)
      (fresh_tail hfresh)
    have hqueued : queued (requests (happening :: rest)) =
        queued happening.request?.toList ++ queued (requests rest) := by
      rw [requests_cons, queued, List.map_append]
      rfl
    rw [hqueued, run_cons, ← List.append_assoc replies]
    refine ((Passes.perm ?_).trans (hfirst.append_left (queued (requests rest)))).trans hrest
    rw [← List.append_assoc]
    exact List.perm_append_comm.append_right _

/-- **A number that was given out and waits for nothing** waits for nothing ever after. -/
theorem silent_run (hs : s.Orderly numbers) (hfresh : (numbers ++ s.issued happenings).Nodup)
    {x : Subject} (hissued : x ∈ numbers) (hrelay : ∀ id, x ≠ .relay id)
    (hx : x ∉ subjects s.board.waiting.places) :
    x ∉ subjects (s.run happenings).1.board.waiting.places := by
  induction happenings generalizing s numbers with
  | nil => exact hx
  | cons happening rest ih =>
    have hnew := fresh_head hfresh
    exact ih (hs.step hnew) (fresh_tail hfresh) (List.mem_append_left _ hissued)
      (silent_step hs hnew hissued hrelay hx)

theorem not_isHostClosed_run (hs : s.Orderly numbers)
    (hfresh : (numbers ++ s.issued happenings).Nodup)
    (hruns : (s.run happenings).1.running = true) :
    s.running = true ∧ ∀ x ∈ (s.run happenings).2, x.2.isHostClosed = false := by
  induction happenings generalizing s numbers with
  | nil => exact ⟨hruns, fun x hx ↦ by cases hx⟩
  | cons happening rest ih =>
    have hnew := fresh_head hfresh
    obtain ⟨hnext, hrest⟩ := ih (hs.step hnew) (fresh_tail hfresh) hruns
    obtain ⟨hrunning, hfirst⟩ := not_isHostClosed_step hs hnew hnext
    exact ⟨hrunning, fun x hx ↦ (List.mem_append.1 hx).elim (hfirst x) (hrest x)⟩

end Run

/-! ### From bring-up on -/

/-- Nothing is parked when a host has been brought up. -/
theorem waiting_bringUp {role : Role} {localId : PeerId} {port : UInt16} {scope : ListenScope}
    {ground : Ground} {reports left : List Event} {board : Switchboard}
    (h : bringUp role localId port scope ground reports = .ok (board, left)) :
    board.waiting = .empty :=
  Switchboard.bringUp_invariant (P := fun s ↦ s.waiting = .empty) (fun _ _ ↦ rfl)
    (fun _ _ hs ↦ hs) (fun _ hs ↦ hs)
    (fun _ event hs ↦ Switchboard.waiting_onEvent_of_empty hs event) h

theorem orderly_start {board : Switchboard} (h : board.waiting = .empty) :
    (start board).Orderly [] where
  distinct := by rw [start, h]; exact List.nodup_nil
  numbered := by rw [start, h]; exact fun x hx ↦ by cases hx
  ended := fun hended ↦ by cases hended

end Session

end Overlay.Host
