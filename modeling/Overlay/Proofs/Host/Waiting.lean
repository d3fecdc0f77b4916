import Overlay.Proofs.Host.Places

/-!
# Requests that wait for the network

A switchboard parks requests in three tables, and the network speaks of them by numbers of its own
and by relays: these are the *subjects* of a parked request. `Waiting` is what is parked. It is
*distinct* if no subject stands for two requests.

What a command can do to the parked requests is said once (`Handled`): it is answered at once, or it
is parked under the number that the network has just given out, and then a request that waited
for the same relay is answered. What a report can do is said once as well (`Noticed`): it settles
one request, under the subject that it names, or none. That the requests only move on
(`Handled.passes`, `Noticed.passes`) and stay distinct follows from these two alone.
-/

namespace Overlay.Host

/-- What a report of the network can be about: what the network has numbered, or a relay. -/
inductive Subject where
  | connection (number : Nat)
  | listener (number : Nat)
  | query (number : Nat)
  | relay (id : PeerId)
deriving DecidableEq

/-- What the network numbers when it accepts a call. It begins nothing where it only counts. -/
def Call.subject? (number : Nat) : Call → Option Subject
  | .dial _ _ => some (.connection number)
  | .listen _ => some (.listener number)
  | .bootstrap => some (.query number)
  | .countPeers => none

/-- What a report is about, if it is one that settles requests. -/
def Event.about? : Event → Option Subject
  | .established connection _ _ _ => some (.connection connection)
  | .dialFailed connection _ => some (.connection connection)
  | .listenerFailed id _ => some (.listener id)
  | .listenerClosed id _ => some (.listener id)
  | .reservationAccepted relay => some (.relay relay)
  | .bootstrapProgressed query result last =>
    match result, last with
    | .ok (), false => none
    | _, _ => some (.query query)
  | _ => none

/-- The subjects of a request at a place. -/
def Place.subjects : Place → List Subject
  | .dialing connection => [.connection connection]
  | .reserving relay listener => [.relay relay, .listener listener]
  | .bootstrapping query => [.query query]
  | _ => []

/-- The subjects of some requests. -/
def subjects (requests : List (Ticket × Place)) : List Subject :=
  requests.flatMap (·.2.subjects)

/-- Replies as requests that are answered. -/
def answers (replies : Replies) : List (Ticket × Place) :=
  replies.map fun r ↦ (r.1, .answered r.2)

/-- The parked requests. -/
structure Waiting where
  dials : List (Nat × Ticket)
  reservations : List (PeerId × ParkedReservation)
  bootstraps : List (Nat × Ticket)

/-- The requests that a switchboard has parked. -/
def Switchboard.waiting (s : Switchboard) : Waiting := ⟨s.dials, s.reservations, s.bootstraps⟩

namespace Waiting

/-- Nothing is parked. -/
def empty : Waiting := ⟨[], [], []⟩

/-- The parked requests with their places. -/
def places (w : Waiting) : List (Ticket × Place) :=
  w.dials.map (fun d ↦ (d.2, .dialing d.1)) ++
    w.reservations.map (fun r ↦ (r.2.ticket, .reserving r.1 r.2.listener)) ++
    w.bootstraps.map (fun b ↦ (b.2, .bootstrapping b.1))

/-- The requests that are parked under a subject. -/
def under (w : Waiting) (subject : Subject) : List Ticket :=
  (w.places.filter fun x ↦ x.2.subjects.contains subject).map Prod.fst

/-- No subject stands for two requests. -/
def Distinct (w : Waiting) : Prop := (subjects w.places).Nodup

end Waiting

theorem subjects_append (requests others : List (Ticket × Place)) :
    subjects (requests ++ others) = subjects requests ++ subjects others :=
  List.flatMap_append

theorem subjects_cons (request : Ticket × Place) (others : List (Ticket × Place)) :
    subjects (request :: others) = request.2.subjects ++ subjects others :=
  List.flatMap_cons

theorem perm_subjects {requests others : List (Ticket × Place)} (h : requests.Perm others) :
    (subjects requests).Perm (subjects others) :=
  h.flatMap_right _

theorem Place.nodup_subjects (place : Place) : place.subjects.Nodup := by
  cases place with
  | reserving relay listener =>
    refine List.nodup_cons.2 ⟨fun h ↦ ?_, List.pairwise_singleton _ _⟩
    cases List.mem_singleton.1 h
  | dialing connection => exact List.pairwise_singleton _ _
  | bootstrapping query => exact List.pairwise_singleton _ _
  | queued command => exact List.nodup_nil
  | answered reply => exact List.nodup_nil

namespace Waiting

variable {w : Waiting}

/-! ### The tables -/

theorem perm_dials (w : Waiting) {dials rest : List (Nat × Ticket)} {d : Nat × Ticket}
    (h : dials.Perm (d :: rest)) :
    { w with dials }.places.Perm ((d.2, .dialing d.1) :: { w with dials := rest }.places) :=
  ((h.map _).append_right _).append_right _

theorem perm_reservations (w : Waiting) {reservations rest : List (PeerId × ParkedReservation)}
    {r : PeerId × ParkedReservation} (h : reservations.Perm (r :: rest)) :
    { w with reservations }.places.Perm
      ((r.2.ticket, .reserving r.1 r.2.listener) :: { w with reservations := rest }.places) :=
  (((h.map _).append_left _).trans List.perm_middle).append_right _

theorem perm_bootstraps (w : Waiting) {bootstraps rest : List (Nat × Ticket)} {b : Nat × Ticket}
    (h : bootstraps.Perm (b :: rest)) :
    { w with bootstraps }.places.Perm
      ((b.2, .bootstrapping b.1) :: { w with bootstraps := rest }.places) :=
  ((h.map _).append_left _).trans List.perm_middle

theorem subjects_places (w : Waiting) :
    subjects w.places =
      w.dials.flatMap (fun d ↦ [.connection d.1]) ++
        w.reservations.flatMap (fun r ↦ [.relay r.1, .listener r.2.listener]) ++
        w.bootstraps.flatMap (fun b ↦ [.query b.1]) := by
  simp only [subjects, places, List.flatMap_append, List.flatMap_map, Place.subjects]

theorem connection_mem_subjects {connection : Nat} :
    .connection connection ∈ subjects w.places ↔ connection ∈ w.dials.map Prod.fst := by
  simp [subjects_places]

theorem relay_mem_subjects {relay : PeerId} :
    .relay relay ∈ subjects w.places ↔ relay ∈ w.reservations.map Prod.fst := by
  simp [subjects_places]

theorem query_mem_subjects {query : Nat} :
    .query query ∈ subjects w.places ↔ query ∈ w.bootstraps.map Prod.fst := by
  simp [subjects_places]

theorem listener_mem_subjects {listener : Nat} :
    .listener listener ∈ subjects w.places ↔ ∃ r ∈ w.reservations, r.2.listener = listener := by
  simp [subjects_places, eq_comm]

/-- Nothing is parked under a subject that stands for no parked request. -/
theorem under_eq_nil_iff {subject : Subject} :
    w.under subject = [] ↔ subject ∉ subjects w.places := by
  simp [under, subjects]

theorem notMem_subjects_empty (subject : Subject) : subject ∉ subjects empty.places :=
  fun h ↦ by cases h

/-- What one request is parked under, no other is. -/
theorem notMem_others (h : w.Distinct) {ticket : Ticket} {place : Place}
    {others : List (Ticket × Place)} (hplaces : w.places.Perm ((ticket, place) :: others))
    {subject : Subject} (hsubject : subject ∈ place.subjects) : subject ∉ subjects others := by
  have hsplit := (perm_subjects hplaces).nodup_iff.1 h
  rw [subjects_cons] at hsplit
  exact fun hmem ↦ (List.nodup_append.1 hsplit).2.2 _ hsubject _ hmem rfl

/-- The one request that is parked under a subject. -/
theorem under_eq_singleton (h : w.Distinct) {ticket : Ticket} {place : Place}
    {others : List (Ticket × Place)} (hplaces : w.places.Perm ((ticket, place) :: others))
    {subject : Subject} (hsubject : subject ∈ place.subjects) : w.under subject = [ticket] := by
  have hothers : others.filter (fun x ↦ x.2.subjects.contains subject) = [] :=
    List.filter_eq_nil_iff.2 fun x hx hcontains ↦ notMem_others h hplaces hsubject
      (List.mem_flatMap.2 ⟨x, hx, List.contains_iff_mem.1 hcontains⟩)
  have hthis : (ticket, place).2.subjects.contains subject = true :=
    List.contains_iff_mem.2 hsubject
  have hfilter := (hplaces.filter fun x ↦ x.2.subjects.contains subject).map Prod.fst
  rw [List.filter_cons, if_pos hthis, hothers] at hfilter
  exact List.perm_singleton.1 hfilter

/-- Keys that stand for different subjects are different. -/
theorem nodup_keys {κ α : Type} {entries : List (κ × α)} {subjects : κ × α → List Subject}
    {subject : κ → Subject} (hmem : ∀ e, subject e.1 ∈ subjects e)
    (h : (entries.flatMap subjects).Nodup) : (entries.map Prod.fst).Nodup := by
  obtain ⟨-, hpairs⟩ := List.pairwise_flatMap.1 h
  refine List.pairwise_map.2 (hpairs.imp fun {a b} hab heq ↦ ?_)
  exact hab _ (hmem a) _ (heq ▸ hmem b) rfl

namespace Distinct

theorem nodup_dials (h : w.Distinct) : (w.dials.map Prod.fst).Nodup := by
  rw [Distinct, subjects_places, List.append_assoc] at h
  exact nodup_keys (fun e ↦ List.mem_singleton_self (Subject.connection e.1))
    (List.nodup_append.1 h).1

theorem nodup_reservations (h : w.Distinct) : (w.reservations.map Prod.fst).Nodup := by
  rw [Distinct, subjects_places, List.append_assoc] at h
  obtain ⟨-, hrest, -⟩ := List.nodup_append.1 h
  exact nodup_keys (fun e ↦ List.mem_cons_self (a := Subject.relay e.1))
    (List.nodup_append.1 hrest).1

theorem nodup_bootstraps (h : w.Distinct) : (w.bootstraps.map Prod.fst).Nodup := by
  rw [Distinct, subjects_places] at h
  exact nodup_keys (fun e ↦ List.mem_singleton_self (Subject.query e.1))
    (List.nodup_append.1 h).2.1

end Distinct

/-! ### What was found in a table -/

theorem perm_of_dial (h : w.Distinct) {connection : Nat} {ticket : Ticket}
    (hfind : Keyed.find? connection w.dials = some ticket) :
    w.places.Perm ((ticket, .dialing connection) ::
      { w with dials := Keyed.remove connection w.dials }.places) :=
  w.perm_dials (Keyed.perm_remove h.nodup_dials hfind)

theorem perm_of_reservation (h : w.Distinct) {relay : PeerId} {pending : ParkedReservation}
    (hfind : Keyed.find? relay w.reservations = some pending) :
    w.places.Perm ((pending.ticket, .reserving relay pending.listener) ::
      { w with reservations := Keyed.remove relay w.reservations }.places) :=
  w.perm_reservations (Keyed.perm_remove h.nodup_reservations hfind)

theorem perm_of_bootstrap (h : w.Distinct) {query : Nat} {ticket : Ticket}
    (hfind : Keyed.find? query w.bootstraps = some ticket) :
    w.places.Perm ((ticket, .bootstrapping query) ::
      { w with bootstraps := Keyed.remove query w.bootstraps }.places) :=
  w.perm_bootstraps (Keyed.perm_remove h.nodup_bootstraps hfind)

/-- A reservation that takes the place of an earlier one leaves nothing of the earlier listener. -/
theorem listener_notMem_put (h : w.Distinct) {relay : PeerId} {earlier later : ParkedReservation}
    (hfind : Keyed.find? relay w.reservations = some earlier)
    (hlistener : later.listener ≠ earlier.listener) :
    .listener earlier.listener ∉ subjects
      { w with reservations := Keyed.put relay later w.reservations }.places := by
  have hput := w.perm_reservations (Keyed.perm_put h.nodup_reservations relay later)
  have hothers := notMem_others h (perm_of_reservation h hfind)
    (List.mem_cons_of_mem _ (List.mem_singleton_self (Subject.listener earlier.listener)))
  rw [(perm_subjects hput).mem_iff, subjects_cons, List.mem_append, not_or]
  refine ⟨fun hmem ↦ ?_, hothers⟩
  rcases List.mem_cons.1 hmem with heq | hmem
  · cases heq
  · exact hlistener (Subject.listener.inj (List.mem_singleton.1 hmem)).symm

end Waiting

/-! ### What a command does to the parked requests -/

/-- What a command can come to, if the network gives out a number or none: the request is answered
at once, or it is parked, and then the requests that it supersedes are answered. -/
inductive Handled (w : Waiting) (ticket : Ticket) (command : Command) :
    Option Subject → Waiting → Replies → Prop
  | answered {number? : Option Subject} {reply : Reply} (htopic : reply.topic = command.topic)
      (hopen : reply.isHostClosed = false) : Handled w ticket command number? w [(ticket, reply)]
  | parked {number : Subject} {place : Place} {earlier rest : List (Ticket × Place)}
      {next : Waiting} (hmove : Move (.queued command) place)
      (hbefore : w.places.Perm (earlier ++ rest))
      (hafter : next.places.Perm ((ticket, place) :: rest))
      (hnew : ∀ x ∈ place.subjects, x = number ∨ (∃ id, x = .relay id) ∧ x ∉ subjects rest)
      (hearlier : ∀ x ∈ earlier, ∃ relay listener, x.2 = .reserving relay listener) :
      Handled w ticket command (some number) next
        (earlier.map fun x ↦ (x.1, .reserved (.error (.denied "superseded"))))

namespace Handled

variable {w next : Waiting} {ticket : Ticket} {command : Command} {number? : Option Subject}
  {replies : Replies}

/-- A request that supersedes none. -/
theorem parked_new {number : Subject} {place : Place} (hmove : Move (.queued command) place)
    (hafter : next.places.Perm ((ticket, place) :: w.places))
    (hnew : ∀ x ∈ place.subjects, x = number ∨ (∃ id, x = .relay id) ∧ x ∉ subjects w.places) :
    Handled w ticket command (some number) next [] :=
  @parked w ticket command number place [] w.places next hmove (.refl _) hafter hnew
    (fun _ h ↦ by cases h)

/-- **A command** only moves requests on. -/
theorem passes (h : Handled w ticket command number? next replies) :
    Passes ((ticket, .queued command) :: w.places) (next.places ++ answers replies) := by
  cases h with
  | @answered number? reply htopic hopen =>
    have hanswer : Move (.queued command) (.answered reply) := .answer rfl htopic
    exact (Passes.move ticket w.places hanswer).trans (.perm (List.perm_append_singleton _ _).symm)
  | @parked number place earlier rest next hmove hbefore hafter hnew hearlier =>
    let denied : Reply := .reserved (.error (.denied "superseded"))
    have hdenied : Passes earlier (earlier.map fun x ↦ (x.1, .answered denied)) := by
      refine .answer_all (fun _ ↦ denied) fun x hx ↦ ?_
      obtain ⟨relay, listener, hplace⟩ := hearlier x hx
      rw [hplace]
      exact ⟨rfl, rfl⟩
    have hpark : Passes ((ticket, .queued command) :: w.places)
        ((ticket, place) :: (rest ++ earlier)) :=
      (Passes.move ticket w.places hmove).trans
        (.perm ((hbefore.trans List.perm_append_comm).cons _))
    have hleave : Passes ((ticket, place) :: (rest ++ earlier))
        (next.places ++ earlier.map fun x ↦ (x.1, .answered denied)) :=
      (hdenied.append_left ((ticket, place) :: rest)).trans (.perm (hafter.symm.append_right _))
    rw [answers, List.map_map]
    exact hpark.trans hleave

/-- The number given out becomes a subject, and perhaps a relay; no other subject is new. -/
theorem subjects_subset (h : Handled w ticket command number? next replies) {x : Subject}
    (hx : x ∈ subjects next.places) :
    x ∈ subjects w.places ∨ number? = some x ∨ ∃ id, x = .relay id := by
  cases h with
  | answered htopic hopen => exact .inl hx
  | @parked number place earlier rest next hmove hbefore hafter hnew hearlier =>
    rw [(perm_subjects hafter).mem_iff, subjects_cons, List.mem_append] at hx
    rcases hx with hplace | hold
    · rcases hnew x hplace with rfl | ⟨hrelay, -⟩
      · exact .inr (.inl rfl)
      · exact .inr (.inr hrelay)
    · left
      rw [(perm_subjects hbefore).mem_iff, subjects_append]
      exact List.mem_append_right _ hold

theorem distinct (h : Handled w ticket command number? next replies) (hw : w.Distinct)
    (hfresh : ∀ x ∈ number?, x ∉ subjects w.places) : next.Distinct := by
  cases h with
  | answered htopic hopen => exact hw
  | @parked number place earlier rest next hmove hbefore hafter hnew hearlier =>
    have hsplit := perm_subjects hbefore
    rw [subjects_append] at hsplit
    obtain ⟨-, hrest, -⟩ := List.nodup_append.1 (hsplit.nodup_iff.1 hw)
    refine (perm_subjects hafter).nodup_iff.2 ?_
    rw [subjects_cons]
    refine List.nodup_append.2 ⟨place.nodup_subjects, hrest, ?_⟩
    rintro x hx _ hold rfl
    rcases hnew x hx with rfl | ⟨-, hnot⟩
    · exact hfresh _ rfl (hsplit.mem_iff.2 (List.mem_append_right _ hold))
    · exact hnot hold

/-- Without a number nothing is parked. -/
theorem eq_of_none (h : Handled w ticket command none next replies) :
    next = w ∧ ∃ reply, replies = [(ticket, reply)] ∧ reply.topic = command.topic := by
  cases h with
  | answered htopic hopen => exact ⟨rfl, _, rfl, htopic⟩

theorem not_isHostClosed (h : Handled w ticket command number? next replies) :
    ∀ x ∈ replies, x.2.isHostClosed = false := by
  cases h with
  | answered htopic hopen =>
    intro x hx
    rw [List.mem_singleton.1 hx]
    exact hopen
  | parked hmove hbefore hafter hnew hearlier =>
    intro x hx
    obtain ⟨y, -, rfl⟩ := List.mem_map.1 hx
    rfl

end Handled

namespace Switchboard

/-- What the network numbers when a command has its turn: its call, if it makes one and the network
accepts it. -/
def number? (s : Switchboard) (command : Command) (answer : Answer) : Option Subject :=
  match s.call? command, answer with
  | some call, .ok number => call.subject? number
  | _, _ => none

theorem number?_of_call {s : Switchboard} {command : Command} {call : Call}
    (h : s.call? command = some call) (number : Nat) :
    s.number? command (.ok number) = call.subject? number := by
  unfold number?
  rw [h]

/-- A relay is no number. -/
theorem number?_ne_relay (s : Switchboard) {command : Command} {answer : Answer} {id : PeerId} :
    s.number? command answer ≠ some (.relay id) := by
  unfold number?
  split
  · next call number _ => cases call <;> exact fun h ↦ by cases h
  · exact fun h ↦ by cases h

theorem handled_connect {s : Switchboard} (ticket : Ticket) (contact : Contact) (answer : Answer)
    (hfresh : ∀ x ∈ s.number? (.connect contact) answer, x ∉ subjects s.waiting.places) :
    Handled s.waiting ticket (.connect contact) (s.number? (.connect contact) answer)
      (s.connect ticket contact answer).1.waiting (s.connect ticket contact answer).2 := by
  rw [connect]
  split
  · exact .answered rfl rfl
  · next hconnected =>
    dsimp only
    cases hdial : dialAddresses (s.book.learn contact) contact with
    | nil => exact .answered rfl rfl
    | cons addr addrs =>
      have hcall : s.call? (.connect contact) = some (.dial contact.id (addr :: addrs)) := by
        rw [call?, if_neg hconnected, hdial]
      cases answer with
      | error refusal =>
        have hopen : (Reply.connected (.error refusal.connectError)).isHostClosed = false := by
          cases refusal <;> rfl
        exact .answered rfl hopen
      | ok n =>
        rw [number?_of_call hcall] at hfresh ⊢
        have hnew : n ∉ s.dials.map Prod.fst := fun hmem ↦
          hfresh _ rfl (Waiting.connection_mem_subjects.2 hmem)
        have hput := Keyed.perm_put_of_notMem hnew ticket
        refine .parked_new (.dial contact n) (s.waiting.perm_dials hput) fun x hx ↦ ?_
        exact .inl (List.mem_singleton.1 hx)

theorem handled_reserve {s : Switchboard} (hs : s.waiting.Distinct) (ticket : Ticket)
    (relay : Contact) (answer : Answer) :
    Handled s.waiting ticket (.reserve relay) (s.number? (.reserve relay) answer)
      (s.reserve ticket relay answer).1.waiting (s.reserve ticket relay answer).2 := by
  rw [reserve]
  cases haddr : Circuit.reservation relay with
  | error e => exact .answered rfl rfl
  | ok addr =>
    have hcall : s.call? (.reserve relay) = some (.listen addr) := by rw [call?, haddr]
    dsimp only
    cases answer with
    | error refusal => exact .answered rfl rfl
    | ok n =>
      rw [number?_of_call hcall]
      have hmove : Move (.queued (.reserve relay)) (.reserving relay.id n) := .reserve relay n
      have hput := Keyed.perm_put hs.nodup_reservations relay.id ⟨n, addr, ticket⟩
      have hafter := s.waiting.perm_reservations hput
      -- the relay is no subject of what is left without it, and the number is new
      have hnew : ∀ x ∈ Place.subjects (.reserving relay.id n), x = .listener n ∨
          (∃ id, x = .relay id) ∧ x ∉ subjects
            { s.waiting with
              reservations := Keyed.remove relay.id s.waiting.reservations }.places := by
        intro x hx
        rcases List.mem_cons.1 hx with rfl | hx
        · refine .inr ⟨⟨_, rfl⟩, fun hmem ↦ ?_⟩
          have hkey := Waiting.relay_mem_subjects.1 hmem
          rw [← Keyed.isSome_find?_iff, Keyed.find?_remove_self] at hkey
          cases hkey
        · exact .inl (List.mem_singleton.1 hx)
      cases hfind : Keyed.find? relay.id s.reservations with
      | none =>
        have hnone : relay.id ∉ s.waiting.reservations.map Prod.fst :=
          (Keyed.find?_eq_none_iff _ _).1 hfind
        rw [Keyed.remove_of_notMem hnone] at hafter hnew
        exact .parked_new hmove hafter hnew
      | some earlier =>
        have hbefore := Waiting.perm_of_reservation hs hfind
        refine @Handled.parked _ _ _ (.listener n) _ [_] _ _ hmove hbefore hafter hnew fun x hx ↦ ?_
        rw [List.mem_singleton.1 hx]
        exact ⟨_, _, rfl⟩

theorem handled_bootstrapRouting {s : Switchboard} (ticket : Ticket) (answer : Answer)
    (hfresh : ∀ x ∈ s.number? .bootstrapRouting answer, x ∉ subjects s.waiting.places) :
    Handled s.waiting ticket .bootstrapRouting (s.number? .bootstrapRouting answer)
      (s.bootstrapRouting ticket answer).1.waiting (s.bootstrapRouting ticket answer).2 := by
  unfold bootstrapRouting
  split
  · next hroutes =>
    have hcall : s.call? .bootstrapRouting = some .bootstrap := by rw [call?, if_pos hroutes]
    cases answer with
    | error refusal => exact .answered rfl rfl
    | ok n =>
      rw [number?_of_call hcall] at hfresh ⊢
      have hnew : n ∉ s.bootstraps.map Prod.fst := fun hmem ↦
        hfresh _ rfl (Waiting.query_mem_subjects.2 hmem)
      have hput := Keyed.perm_put_of_notMem hnew ticket
      refine .parked_new (.bootstrap n) (s.waiting.perm_bootstraps hput) fun x hx ↦ ?_
      exact .inl (List.mem_singleton.1 hx)
  · exact .answered rfl rfl

theorem not_isHostClosed_routingPeers (s : Switchboard) (answer : Answer) :
    (Reply.counted (s.routingPeers answer)).isHostClosed = false := by
  unfold routingPeers
  split
  · cases answer <;> rfl
  · rfl

/-- **What a command does**, if what the network numbers has a number that is new. -/
theorem handled {s : Switchboard} (hs : s.waiting.Distinct) (ticket : Ticket) (command : Command)
    (answer : Answer)
    (hfresh : ∀ x ∈ s.number? command answer, x ∉ subjects s.waiting.places) :
    Handled s.waiting ticket command (s.number? command answer)
      (s.handle ticket command answer).1.waiting (s.handle ticket command answer).2 := by
  cases command with
  | connect contact => exact handled_connect ticket contact answer hfresh
  | reserve relay => exact handled_reserve hs ticket relay answer
  | bootstrapRouting => exact handled_bootstrapRouting ticket answer hfresh
  | routingPeers => exact .answered rfl (s.not_isHostClosed_routingPeers answer)
  | listenAddresses => exact .answered rfl rfl
  | externalAddresses => exact .answered rfl rfl
  | connectedPeers => exact .answered rfl rfl
  | shutdown => exact .answered rfl rfl

end Switchboard

/-! ### What a report does to the parked requests -/

/-- What a report can come to, by what it is about: nothing, if no request is parked under it, or
the answer to one that is. -/
inductive Noticed (w : Waiting) : Option Subject → Waiting → Replies → Prop
  | nothing {about? : Option Subject} (hnothing : ∀ x ∈ about?, w.under x = []) :
      Noticed w about? w []
  | settled {subject : Subject} {ticket : Ticket} {place : Place} {next : Waiting} {reply : Reply}
      (hbefore : w.places.Perm ((ticket, place) :: next.places))
      (hsubject : subject ∈ place.subjects) (hplace : place.isOpen = true)
      (htopic : reply.topic = place.topic) (hopen : reply.isHostClosed = false) :
      Noticed w (some subject) next [(ticket, reply)]

namespace Noticed

variable {w next : Waiting} {about? : Option Subject} {replies : Replies}

theorem nothing_of_notMem {subject : Subject} (h : subject ∉ subjects w.places) :
    Noticed w (some subject) w [] := by
  refine .nothing fun x hx ↦ ?_
  cases hx
  exact Waiting.under_eq_nil_iff.2 h

/-- **A report** only moves requests on. -/
theorem passes (h : Noticed w about? next replies) :
    Passes w.places (next.places ++ answers replies) := by
  cases h with
  | nothing hnothing => exact .perm (.of_eq (List.append_nil _).symm)
  | @settled subject ticket place next reply hbefore hsubject hplace htopic hopen =>
    have hanswer := Passes.move ticket next.places (.answer hplace htopic)
    exact ((Passes.perm hbefore).trans hanswer).trans
      (.perm (List.perm_append_singleton _ _).symm)

theorem perm_subjects (h : Noticed w about? next replies) :
    ∃ settled, (subjects w.places).Perm (settled ++ subjects next.places) := by
  cases h with
  | nothing hnothing => exact ⟨[], .refl _⟩
  | settled hbefore hsubject hplace htopic hopen => exact ⟨_, hbefore.flatMap_right _⟩

theorem subjects_subset (h : Noticed w about? next replies) :
    subjects next.places ⊆ subjects w.places := by
  obtain ⟨settled, hsettled⟩ := h.perm_subjects
  exact fun x hx ↦ hsettled.mem_iff.2 (List.mem_append_right _ hx)

theorem distinct (h : Noticed w about? next replies) (hw : w.Distinct) : next.Distinct := by
  obtain ⟨settled, hsettled⟩ := h.perm_subjects
  exact (List.nodup_append.1 (hsettled.nodup_iff.1 hw)).2.1

/-- Where nothing is parked, nothing is. -/
theorem eq_empty (h : Noticed .empty about? next replies) : next = .empty := by
  cases h with
  | nothing hnothing => rfl
  | settled hbefore hsubject hplace htopic hopen => cases hbefore.length_eq

/-- **A report answers what is parked under its subject**, and nothing else. -/
theorem tickets_eq (h : Noticed w about? next replies) (hw : w.Distinct) :
    replies.map Prod.fst = (about?.map w.under).getD [] := by
  cases h with
  | @nothing about? hnothing =>
    cases about? with
    | none => rfl
    | some subject => exact (hnothing subject rfl).symm
  | settled hbefore hsubject hplace htopic hopen =>
    exact (Waiting.under_eq_singleton hw hbefore hsubject).symm

theorem not_isHostClosed (h : Noticed w about? next replies) :
    ∀ x ∈ replies, x.2.isHostClosed = false := by
  cases h with
  | nothing hnothing => exact fun x hx ↦ by cases hx
  | settled hbefore hsubject hplace htopic hopen =>
    intro x hx
    rw [List.mem_singleton.1 hx]
    exact hopen

end Noticed

namespace Switchboard

theorem noticed_answerDial {s : Switchboard} (hs : s.waiting.Distinct) (connection : Nat)
    (result : Dialed) (hopen : (Reply.connected result).isHostClosed = false) :
    Noticed s.waiting (some (.connection connection)) (s.answerDial connection result).1.waiting
      (s.answerDial connection result).2 := by
  rw [answerDial]
  cases hfind : Keyed.find? connection s.dials with
  | none =>
    exact .nothing_of_notMem fun hmem ↦
      (Keyed.find?_eq_none_iff _ _).1 hfind (Waiting.connection_mem_subjects.1 hmem)
  | some ticket =>
    exact .settled (Waiting.perm_of_dial hs hfind) (List.mem_singleton_self _) rfl rfl hopen

/-- No reservation is on a listener under which nothing is parked. -/
theorem reservationOn?_eq_none_iff {s : Switchboard} {listener : Nat} :
    s.reservationOn? listener = none ↔ Subject.listener listener ∉ subjects s.waiting.places := by
  rw [reservationOn?, List.find?_eq_none, Waiting.listener_mem_subjects]
  simp [waiting]

theorem noticed_dropListener {s : Switchboard} (hs : s.waiting.Distinct) (id : Nat)
    (reason : String) :
    Noticed s.waiting (some (.listener id)) (s.dropListener id reason).1.waiting
      (s.dropListener id reason).2 := by
  rw [dropListener]
  split
  · next relay pending hon =>
    rw [reservationOn?] at hon
    have hmem := List.mem_of_find?_eq_some hon
    have hlistener : pending.listener = id := by simpa using List.find?_some hon
    have hfind := (Keyed.find?_eq_some_iff_mem hs.nodup_reservations relay pending).2 hmem
    refine .settled (Waiting.perm_of_reservation hs hfind) ?_ rfl rfl rfl
    rw [← hlistener]
    exact List.mem_cons_of_mem _ (List.mem_singleton_self _)
  · next hon =>
    -- a listener of bring-up is no request
    have hnothing := reservationOn?_eq_none_iff.1 hon
    split
    · exact .nothing_of_notMem hnothing
    · dsimp only
      split <;> exact .nothing_of_notMem hnothing

theorem noticed_answerBootstrap {s : Switchboard} (hs : s.waiting.Distinct) (query : Nat)
    (result : Except RoutingError Unit)
    (hopen : (Reply.bootstrapped result).isHostClosed = false) :
    Noticed s.waiting (some (.query query)) (s.answerBootstrap query result).1.waiting
      (s.answerBootstrap query result).2 := by
  rw [answerBootstrap]
  cases hfind : Keyed.find? query s.bootstraps with
  | none =>
    exact .nothing_of_notMem fun hmem ↦
      (Keyed.find?_eq_none_iff _ _).1 hfind (Waiting.query_mem_subjects.1 hmem)
  | some ticket =>
    exact .settled (Waiting.perm_of_bootstrap hs hfind) (List.mem_singleton_self _) rfl rfl hopen

/-- **What a report does.** -/
theorem noticed {s : Switchboard} (hs : s.waiting.Distinct) (event : Event) :
    Noticed s.waiting event.about? (s.onEvent event).1.waiting (s.onEvent event).2 := by
  have quiet : ∀ x ∈ (none : Option Subject), s.waiting.under x = [] := fun x hx ↦ by cases hx
  cases event with
  | established connection peer addr dialer =>
    let met := s.meet (.established connection peer addr dialer)
    let welcomed : Switchboard := { met with connected := enroll met.connected peer }
    have hwaiting : welcomed.waiting = s.waiting := rfl
    exact hwaiting ▸ noticed_answerDial (s := welcomed) hs connection (.ok ()) rfl
  | dialFailed connection refusal =>
    exact noticed_answerDial hs connection _ (by cases refusal <;> rfl)
  | listenerFailed id reason => exact noticed_dropListener hs id reason
  | listenerClosed id reason => exact noticed_dropListener hs id _
  | reservationAccepted relay =>
    rw [onEvent]
    cases hfind : Keyed.find? relay s.reservations with
    | none =>
      exact .nothing_of_notMem fun hmem ↦
        (Keyed.find?_eq_none_iff _ _).1 hfind (Waiting.relay_mem_subjects.1 hmem)
    | some pending =>
      exact .settled (Waiting.perm_of_reservation hs hfind) List.mem_cons_self rfl rfl rfl
  | bootstrapProgressed query result last =>
    cases result with
    | error reason => exact noticed_answerBootstrap hs query _ rfl
    | ok u =>
      cases last with
      | true => exact noticed_answerBootstrap hs query _ rfl
      | false => exact .nothing quiet
  | disconnected peer remaining =>
    rw [onEvent]
    split <;> exact .nothing quiet
  | identified peer addrs => exact .nothing quiet
  | listening id addr =>
    rw [onEvent]
    split
    · exact .nothing quiet
    · dsimp only
      split <;> exact .nothing quiet
  | expired id addr =>
    rw [onEvent]
    split <;> exact .nothing quiet

/-- **A report parks nothing.** -/
theorem waiting_onEvent_of_empty {s : Switchboard} (h : s.waiting = .empty) (event : Event) :
    (s.onEvent event).1.waiting = .empty := by
  have hdistinct : s.waiting.Distinct := h ▸ List.nodup_nil
  have hnoticed := noticed hdistinct event
  rw [h] at hnoticed
  exact hnoticed.eq_empty

end Switchboard

end Overlay.Host
