import Overlay.Proofs.Host.Readiness
import Overlay.Proofs.Host.Requests

/-!
# The addresses of a running host

A host tells its listen addresses and its external addresses on request. From bring-up on, through
anything that happens, both follow from the reports about its listeners alone: the first are the
standing addresses of the listeners that no report has ended, the second those that a dialable
host has advertised (`shows_run`). This rests on the network's giving out a new number for every
listener, so that no reservation is taken for a listener of bring-up.

A report that a listener failed or was closed takes the listener off the list, and nothing else.
So the listen addresses are those of the listeners that are not closed as long as none has failed
(`flatMap_tracked_of_not_failed`), and the external addresses are the direct ones among them as
long as no listener ends with such an address (`advertised_iff_mem_tracked`); and this is as far
as it goes (`addresses_out_of_step`).
-/

namespace Overlay.Host

/-- Whether a report tells that a listener is closed. -/
def Event.closes (id : Nat) : Event → Bool
  | .listenerClosed i _ => id = i
  | _ => false

/-- The listeners that no report has closed. -/
def unclosed (opened : List Listener) (events : List Event) : List Listener :=
  opened.filter fun l ↦ events.all fun e ↦ !e.closes l.id

/-- An address expires only at a listener that announces it. -/
def Owned (events : List Event) : Prop :=
  ∀ i j addr, .listening i addr ∈ events → .expired j addr ∈ events → i = j

/-- No listener that has ended still has a direct address. -/
def Emptied (opened : List Listener) (events : List Event) : Prop :=
  ∀ l ∈ opened, (∃ e ∈ events, e.ends l.id = true) →
    ∀ addr ∈ standing l.id events, addr.isCircuit = true

instance (opened : List Listener) (events : List Event) : Decidable (Emptied opened events) :=
  inferInstanceAs (Decidable (∀ l ∈ opened, (∃ e ∈ events, e.ends l.id = true) →
    ∀ addr ∈ standing l.id events, addr.isCircuit = true))

section

variable {opened : List Listener} {events : List Event}

/-- The addresses of the tracked listeners are those of the listeners that are not closed, if none
has failed. -/
theorem flatMap_tracked_of_not_failed
    (h : ∀ l ∈ opened, ∀ reason, .listenerFailed l.id reason ∉ events) :
    (tracked opened events).flatMap Listener.addresses =
      (unclosed opened events).flatMap fun l ↦ standing l.id events := by
  have hsame : (opened.filter fun l ↦ events.all fun e ↦ !e.ends l.id) =
      unclosed opened events := by
    refine List.filter_congr fun l hl ↦ ?_
    have hends : ∀ e ∈ events, e.ends l.id = e.closes l.id := by
      intro e he
      cases e with
      | listenerFailed i reason =>
        refine decide_eq_false fun heq ↦ h l hl reason ?_
        have hid : l.id = i := heq
        exact hid ▸ he
      | _ => rfl
    rw [Bool.eq_iff_iff, List.all_eq_true, List.all_eq_true]
    exact forall_congr' fun e ↦ forall_congr' fun he ↦ by rw [hends e he]
  rw [tracked, hsame, List.flatMap_map]

/-- What a dialable host advertises is what its listeners have, circuits aside. -/
theorem advertised_iff_mem_tracked (howned : Owned events) (hemptied : Emptied opened events)
    {addr : Multiaddr} :
    Advertised opened events addr ↔
      addr ∈ (tracked opened events).flatMap Listener.addresses ∧ addr.isCircuit = false := by
  rw [List.mem_flatMap]
  constructor
  · rintro ⟨hdirect, l, hl, before, after, hsplit, -, hstands⟩
    have hstanding : addr ∈ standing l.id events :=
      mem_standing_iff.2 ⟨before, after, hsplit, hstands l.id⟩
    refine ⟨⟨_, mem_tracked_iff.2 ⟨l, hl, fun e he ↦ Bool.eq_false_iff.2 fun hends ↦ ?_, rfl⟩,
      hstanding⟩, hdirect⟩
    have hcircuit := hemptied l hl ⟨e, he, hends⟩ addr hstanding
    rw [hdirect] at hcircuit
    cases hcircuit
  · rintro ⟨⟨_, hl, hmem⟩, hdirect⟩
    obtain ⟨l, hopened, hopen, rfl⟩ := mem_tracked_iff.1 hl
    obtain ⟨before, after, rfl, hstands⟩ := mem_standing_iff.1 hmem
    refine ⟨hdirect, l, hopened, before, after, rfl,
      fun e he ↦ hopen e (List.mem_append_left _ he), fun i hi ↦ ?_⟩
    have howner : l.id = i := howned l.id i addr (by simp) (by simp [hi])
    exact hstands (howner ▸ hi)

end

/-! ### From bring-up on -/

/-- What a host shows when it has been brought up. -/
theorem shows_bringUp {role : Role} {localId : PeerId} {port : UInt16} {scope : ListenScope}
    {ground : Ground} {reports left : List Event} {board : Switchboard}
    (h : bringUp role localId port scope ground reports = .ok (board, left)) :
    ∃ seen, reports = seen ++ left ∧
      (Numbered (ground.opened port scope 0 role.profile.listen) →
        board.front.Shows (role.profile.reachability == .dialable)
          (ground.opened port scope 0 role.profile.listen) seen) := by
  have hresult : BroughtUp role localId port scope ground reports _ := broughtUp
  rw [h] at hresult
  cases hresult with
  | silent hsilent =>
    exact ⟨[], rfl, fun hnumbered ↦ (Switchboard.launched_launch hnumbered).shows⟩
  | waited hopened hprimary hwait =>
    obtain ⟨seen, hseen, rfl, -⟩ := hwait.of_ok
    exact ⟨seen, hseen, fun hnumbered ↦
      ((Switchboard.launched_launch hnumbered).shows_after seen).1⟩

namespace Session

/-- The report that is made by a happening. -/
def Happening.event? : Happening → Option Event
  | .report event => some event
  | _ => none

/-- The reports that are made while things happen. -/
def reported (happenings : List Happening) : List Event :=
  happenings.filterMap Happening.event?

theorem reported_cons (happening : Happening) (rest : List Happening) :
    reported (happening :: rest) = happening.event?.toList ++ reported rest := by
  rw [reported, List.filterMap_cons]
  cases happening.event? <;> rfl

/-- What is no report leaves the front alone. -/
theorem front_step (s : Session) {happening : Happening} (h : happening.event? = none) :
    (s.step happening).1.board.front = s.board.front := by
  cases happening with
  | report event => cases h
  | submit ticket command =>
    rw [step, submit]
    split <;> rfl
  | release =>
    rw [step, release]
    split <;> rfl
  | turn answer =>
    rw [step, turn]
    split
    · rfl
    · rfl
    · exact s.board.front_handle _ _ answer

/-- **Whatever happens to a running session**, it shows what the reports tell. -/
theorem shows_step {s : Session} {dialable : Bool} {opened : List Listener} {events : List Event}
    (hnumbered : Numbered opened) (h : s.board.front.Shows dialable opened events)
    (hapart : ∀ l ∈ opened, Subject.listener l.id ∉ subjects s.board.waiting.places)
    (hrunning : s.running = true) (happening : Happening) :
    (s.step happening).1.board.front.Shows dialable opened
      (events ++ happening.event?.toList) := by
  cases hevent : happening.event? with
  | none =>
    rw [Option.toList_none, List.append_nil, s.front_step hevent]
    exact h
  | some event =>
    cases happening with
    | report event' =>
      cases hevent
      rw [step, report, if_pos hrunning]
      exact Switchboard.shows_onEvent hnumbered h hapart event
    | submit | turn | release => cases hevent

/-- The numbers of the listeners that were opened. -/
def listenerNumbers (opened : List Listener) : List Subject :=
  opened.map fun l ↦ .listener l.id

theorem numbered_of_nodup {opened : List Listener} (h : (listenerNumbers opened).Nodup) :
    Numbered opened :=
  List.pairwise_map.2 ((List.pairwise_map.1 h).imp fun hne heq ↦ hne (congrArg _ heq))

section

variable {s : Session} {dialable : Bool} {opened : List Listener} {events : List Event}
  {happenings : List Happening} {numbers : List Subject}

/-- **And so it does along a run** to which the network gives new numbers. -/
theorem shows_run (hs : s.Orderly numbers) (hissued : listenerNumbers opened ⊆ numbers)
    (hfresh : (numbers ++ s.issued happenings).Nodup) (hnumbered : Numbered opened)
    (h : s.board.front.Shows dialable opened events)
    (hapart : ∀ l ∈ opened, Subject.listener l.id ∉ subjects s.board.waiting.places)
    (hruns : (s.run happenings).1.running = true) :
    (s.run happenings).1.board.front.Shows dialable opened (events ++ reported happenings) := by
  induction happenings generalizing s numbers events with
  | nil =>
    rw [reported, List.filterMap_nil, List.append_nil]
    exact h
  | cons happening rest ih =>
    have hrunning := (not_isHostClosed_run hs hfresh hruns).1
    have hnew := fresh_head hfresh
    rw [reported_cons, ← List.append_assoc]
    refine ih (hs.step hnew) (fun x hx ↦ List.mem_append_left _ (hissued hx)) (fresh_tail hfresh)
      (shows_step hnumbered h hapart hrunning happening) (fun l hl ↦ ?_) hruns
    exact silent_step hs hnew (hissued (List.mem_map_of_mem hl)) (fun _ h ↦ by cases h)
      (hapart l hl)

end

/-- **The addresses of a running host.** Let a host be brought up and then anything happen to it,
as long as it runs and the network gives out a new number for every listener and request. When
bring-up has read the reports `seen`, and some more have been made since:

1. The listen addresses are the standing addresses of the tracked listeners, in order.
2. The external addresses are those that the listeners have advertised, if the role is dialable, and
   none otherwise.
3. If no listener of bring-up has failed, the listen addresses are the standing addresses of the
   listeners that are not closed.
4. If addresses expire only where they were announced, and listeners that have ended had no direct
   address left, the external addresses of a dialable host are its listen addresses, circuits
   aside. -/
theorem addresses_in_step {role : Role} {localId : PeerId} {port : UInt16} {scope : ListenScope}
    {ground : Ground} {reports left : List Event} {board : Switchboard}
    (hbringUp : bringUp role localId port scope ground reports = .ok (board, left)) :
    let opened := ground.opened port scope 0 role.profile.listen
    ∃ seen, reports = seen ++ left ∧ ∀ (happenings : List Happening) (ticket : Ticket)
        (answer : Answer),
      (listenerNumbers opened ++ (start board).issued happenings).Nodup →
      ((start board).run happenings).1.running = true →
      let s := ((start board).run happenings).1.board
      let events := seen ++ reported happenings
      ∃ listen externals,
        (s.handle ticket .listenAddresses answer).2 = [(ticket, .addresses listen)] ∧
        (s.handle ticket .externalAddresses answer).2 = [(ticket, .addresses externals)] ∧
        listen = (tracked opened events).flatMap Listener.addresses ∧
        (∀ addr, addr ∈ externals ↔
          role.profile.reachability = .dialable ∧ Advertised opened events addr) ∧
        ((∀ l ∈ opened, ∀ reason, .listenerFailed l.id reason ∉ events) →
          listen = (unclosed opened events).flatMap fun l ↦ standing l.id events) ∧
        (Owned events → Emptied opened events → ∀ addr, addr ∈ externals ↔
          role.profile.reachability = .dialable ∧ addr ∈ listen ∧ addr.isCircuit = false) := by
  intro opened
  obtain ⟨seen, hseen, hshows⟩ := shows_bringUp hbringUp
  refine ⟨seen, hseen, fun happenings ticket answer hfresh hruns ↦ ?_⟩
  intro s events
  have hnumbered : Numbered opened := numbered_of_nodup (List.nodup_append.1 hfresh).1
  have hwaiting := waiting_bringUp hbringUp
  have horderly : (start board).Orderly (listenerNumbers opened) :=
    (orderly_start hwaiting).mono (List.nil_subset _)
  have hapart : ∀ l ∈ opened, Subject.listener l.id ∉ subjects board.waiting.places := by
    rw [hwaiting]
    exact fun l _ ↦ Waiting.notMem_subjects_empty _
  have hfinal : s.front.Shows (role.profile.reachability == .dialable) opened events :=
    shows_run horderly (List.Subset.refl _) hfresh hnumbered (hshows hnumbered) hapart hruns
  have hlisten : s.listeners = tracked opened events := hfinal.listeners
  have hdialable : (role.profile.reachability == .dialable) = true ↔
      role.profile.reachability = .dialable := beq_iff_eq
  refine ⟨_, _, rfl, rfl, by rw [hlisten], fun addr ↦ ?_, fun hnone ↦ ?_,
    fun howned hemptied addr ↦ ?_⟩
  · rw [← hdialable]
    exact hfinal.externals addr
  · rw [hlisten, flatMap_tracked_of_not_failed hnone]
  · rw [hlisten, ← hdialable, ← advertised_iff_mem_tracked howned hemptied]
    exact hfinal.externals addr

/-- A relay whose primary listener is closed after its address has expired, while a reservation
that it asked for is denied. -/
theorem addresses_in_step_of_relay :
    let ground : Ground := ⟨fun _ ↦ .ok (), fun n _ ↦ .ok n⟩
    let other : Contact := ⟨⟨⟨0, [1]⟩, rfl⟩, [[.memory 9]]⟩
    let reports : List Event := [.listening 0 [.memory 1], .listening 1 [.memory 2]]
    let happenings : List Happening :=
      [.submit 7 (.reserve other), .turn (.ok 2), .report (.listening 1 [.memory 3]),
        .report (.expired 0 [.memory 1]), .report (.listenerClosed 0 none),
        .report (.listenerFailed 2 "denied")]
    let opened := ground.opened 0 .loopback 0 Role.relay.profile.listen
    let events := reports ++ reported happenings
    ∃ board, bringUp .relay ⟨⟨0, [4]⟩, rfl⟩ 0 .loopback ground reports = .ok (board, []) ∧
      (listenerNumbers opened ++ (start board).issued happenings).Nodup ∧
      ((start board).run happenings).1.running = true ∧ Owned events ∧ Emptied opened events ∧
      let s := ((start board).run happenings).1.board
      (s.handle 0 .listenAddresses (.ok 0)).2 = [(0, .addresses [[.memory 2], [.memory 3]])] ∧
      ∃ externals, (s.handle 0 .externalAddresses (.ok 0)).2 = [(0, .addresses externals)] ∧
        ∀ addr, addr ∈ externals ↔
          addr ∈ [[.memory 2], [.memory 3]] ∧ addr.isCircuit = false := by
  intro ground other reports happenings opened events
  have hbringUp : bringUp .relay ⟨⟨0, [4]⟩, rfl⟩ 0 .loopback ground reports = .ok (_, []) := rfl
  have howned : Owned events := by
    intro i j addr hi hj
    have hexpired : 0 = j ∧ [.memory 1] = addr := by
      simpa [events, reports, reported, happenings, Happening.event?] using hj
    have hlistening : (i = 0 ∧ addr = [.memory 1]) ∨ (i = 1 ∧ addr = [.memory 2]) ∨
        (1 = i ∧ [.memory 3] = addr) := by
      simpa [events, reports, reported, happenings, Happening.event?] using hi
    obtain ⟨rfl, rfl⟩ := hexpired
    rcases hlistening with ⟨rfl, -⟩ | ⟨-, haddr⟩ | ⟨-, haddr⟩
    · rfl
    · cases haddr
    · cases haddr
  have hemptied : Emptied opened events := by decide
  refine ⟨_, hbringUp, by decide, rfl, howned, hemptied, rfl, ?_⟩
  obtain ⟨seen, hseen, h⟩ := addresses_in_step hbringUp
  cases hseen.trans (List.append_nil seen)
  obtain ⟨listen, externals, hlisten, hexternals, -, -, -, hstep⟩ :=
    h happenings 0 (.ok 0) (by decide) rfl
  cases hlisten
  exact ⟨externals, hexternals, fun addr ↦
    (hstep howned hemptied addr).trans (and_iff_right rfl)⟩

/-- **The addresses fall out of step** when a listener of a bootstrap host that has an address is
closed, which leaves the address an external one; or when it fails, which it may survive, but
neither its address nor another that it announces is a listen address any more. -/
theorem addresses_out_of_step :
    let old : Multiaddr := [.memory 1]
    let new : Multiaddr := [.memory 2]
    ∃ board, bringUp .bootstrap ⟨⟨0, [4]⟩, rfl⟩ 0 .loopback
        ⟨fun _ ↦ .ok (), fun n _ ↦ .ok n⟩ [.listening 0 old] = .ok (board, []) ∧
      let closed := ((start board).run [.report (.listenerClosed 0 none)]).1.board
      let failed := ((start board).run
        [.report (.listenerFailed 0 "no descriptors left"), .report (.listening 0 new)]).1.board
      (closed.handle 0 .listenAddresses (.ok 0)).2 = [(0, .addresses [])] ∧
      (closed.handle 0 .externalAddresses (.ok 0)).2 = [(0, .addresses [old])] ∧
      (failed.handle 0 .listenAddresses (.ok 0)).2 = [(0, .addresses [])] ∧
      (failed.handle 0 .externalAddresses (.ok 0)).2 = [(0, .addresses [old])] :=
  ⟨_, rfl, rfl, rfl, rfl, rfl⟩

end Session

end Overlay.Host
