import Overlay.Host.BringUp
import Overlay.Host.Session
import Overlay.Proofs.AddressBook.History

/-!
# The book of a running host

A session is *reached* when a host was brought up and then anything happened to it, in any
order: requests, turns with any answer of the network, reports about anything, and its end.

Whatever happens, the book of a host is only ever taught. So it goes on from the book it was
before (`extends_step`, and `extends_run` along a run), and it is, all in all, what some lessons
made of the empty book (`Reached.exists_lessons`): what `History` says of taught books holds of
every host.
-/

namespace Overlay

namespace AddressBook

/-- A book that lessons made of an earlier one. -/
def Extends (later book : AddressBook) : Prop :=
  ∃ lessons : List Lesson, later = lessons.foldl teach book

namespace Extends

theorem refl (book : AddressBook) : book.Extends book := ⟨[], rfl⟩

theorem trans {last later book : AddressBook} (h : last.Extends later)
    (h' : later.Extends book) : last.Extends book := by
  obtain ⟨more, rfl⟩ := h
  obtain ⟨lessons, rfl⟩ := h'
  exact ⟨lessons ++ more, List.foldl_append.symm⟩

theorem learn (book : AddressBook) (c : Contact) : (book.learn c).Extends book :=
  ⟨[.contact c], rfl⟩

theorem learnPairs (book : AddressBook) (pairs : List (PeerId × Multiaddr)) :
    (book.learnPairs pairs).Extends book := by
  refine ⟨pairs.map fun x ↦ .address x.1 x.2, ?_⟩
  rw [List.foldl_map]
  rfl

/-- What is known stays known. -/
theorem known_prefix {later book : AddressBook} (h : later.Extends book) (peer : PeerId) :
    book.known peer <+: later.known peer := by
  obtain ⟨lessons, rfl⟩ := h
  induction lessons generalizing book with
  | nil => exact List.prefix_rfl
  | cons lesson lessons ih =>
    have hone : book.known peer <+: (book.teach lesson).known peer :=
      teach_eq_learnPairs book lesson ▸ book.known_prefix_learnPairs lesson.pairs peer
    exact hone.trans ih

end Extends

end AddressBook

namespace Host

open AddressBook (Extends)

namespace Switchboard

theorem extends_connect (s : Switchboard) (ticket : Ticket) (contact : Contact) (answer : Answer) :
    (s.connect ticket contact answer).1.book.Extends s.book := by
  rw [connect]
  split
  · exact .refl _
  · dsimp only
    split
    · exact .learn _ _
    · split <;> exact .learn _ _

theorem extends_reserve (s : Switchboard) (ticket : Ticket) (relay : Contact) (answer : Answer) :
    (s.reserve ticket relay answer).1.book.Extends s.book := by
  rw [reserve]
  split
  · exact .refl _
  · dsimp only
    split <;> exact .learn _ _

/-- **A command** only teaches the book. -/
theorem extends_handle (s : Switchboard) (ticket : Ticket) (command : Command)
    (answer : Answer) : (s.handle ticket command answer).1.book.Extends s.book := by
  cases command with
  | connect contact => exact s.extends_connect ticket contact answer
  | reserve relay => exact s.extends_reserve ticket relay answer
  | bootstrapRouting =>
    show (s.bootstrapRouting ticket answer).1.book.Extends s.book
    unfold Switchboard.bootstrapRouting
    split
    · split <;> exact .refl _
    · exact .refl _
  | routingPeers => exact .refl _
  | listenAddresses => exact .refl _
  | externalAddresses => exact .refl _
  | connectedPeers => exact .refl _
  | shutdown => exact .refl _

theorem extends_meet (s : Switchboard) (event : Event) :
    (s.meet event).book.Extends s.book :=
  .learnPairs s.book event.introductions

theorem book_answerDial (s : Switchboard) (connection : Nat) (result : Dialed) :
    (s.answerDial connection result).1.book = s.book := by
  rw [answerDial]
  split <;> rfl

theorem book_answerBootstrap (s : Switchboard) (query : Nat) (result : Except RoutingError Unit) :
    (s.answerBootstrap query result).1.book = s.book := by
  rw [answerBootstrap]
  split <;> rfl

theorem book_dropListener (s : Switchboard) (id : Nat) (reason : String) :
    (s.dropListener id reason).1.book = s.book := by
  rw [dropListener]
  split
  · rfl
  · split
    · rfl
    · dsimp only
      split <;> rfl

/-- **A report** only teaches the book. -/
theorem extends_onEvent (s : Switchboard) (event : Event) :
    (s.onEvent event).1.book.Extends s.book := by
  cases event with
  | established connection peer addr dialer =>
    rw [onEvent, book_answerDial]
    exact s.extends_meet _
  | identified peer addrs => exact s.extends_meet _
  | listenerFailed id reason => exact (s.book_dropListener id reason) ▸ .refl _
  | listenerClosed id reason => exact (s.book_dropListener id _) ▸ .refl _
  | dialFailed connection refusal => exact (s.book_answerDial connection _) ▸ .refl _
  | disconnected peer remaining =>
    rw [onEvent]
    split <;> exact .refl _
  | listening id addr =>
    rw [onEvent]
    split
    · exact .refl _
    · dsimp only
      split <;> exact .refl _
  | expired id addr =>
    rw [onEvent]
    split <;> exact .refl _
  | reservationAccepted relay =>
    rw [onEvent]
    split <;> exact .refl _
  | bootstrapProgressed query result last =>
    rw [onEvent.eq_def]
    dsimp only
    split
    · exact (s.book_answerBootstrap query _) ▸ .refl _
    · exact (s.book_answerBootstrap query _) ▸ .refl _
    · exact .refl _

/-! ### Bring-up -/

section BringUp

variable {P : Switchboard → Prop}

theorem openListeners_invariant (hlisteners : ∀ s listeners, P s → P { s with listeners })
    {ground : Ground} {port : UInt16} {scope : ListenScope} {specs : List ListenSpec} {n : Nat}
    {s board : Switchboard} (hs : P s)
    (h : openListeners ground port scope n specs s = .ok board) : P board := by
  induction specs generalizing n s with
  | nil =>
    cases h
    exact hs
  | cons spec specs ih =>
    rw [openListeners] at h
    split at h
    · cases h
    · next opened hopened =>
      refine ih ?_ h
      -- a listener that is opened goes to the list, and one that is skipped changes nothing
      unfold openListener at hopened
      dsimp only at hopened
      split at hopened
      · split at hopened <;> cases hopened
        exact hs
      · split at hopened <;> cases hopened
        exact hs
      · cases hopened
        exact hlisteners s _ hs

theorem settle_invariant (hlost : ∀ s, P s → P { s with lostPrimary := none })
    (hevent : ∀ s event, P s → P (s.onEvent event).1) {s : Switchboard} (hs : P s)
    (reports : List Event) : P (s.settle reports).2.1 := by
  have hsettled {s : Switchboard} {result} (hs : P s) (h : s.settled? = some result) :
      P result.2 := by
    rw [settled?] at h
    split at h
    · cases h
      exact hlost s hs
    · split at h <;> cases h
      exact hs
  induction reports generalizing s with
  | nil =>
    rw [settle]
    split
    · next h => exact hsettled hs h
    · exact hs
  | cons event reports ih =>
    rw [settle]
    split
    · next h => exact hsettled hs h
    · exact ih (hevent s event hs)

/-- **What bring-up keeps** is what the opening of listeners and the reports of the network
keep. -/
theorem bringUp_invariant {localId : PeerId}
    (hinit : ∀ dialable routes, P (init localId dialable routes))
    (hlisteners : ∀ s listeners, P s → P { s with listeners })
    (hlost : ∀ s, P s → P { s with lostPrimary := none })
    (hevent : ∀ s event, P s → P (s.onEvent event).1)
    {role : Role} {port : UInt16} {scope : ListenScope} {ground : Ground}
    {reports left : List Event} {board : Switchboard}
    (h : bringUp role localId port scope ground reports = .ok (board, left)) : P board := by
  rw [bringUp] at h
  split at h
  · cases h
  · next opened hopened =>
    have hboard : P opened := openListeners_invariant hlisteners (hinit ..) hopened
    split at h
    · split at h
      · cases h
      · split at h
        · cases h
        · next hsettle =>
          cases h
          have hsettled := settle_invariant hlost hevent hboard reports
          rwa [hsettle] at hsettled
    · cases h
      exact hboard

end BringUp

/-- A host is brought up with a book that was taught. -/
theorem extends_bringUp {role : Role} {localId : PeerId} {port : UInt16} {scope : ListenScope}
    {ground : Ground} {reports left : List Event} {board : Switchboard}
    (h : bringUp role localId port scope ground reports = .ok (board, left)) :
    board.book.Extends .empty :=
  bringUp_invariant (P := fun s ↦ s.book.Extends .empty) (fun _ _ ↦ .refl _)
    (fun _ _ hs ↦ hs) (fun _ hs ↦ hs)
    (fun s event hs ↦ (s.extends_onEvent event).trans hs) h

end Switchboard

namespace Session

/-- The sessions that come about: a host was brought up, and then anything happened. -/
inductive Reached : Session → Prop
  | broughtUp {role : Role} {localId : PeerId} {port : UInt16} {scope : ListenScope}
      {ground : Ground} {reports left : List Event} {board : Switchboard}
      (h : bringUp role localId port scope ground reports = .ok (board, left)) :
      Reached (.start board)
  | step {s : Session} (h : Reached s) (happening : Happening) : Reached (s.step happening).1

theorem Reached.run {s : Session} (h : Reached s) (happenings : List Happening) :
    Reached (s.run happenings).1 := by
  induction happenings generalizing s with
  | nil => exact h
  | cons happening rest ih => exact ih (h.step happening)

/-- A turn of any command but a shutdown is the switchboard's work. -/
theorem turn_of_queue {s : Session} {ticket : Ticket} {command : Command}
    {queue : List (Ticket × Command)} (hqueue : s.queue = (ticket, command) :: queue)
    (hcommand : command ≠ .shutdown) (answer : Answer) :
    s.turn answer =
      ({ s with board := (s.board.handle ticket command answer).1, queue },
        (s.board.handle ticket command answer).2) := by
  rw [turn, hqueue]
  cases command with
  | shutdown => exact absurd rfl hcommand
  | _ => rfl

theorem extends_turn (s : Session) (answer : Answer) :
    (s.turn answer).1.board.book.Extends s.board.book := by
  rw [turn]
  split
  · exact .refl _
  · exact .refl _
  · exact s.board.extends_handle _ _ answer

/-- **Whatever happens**, the book goes on from what it was. -/
theorem extends_step (s : Session) (happening : Happening) :
    (s.step happening).1.board.book.Extends s.board.book := by
  cases happening with
  | submit ticket command =>
    rw [step, submit]
    split <;> exact .refl _
  | turn answer => exact s.extends_turn answer
  | report event =>
    rw [step, report]
    split
    · exact s.board.extends_onEvent event
    · exact .refl _
  | release =>
    rw [step, release]
    split <;> exact .refl _

theorem extends_run (s : Session) (happenings : List Happening) :
    (s.run happenings).1.board.book.Extends s.board.book := by
  induction happenings generalizing s with
  | nil => exact .refl _
  | cons happening rest ih => exact (ih (s.step happening).1).trans (s.extends_step happening)

/-- **The book of a host** is what some lessons made of the empty book. -/
theorem Reached.exists_lessons {s : Session} (h : Reached s) :
    ∃ lessons, s.board.book = AddressBook.ofLessons lessons := by
  have hbook : s.board.book.Extends .empty := by
    induction h with
    | broughtUp h => exact Switchboard.extends_bringUp h
    | step _ happening ih => exact (extends_step _ happening).trans ih
  exact hbook

/-- No address is known twice. -/
theorem Reached.nodup_known {s : Session} (h : Reached s) (peer : PeerId) :
    (s.board.book.known peer).Nodup := by
  obtain ⟨lessons, hbook⟩ := h.exists_lessons
  exact hbook ▸ AddressBook.nodup_known_ofLessons lessons peer

/-- A known address is direct and more than nothing. -/
theorem Reached.direct_of_mem_known {s : Session} (h : Reached s) {peer : PeerId}
    {addr : Multiaddr} (haddr : addr ∈ s.board.book.known peer) :
    addr ≠ [] ∧ addr.isCircuit = false := by
  obtain ⟨lessons, hbook⟩ := h.exists_lessons
  exact AddressBook.direct_of_mem_known (hbook ▸ haddr)

end Session

end Host

end Overlay
