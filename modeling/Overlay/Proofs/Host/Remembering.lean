import Overlay.Proofs.AddressBook.Routing
import Overlay.Proofs.Host.Reached

/-!
# What a host remembers of a contact

A host that is asked to connect to a contact learns the contact's own addresses before it looks
for one to dial. So whatever comes of the dial, it remembers the contact from then on: every
location of the contact is known, and a circuit through the contact is led over each of them
(`Remembers.mem_resolveContact`). A request for a reservation teaches the same
(`Reached.remembers_reserve`).

A peer that is connected already is not dialed, and from such a contact nothing is learned. The
host is left with what it knew before, and if the peer was the one to connect, that may be
nothing (`not_remembered_of_connected`).
-/

namespace Overlay

namespace AddressBook

/-- Each location of a contact is known. -/
def Remembers (book : AddressBook) (contact : Contact) : Prop :=
  locations contact.id contact.addresses ⊆ book.known contact.id

/-- What is known once a contact was learned. -/
theorem known_learn {book : AddressBook} {contact : Contact}
    (h : (book.known contact.id).Nodup) :
    (book.learn contact).known contact.id =
      (book.known contact.id ++ locations contact.id contact.addresses).eraseDups := by
  have hall : ofPeer contact.id (Lesson.pairs (.contact contact)) = contact.addresses := by
    simp [ofPeer, Lesson.pairs, List.filter_map, Function.comp_def]
  have hlearn := book.teach_eq_learnPairs (.contact contact)
  rw [teach] at hlearn
  rw [hlearn, known_learnPairs h, hall]

theorem remembers_learn {book : AddressBook} {contact : Contact}
    (h : (book.known contact.id).Nodup) : (book.learn contact).Remembers contact := by
  intro location hlocation
  rw [known_learn h, List.mem_eraseDups]
  exact List.mem_append_right _ hlocation

/-- What is remembered is never forgotten. -/
theorem Remembers.of_extends {book later : AddressBook} {contact : Contact}
    (h : book.Remembers contact) (hlater : later.Extends book) : later.Remembers contact :=
  fun _ hlocation ↦ (hlater.known_prefix contact.id).subset (h hlocation)

/-- A circuit through a contact that is remembered is led over each of its locations. -/
theorem Remembers.mem_resolveContact {book : AddressBook} {relay target routed : Contact}
    (h : book.Remembers relay) (hrouted : Circuit.assemble relay target = .ok routed)
    {location : Multiaddr} (hlocation : location ∈ locations relay.id relay.addresses) :
    location ++ Circuit.canonical relay.id target.id ∈ book.resolveContact routed := by
  rw [book.resolveContact_of_assemble hrouted]
  exact List.mem_map_of_mem (h hlocation)

end AddressBook

namespace Host

open AddressBook (locations)

namespace Switchboard

/-- A request to connect teaches what the contact says, unless the peer is connected. -/
theorem book_connect {s : Switchboard} {contact : Contact} (h : contact.id ∉ s.connected)
    (ticket : Ticket) (answer : Answer) :
    (s.connect ticket contact answer).1.book = s.book.learn contact := by
  rw [connect, if_neg h]
  dsimp only
  split
  · rfl
  · split <;> rfl

theorem connect_of_connected {s : Switchboard} {contact : Contact} (h : contact.id ∈ s.connected)
    (ticket : Ticket) (answer : Answer) :
    s.connect ticket contact answer = (s, [(ticket, .connected (.ok ()))]) := by
  rw [connect, if_pos h]

/-- A request for a reservation teaches what the relay's contact says, connected or not. -/
theorem book_reserve {s : Switchboard} {relay : Contact} {addr : Multiaddr}
    (h : Circuit.reservation relay = .ok addr) (ticket : Ticket) (answer : Answer) :
    (s.reserve ticket relay answer).1.book = s.book.learn relay := by
  rw [reserve, h]
  dsimp only
  split <;> rfl

end Switchboard

namespace Session

/-- A relay that was asked for a reservation is remembered, whatever happens later. -/
theorem Reached.remembers_reserve {s : Session} (hs : s.Reached) {ticket : Ticket}
    {relay : Contact} {queue : List (Ticket × Command)}
    (hqueue : s.queue = (ticket, .reserve relay) :: queue) {addr : Multiaddr}
    (haddr : Circuit.reservation relay = .ok addr) (answer : Answer)
    (happenings : List Happening) :
    ((s.turn answer).1.run happenings).1.board.book.Remembers relay := by
  have hbook : (s.turn answer).1.board.book = s.board.book.learn relay := by
    rw [turn_of_queue hqueue (fun h ↦ by cases h)]
    exact Switchboard.book_reserve haddr ticket answer
  refine AddressBook.Remembers.of_extends ?_ (extends_run _ happenings)
  exact hbook ▸ AddressBook.remembers_learn (hs.nodup_known relay.id)

/-- **What a host remembers of a contact** that it is asked to connect to, in any session that
comes about and whatever the network answers. When the request has had its turn, then

1. if the peer was not connected, the book knows what it knew of the peer before and after it
   the locations of the contact, each address once;
2. then every location stays known, whatever happens later, and a circuit that is assembled
   through the contact is led over each of them;
3. but if the peer was connected, the request is answered at once, and the book is the one from
   before: the host remembers the contact only if it did so already. -/
theorem Reached.remembers_connect {s : Session} (hs : s.Reached) {ticket : Ticket}
    {contact : Contact} {queue : List (Ticket × Command)}
    (hqueue : s.queue = (ticket, .connect contact) :: queue) (answer : Answer) :
    (contact.id ∉ s.board.connected →
      (s.turn answer).1.board.book.known contact.id =
          (s.board.book.known contact.id ++
            locations contact.id contact.addresses).eraseDups ∧
        ∀ happenings,
          ((s.turn answer).1.run happenings).1.board.book.Remembers contact ∧
          ∀ target routed, Circuit.assemble contact target = .ok routed →
            ∀ location ∈ locations contact.id contact.addresses,
              location ++ Circuit.canonical contact.id target.id ∈
                ((s.turn answer).1.run happenings).1.board.book.resolveContact routed) ∧
    (contact.id ∈ s.board.connected →
      s.turn answer = ({ s with queue }, [(ticket, .connected (.ok ()))])) := by
  have hturn := turn_of_queue hqueue (fun h ↦ by cases h) answer
  constructor
  · intro hnew
    have hbook : (s.turn answer).1.board.book = s.board.book.learn contact := by
      rw [hturn]
      exact Switchboard.book_connect hnew ticket answer
    have hnodup := hs.nodup_known contact.id
    refine ⟨hbook ▸ AddressBook.known_learn hnodup, fun happenings ↦ ?_⟩
    have hremembers : ((s.turn answer).1.run happenings).1.board.book.Remembers contact :=
      .of_extends (hbook ▸ AddressBook.remembers_learn hnodup) (extends_run _ happenings)
    exact ⟨hremembers, fun target routed hrouted location ↦
      hremembers.mem_resolveContact hrouted⟩
  · intro hconnected
    rw [hturn, Switchboard.handle, Switchboard.connect_of_connected hconnected]

/-- A client that is asked to connect to a relay can lead a circuit through it from then on,
whatever comes of the dial. -/
theorem Reached.remembers_connect_of_client :
    let relay : Contact := ⟨⟨⟨0, [1]⟩, rfl⟩, [[.memory 7]]⟩
    let target : Contact := .bare ⟨⟨0, [3]⟩, rfl⟩
    let routed : Contact := ⟨target.id, [Circuit.canonical relay.id target.id]⟩
    let up := Session.start (.init ⟨⟨0, [4]⟩, rfl⟩ false false)
    let s := (up.step (.submit 0 (.connect relay))).1
    s.Reached ∧ s.queue = [(0, .connect relay)] ∧ relay.id ∉ s.board.connected ∧
      Circuit.assemble relay target = .ok routed ∧
      ∀ answer happenings, [.memory 7, .peer relay.id, .circuit, .peer target.id] ∈
        ((s.turn answer).1.run happenings).1.board.book.resolveContact routed := by
  intro relay target routed up s
  have hup : up.Reached := by
    have hbringUp : bringUp .mobileClient ⟨⟨0, [4]⟩, rfl⟩ 0 .loopback
        ⟨fun _ ↦ .ok (), fun n _ ↦ .ok n⟩ [] = .ok (up.board, []) := rfl
    exact .broughtUp hbringUp
  have hs : s.Reached := hup.step _
  have hqueue : s.queue = [(0, .connect relay)] := rfl
  have hnew : relay.id ∉ s.board.connected := by decide
  have hrouted : Circuit.assemble relay target = .ok routed := rfl
  refine ⟨hs, hqueue, hnew, hrouted, fun answer happenings ↦ ?_⟩
  obtain ⟨hremembers, -⟩ := Reached.remembers_connect hs hqueue answer
  obtain ⟨-, hlater⟩ := hremembers hnew
  exact (hlater happenings).2 target routed hrouted [.memory 7] (by decide)

/-- A host to which a relay has connected, and which is asked to connect to this relay: the
request succeeds, the relay's address is not remembered, and a circuit through the relay is
refused for want of an address. -/
theorem not_remembered_of_connected :
    let relay : Contact := ⟨⟨⟨0, [1]⟩, rfl⟩, [[.ip4 .loopback, .port .tcp 1]]⟩
    let target : Contact := .bare ⟨⟨0, [3]⟩, rfl⟩
    let routed : Contact := ⟨target.id, [Circuit.canonical relay.id target.id]⟩
    let listener : Listener := ⟨0, [.ip4 .loopback, .port .tcp 0], true, []⟩
    let up := Session.start
      { Switchboard.init ⟨⟨0, [4]⟩, rfl⟩ true true with listeners := [listener] }
    let inbound := Event.established 0 relay.id [.ip4 .loopback, .port .tcp 50000] false
    let s := (up.run [.report inbound, .submit 0 (.connect relay)]).1
    s.Reached ∧ s.queue = [(0, .connect relay)] ∧
      locations relay.id relay.addresses = relay.addresses ∧
      Circuit.assemble relay target = .ok routed ∧
      ∀ answer,
        (s.turn answer).2 = [(0, .connected (.ok ()))] ∧
        ¬ (s.turn answer).1.board.book.Remembers relay ∧
        (s.turn answer).1.board.book.resolveContact routed = [] ∧
        ((s.turn answer).1.board.handle 1 (.connect routed) answer).2 =
          [(1, .connected (.error .noAddresses))] := by
  intro relay target routed listener up inbound s
  have hup : up.Reached := by
    have hbringUp : bringUp .relay ⟨⟨0, [4]⟩, rfl⟩ 0 .loopback
        ⟨fun _ ↦ .ok (), fun n _ ↦ if n = 0 then .ok 0 else .error (.other "")⟩ [] =
          .ok (up.board, []) := rfl
    exact .broughtUp hbringUp
  refine ⟨hup.run _, rfl, by decide, rfl, fun answer ↦ ⟨rfl, ?_, rfl, rfl⟩⟩
  -- of the relay the book knows nothing at all
  intro hremembers
  have hmem : [.ip4 .loopback, .port .tcp 1] ∈ locations relay.id relay.addresses := by decide
  cases hremembers hmem

end Session

end Host

end Overlay
