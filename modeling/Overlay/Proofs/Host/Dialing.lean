import Overlay.Proofs.AddressBook.Resolution
import Overlay.Proofs.AddressBook.Routing
import Overlay.Proofs.Host.Reached

/-!
# What is dialed for a contact

A contact is dialed at what its addresses resolve to once the book has learned them, and if that
is nothing, at the addresses that the book knows of the peer. Only circuits can resolve to
nothing, and circuits teach nothing (`learn_eq_self`). So where the contact itself resolves to
nothing, the book that is asked for the peer's addresses is still the book from before the
command (`dialAddresses_learn`), and a request is refused without a call exactly if that book
leaves the contact stranded (`dialAddresses_eq_nil_iff`). A request that calls is parked or refused
as the network answers (`handle_connect_of_not_strands`).
-/

namespace Overlay

namespace AddressBook

/-- A contact without an address to dial: the book knows none of the peer, and each of the
contact's own addresses leads nowhere. -/
def Strands (book : AddressBook) (contact : Contact) : Prop :=
  book.known contact.id = [] ∧ ∀ addr ∈ contact.addresses, book.LeadsNowhere addr

/-- **Circuits teach nothing.** -/
theorem learn_eq_self {book : AddressBook} {contact : Contact}
    (h : ∀ addr ∈ contact.addresses, addr.isCircuit = true) : book.learn contact = book := by
  rw [learn]
  generalize contact.addresses = addrs at h
  induction addrs with
  | nil => rfl
  | cons addr addrs ih =>
    obtain ⟨hcircuit, hrest⟩ := List.forall_mem_cons.1 h
    rw [List.foldl_cons, learnAddress, if_pos hcircuit, ih hrest]

theorem learn_of_assemble (book : AddressBook) {relay target routed : Contact}
    (h : Circuit.assemble relay target = .ok routed) : book.learn routed = book := by
  refine learn_eq_self fun addr haddr ↦ ?_
  rw [Circuit.eq_of_assemble h] at haddr
  rw [List.mem_singleton.1 haddr]
  rfl

/-- A contact that resolves to nothing has taught nothing. -/
theorem learn_eq_self_of_resolveContact {book : AddressBook} {contact : Contact}
    (h : (book.learn contact).resolveContact contact = []) : book.learn contact = book :=
  learn_eq_self fun addr haddr ↦ (resolveContact_eq_nil_iff.1 h addr haddr).isCircuit

end AddressBook

namespace Host

open AddressBook (Strands)

namespace Switchboard

/-- What is dialed for a contact that the book has learned: what it resolves to, or else what the
book knew of the peer before. -/
theorem dialAddresses_learn (book : AddressBook) (contact : Contact) :
    dialAddresses (book.learn contact) contact =
      if (book.learn contact).resolveContact contact = [] then book.known contact.id
      else (book.learn contact).resolveContact contact := by
  rw [dialAddresses]
  split
  · next h => rw [if_pos h, AddressBook.learn_eq_self_of_resolveContact h]
  · next h => rw [if_neg h]

theorem dialAddresses_eq_nil_iff {book : AddressBook} {contact : Contact} :
    dialAddresses (book.learn contact) contact = [] ↔ book.Strands contact := by
  rw [dialAddresses_learn]
  constructor
  · intro h
    split at h
    · next hnil =>
      refine ⟨h, AddressBook.resolveContact_eq_nil_iff.1 ?_⟩
      rwa [AddressBook.learn_eq_self_of_resolveContact hnil] at hnil
    · next hne => exact absurd h hne
  · rintro ⟨hknown, haddrs⟩
    have hsame : book.learn contact = book :=
      AddressBook.learn_eq_self fun addr haddr ↦ (haddrs addr haddr).isCircuit
    rw [hsame, if_pos (AddressBook.resolveContact_eq_nil_iff.2 haddrs), hknown]

/-- A peer that is not connected is dialed, if there is an address to dial. -/
theorem call?_connect {s : Switchboard} {contact : Contact} (h : contact.id ∉ s.connected) :
    s.call? (.connect contact) =
      if dialAddresses (s.book.learn contact) contact = [] then none
      else some (.dial contact.id (dialAddresses (s.book.learn contact) contact)) := by
  rw [call?, if_neg h]
  split
  · next hnil => rw [if_pos hnil]
  · next hne => rw [if_neg hne]

theorem eq_of_call?_connect {s : Switchboard} {contact : Contact} (h : contact.id ∉ s.connected)
    {peer : PeerId} {addrs : List Multiaddr}
    (hcall : s.call? (.connect contact) = some (.dial peer addrs)) :
    peer = contact.id ∧ addrs = dialAddresses (s.book.learn contact) contact := by
  rw [call?_connect h] at hcall
  split at hcall
  · cases hcall
  · cases hcall
    exact ⟨rfl, rfl⟩

/-- Without an address to dial the request is refused, whatever the network would answer. -/
theorem handle_connect_of_strands {s : Switchboard} {contact : Contact}
    (h : contact.id ∉ s.connected) (hstrands : s.book.Strands contact) (ticket : Ticket)
    (answer : Answer) :
    (s.handle ticket (.connect contact) answer).2 =
      [(ticket, .connected (.error .noAddresses))] := by
  rw [handle, connect, if_neg h]
  dsimp only
  rw [dialAddresses_eq_nil_iff.2 hstrands]

/-- With an address to dial the network's answer decides: an accepted call parks the request under
the number of its connection, and a refused one answers it with the refusal. -/
theorem handle_connect_of_not_strands {s : Switchboard} {contact : Contact}
    (h : contact.id ∉ s.connected) (hstrands : ¬ s.book.Strands contact) (ticket : Ticket) :
    (∀ connection, s.handle ticket (.connect contact) (.ok connection) =
      ({ s with
          book := s.book.learn contact
          dials := Keyed.put connection ticket s.dials }, [])) ∧
    ∀ refusal, s.handle ticket (.connect contact) (.error refusal) =
      ({ s with book := s.book.learn contact },
        [(ticket, .connected (.error refusal.connectError))]) := by
  have hne : dialAddresses (s.book.learn contact) contact ≠ [] :=
    fun hnil ↦ hstrands (dialAddresses_eq_nil_iff.1 hnil)
  obtain ⟨addr, addrs, hdial⟩ := List.exists_cons_of_ne_nil hne
  constructor
  · intro connection
    rw [handle, connect, if_neg h]
    dsimp only
    rw [hdial]
  · intro refusal
    rw [handle, connect, if_neg h]
    dsimp only
    rw [hdial]

end Switchboard

namespace Session

/-- **What is dialed for a contact** whose peer is not connected, in any session that comes
about and with the book from before the command.

1. The request is refused without a call exactly if the book leaves the contact stranded: it
   knows no address of the peer, and each address of the contact, of which there may be none,
   begins with a relay of which the book knows no address and goes through a circuit.
2. Otherwise the peer is dialed, at what the addresses of the contact resolve to, in their order
   and after the book has learned them. Only if that is nothing is it dialed at the addresses
   that the book knows of the peer, and these are direct. If the network accepts the call, the
   request waits for this connection; if it refuses, the request is answered with the refusal.
   Either way the book has learned the contact, and nothing else changes.
3. A contact that was assembled is dialed at its target only: at the circuit through each known
   address of the relay, or, if none is known, at known direct addresses of the target. -/
theorem Reached.dialed {s : Session} (hs : s.Reached) {contact : Contact}
    (hnew : contact.id ∉ s.board.connected) :
    ((s.board.call? (.connect contact) = none ∧
        ∀ ticket answer, (s.board.handle ticket (.connect contact) answer).2 =
          [(ticket, .connected (.error .noAddresses))]) ↔
      s.board.book.Strands contact) ∧
    (¬ s.board.book.Strands contact →
      ∃ addrs, addrs ≠ [] ∧ s.board.call? (.connect contact) = some (.dial contact.id addrs) ∧
        (contact.addresses.flatMap (s.board.book.learn contact).resolve ≠ [] →
          addrs = contact.addresses.flatMap (s.board.book.learn contact).resolve) ∧
        (contact.addresses.flatMap (s.board.book.learn contact).resolve = [] →
          addrs = s.board.book.known contact.id ∧
            ∀ addr ∈ addrs, addr ≠ [] ∧ addr.isCircuit = false) ∧
        ∀ ticket,
          (∀ connection, s.board.handle ticket (.connect contact) (.ok connection) =
            ({ s.board with
                book := s.board.book.learn contact
                dials := Keyed.put connection ticket s.board.dials }, [])) ∧
          ∀ refusal, s.board.handle ticket (.connect contact) (.error refusal) =
            ({ s.board with book := s.board.book.learn contact },
              [(ticket, .connected (.error refusal.connectError))])) ∧
    ∀ relay target : Contact, Circuit.assemble relay target = .ok contact →
      ∀ peer addrs, s.board.call? (.connect contact) = some (.dial peer addrs) →
        peer = target.id ∧ ∀ addr ∈ addrs,
          (∃ base ∈ s.board.book.known relay.id,
            addr = base ++ [.peer relay.id, .circuit, .peer target.id]) ∨
          (s.board.book.known relay.id = [] ∧ addr ∈ s.board.book.known target.id ∧
            addr.isCircuit = false) := by
  have hcall := Switchboard.call?_connect hnew
  refine ⟨?refused, ?dialed, ?assembled⟩
  case refused =>
    rw [← Switchboard.dialAddresses_eq_nil_iff]
    constructor
    · rintro ⟨hnone, -⟩
      refine Classical.byContradiction fun hne ↦ ?_
      rw [hcall, if_neg hne] at hnone
      cases hnone
    · intro hnil
      exact ⟨hcall.trans (if_pos hnil),
        Switchboard.handle_connect_of_strands hnew (Switchboard.dialAddresses_eq_nil_iff.1 hnil)⟩
  case dialed =>
    intro hstrands
    have hne : Switchboard.dialAddresses (s.board.book.learn contact) contact ≠ [] :=
      fun h ↦ hstrands (Switchboard.dialAddresses_eq_nil_iff.1 h)
    refine ⟨_, hne, hcall.trans (if_neg hne), fun hresolved ↦ ?_, fun hresolved ↦ ?_,
      Switchboard.handle_connect_of_not_strands hnew hstrands⟩
    · rw [Switchboard.dialAddresses_learn]
      exact if_neg hresolved
    · rw [Switchboard.dialAddresses_learn, AddressBook.resolveContact, if_pos hresolved]
      exact ⟨rfl, fun addr haddr ↦ hs.direct_of_mem_known haddr⟩
  case assembled =>
    intro relay target hassemble peer addrs hdial
    have hsame := AddressBook.learn_of_assemble s.board.book hassemble
    have hresolved := s.board.book.resolveContact_of_assemble hassemble
    obtain ⟨rfl, rfl⟩ := Switchboard.eq_of_call?_connect hnew hdial
    have htarget : contact.id = target.id := by rw [Circuit.eq_of_assemble hassemble]
    refine ⟨htarget, fun addr haddr ↦ ?_⟩
    rw [Switchboard.dialAddresses_learn, hsame, hresolved, htarget] at haddr
    split at haddr
    · next hnone =>
      exact .inr ⟨List.map_eq_nil_iff.1 hnone, haddr, (hs.direct_of_mem_known haddr).2⟩
    · obtain ⟨base, hbase, rfl⟩ := List.mem_map.1 haddr
      exact .inl ⟨base, hbase, rfl⟩

/-- A host that was asked to connect to a relay, and has no connection yet: a circuit through
this relay is dialed at the relay's address, and a circuit through another relay is refused. -/
theorem Reached.dialed_of_circuit :
    let relay : Contact := ⟨⟨⟨0, [1]⟩, rfl⟩, [[.memory 7]]⟩
    let other : Contact := ⟨⟨⟨0, [2]⟩, rfl⟩, [[.memory 8]]⟩
    let target : Contact := .bare ⟨⟨0, [3]⟩, rfl⟩
    let routed : Contact := ⟨target.id, [Circuit.canonical relay.id target.id]⟩
    let stranded : Contact := ⟨target.id, [Circuit.canonical other.id target.id]⟩
    let up := Session.start (.init ⟨⟨0, [4]⟩, rfl⟩ false false)
    let s := ((up.step (.submit 0 (.connect relay))).1.step (.turn (.ok 0))).1
    s.Reached ∧ target.id ∉ s.board.connected ∧
      s.board.call? (.connect routed) =
        some (.dial target.id [[.memory 7, .peer relay.id, .circuit, .peer target.id]]) ∧
      (∃ base ∈ s.board.book.known relay.id,
        [.memory 7, .peer relay.id, .circuit, .peer target.id] =
          base ++ [.peer relay.id, .circuit, .peer target.id]) ∧
      s.board.call? (.connect stranded) = none := by
  intro relay other target routed stranded up s
  have hup : up.Reached := by
    have hbringUp : bringUp .mobileClient ⟨⟨0, [4]⟩, rfl⟩ 0 .loopback
        ⟨fun _ ↦ .ok (), fun n _ ↦ .ok n⟩ [] = .ok (up.board, []) := rfl
    exact .broughtUp hbringUp
  have hs : s.Reached := (hup.step _).step _
  have hnew : target.id ∉ s.board.connected := by decide
  have hcall : s.board.call? (.connect routed) =
      some (.dial target.id [[.memory 7, .peer relay.id, .circuit, .peer target.id]]) := by decide
  obtain ⟨-, -, hassembled⟩ := @Reached.dialed s hs routed hnew
  obtain ⟨-, hcircuit⟩ := hassembled relay target rfl _ _ hcall
  obtain ⟨hrefused, -, -⟩ := @Reached.dialed s hs stranded hnew
  refine ⟨hs, hnew, hcall, ?_, ?_⟩
  · refine (hcircuit _ (List.mem_singleton_self _)).resolve_right ?_
    rintro ⟨hnone, -⟩
    exact absurd hnone (by decide)
  · refine (hrefused.2 ⟨rfl, ?_⟩).1
    rintro addr haddr
    rw [List.mem_singleton.1 haddr]
    exact ⟨other.id, [.circuit, .peer target.id], rfl, by decide, rfl⟩

end Session

end Host

end Overlay
