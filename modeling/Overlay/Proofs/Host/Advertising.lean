import Overlay.Proofs.Circuit.Advertising
import Overlay.Proofs.Host.Dialing
import Overlay.Proofs.Host.Reserving

/-!
# What is advertised is what is dialed

The address of a peer behind a relay is built four times: by the relay's client when it asks for a
reservation and again when this is granted, for those to whom it is advertised, and by whoever
dials it. The first three are the peer's own, and `Circuit.Advertising` and `Reserving` say that
they agree. The last is put together by another host from two parts: `Circuit.assemble` leaves the
circuit without the relay's address, and `AddressBook.resolve` brings back what the book has
learned of the relay, without the relay's id at its end. So what is advertised for an address of
the relay is dialed if the book keeps this address at all (`mem_resolveContact_of_assemble`).

There is one kind of relay for which they part. `Circuit.assemble` does not trust a relay whose
first address ends in another peer, while a reservation is asked for at this address, and it is
advertised, all the same (`advertised_of_stray`).
-/

namespace Overlay

namespace AddressBook

open Circuit (assemble reservation)

/-- **An assembled circuit resolves to what is advertised** for each address of the relay that the
book keeps. -/
theorem mem_resolveContact_of_assemble {lessons : List Lesson} {relay target routed : Contact}
    (h : assemble relay target = .ok routed) (hlesson : .contact relay ∈ lessons)
    {addr : Multiaddr} (haddr : addr ∈ relay.addresses) (hdirect : addr.isCircuit = false)
    (hempty : addr ≠ []) (hbare : addr ≠ [.peer relay.id]) :
    (addr.withPeer relay.id ++ [.circuit]) ++ [.peer target.id] ∈
      (ofLessons lessons).resolveContact routed := by
  have hknown : addr.withoutPeer relay.id ∈ (ofLessons lessons).known relay.id :=
    mem_known_ofLessons hlesson haddr hdirect (Multiaddr.withoutPeer_ne_nil hempty hbare)
  rw [resolveContact_of_assemble _ h, ← Circuit.append_hop, Multiaddr.withPeer_eq,
    List.append_assoc]
  exact List.mem_map_of_mem hknown

end AddressBook

namespace Host

open Circuit (advertised assemble reservation)
open AddressBook (ofLessons)

/-- An assembled circuit that resolves to something is dialed at it. -/
theorem Switchboard.call?_connect_of_assemble {s : Switchboard} {relay target routed : Contact}
    (h : assemble relay target = .ok routed) (hnew : target.id ∉ s.connected)
    (hne : s.book.resolveContact routed ≠ []) :
    s.call? (.connect routed) = some (.dial target.id (s.book.resolveContact routed)) := by
  have htarget : routed.id = target.id := by rw [Circuit.eq_of_assemble h]
  have hdialed : dialAddresses (s.book.learn routed) routed = s.book.resolveContact routed := by
    rw [dialAddresses_learn, AddressBook.learn_of_assemble _ h, if_neg hne]
  rw [call?_connect (htarget ▸ hnew), hdialed, if_neg hne, htarget]

namespace Session

/-- **Reserving, advertising and dialing agree** for a host that goes by an id, whatever the
relay.

1. What the host advertises is, for each direct address of the relay and in their order, what it
   would reserve if the relay had this address alone, with its own id behind it; and each of these
   addresses leads to the host.
2. From bring-up on, and whatever happens, a reservation is granted only to a request that was made
   for it, and with the address reserved at the relay of this request, with the host's own id
   behind it. If the first address of the relay is direct, this is the first address that the host
   advertises.
3. Another host whose book has learned the relay assembles the circuit to the first one, unless
   the first address of the relay ends in another peer. It resolves it to what is advertised for
   every direct address of the relay that is more than the relay's id, and dials it there if it
   has no connection yet.
4. If the first address of the relay ends in another peer, the circuit is refused, and there is
   nothing to resolve. -/
theorem reserved_advertised_dialed (localId : PeerId) :
    (∀ relay : Contact,
      (advertised relay localId).map Except.ok =
        (relay.addresses.filter fun addr ↦ !addr.isCircuit).map (fun addr ↦
          (reservation ⟨relay.id, [addr]⟩).map (· ++ [.peer localId])) ∧
      ∀ addr ∈ advertised relay localId, Circuit.destination addr = some localId) ∧
    (∀ {role : Role} {port : UInt16} {scope : ListenScope} {ground : Ground}
      {reports left : List Event} {board : Switchboard},
      bringUp role localId port scope ground reports = .ok (board, left) →
        ∀ happenings ticket addr,
          (ticket, .reserved (.ok addr)) ∈ ((start board).run happenings).2 →
            ∃ relay base, (ticket, .reserve relay) ∈ requests happenings ∧
              reservation relay = .ok base ∧ addr = base ++ [.peer localId] ∧
              ((∀ first ∈ relay.addresses.head?, first.isCircuit = false) →
                (advertised relay localId).head? = some addr)) ∧
    (∀ relay target : Contact, target.id = localId →
      (∀ other, ¬ Circuit.Strays relay other) → ∀ lessons, .contact relay ∈ lessons →
        ∀ addr ∈ relay.addresses, addr.isCircuit = false → addr ≠ [] → addr ≠ [.peer relay.id] →
          ∃ routed base, assemble relay target = .ok routed ∧
            reservation ⟨relay.id, [addr]⟩ = .ok base ∧
            base ++ [.peer localId] ∈ advertised relay localId ∧
            base ++ [.peer localId] ∈ (ofLessons lessons).resolveContact routed ∧
            ∀ client : Switchboard, client.book = ofLessons lessons →
              localId ∉ client.connected →
                ∃ addrs, client.call? (.connect routed) = some (.dial localId addrs) ∧
                  base ++ [.peer localId] ∈ addrs) ∧
    ∀ relay target : Contact, ∀ other, Circuit.Strays relay other →
      assemble relay target = .error (.mismatch relay.id other) := by
  refine ⟨fun relay ↦ ⟨Circuit.map_ok_advertised relay localId,
    fun addr ↦ Circuit.destination_of_mem_advertised⟩, ?granted, ?dialed,
    fun relay target other h ↦ Circuit.assemble_of_strays h target⟩
  case granted =>
    intro role port scope ground reports left board hup happenings ticket addr hreply
    obtain ⟨base, ⟨relay, hrequest, hbase⟩, rfl⟩ := (vouched_run hup happenings).2 _ hreply addr rfl
    exact ⟨relay, base, hrequest, hbase, rfl, Circuit.head?_advertised hbase⟩
  case dialed =>
    rintro relay target rfl hstays lessons hlesson addr haddr hdirect hempty hbare
    have hassemble := Circuit.assemble_of_stays (List.ne_nil_of_mem haddr) hstays target
    have hresolved :=
      AddressBook.mem_resolveContact_of_assemble hassemble hlesson haddr hdirect hempty hbare
    refine ⟨_, _, hassemble, rfl, Circuit.mem_advertised haddr hdirect _, hresolved,
      fun client hbook hnew ↦ ?_⟩
    rw [← hbook] at hresolved
    have hcall :=
      Switchboard.call?_connect_of_assemble hassemble hnew (List.ne_nil_of_mem hresolved)
    exact ⟨_, hcall, hresolved⟩

/-- A relay with two addresses, of which one ends in its id: a reservation is granted for the first,
and a client that has learned the relay dials both as they are advertised. -/
theorem reserved_advertised_dialed_of_granted :
    let r : PeerId := ⟨⟨0, [1]⟩, rfl⟩
    let l : PeerId := ⟨⟨0, [2]⟩, rfl⟩
    let relay : Contact := ⟨r, [[.memory 7], [.memory 8, .peer r]]⟩
    let addr : Multiaddr := [.memory 7, .peer r, .circuit, .peer l]
    let client : Switchboard :=
      { Switchboard.init ⟨⟨0, [3]⟩, rfl⟩ false false with book := ofLessons [.contact relay] }
    let happenings : List Happening :=
      [.submit 0 (.reserve relay), .turn (.ok 0), .report (.reservationAccepted r)]
    let replies := ((start (.init l false false)).run happenings).2
    replies = [(0, .reserved (.ok addr))] ∧
      (∃ asked base, (0, .reserve asked) ∈ requests happenings ∧ reservation asked = .ok base ∧
        addr = base ++ [.peer l]) ∧
      (advertised relay l).head? = some addr ∧
      ∀ known ∈ relay.addresses, ∃ routed base addrs, assemble relay (.bare l) = .ok routed ∧
        reservation ⟨r, [known]⟩ = .ok base ∧ base ++ [.peer l] ∈ advertised relay l ∧
        client.call? (.connect routed) = some (.dial l addrs) ∧ base ++ [.peer l] ∈ addrs := by
  intro r l relay addr client happenings replies
  have hup : bringUp .mobileClient l 0 .loopback ⟨fun _ ↦ .ok (), fun n _ ↦ .ok n⟩ [] =
      .ok (.init l false false, []) := rfl
  have hreplies : replies = [(0, .reserved (.ok addr))] := by decide
  obtain ⟨-, hgranted, hdialed, -⟩ := reserved_advertised_dialed l
  have hreply : (0, .reserved (.ok addr)) ∈ replies := by
    rw [hreplies]
    exact List.mem_singleton_self _
  obtain ⟨asked, base, hasked, hbase, haddr, -⟩ := hgranted hup happenings 0 addr hreply
  have hstays (other : PeerId) : ¬ Circuit.Strays relay other := by
    intro h
    cases (Circuit.strays_iff.1 h).2
  have hkept : ∀ known ∈ relay.addresses,
      known.isCircuit = false ∧ known ≠ [] ∧ known ≠ [.peer r] := by decide
  refine ⟨hreplies, ⟨asked, base, hasked, hbase, haddr⟩, by decide, fun known hknown ↦ ?_⟩
  obtain ⟨hdirect, hempty, hbare⟩ := hkept known hknown
  obtain ⟨routed, base, hassemble, hbase, hadvertised, -, hcall⟩ := hdialed relay (.bare l) rfl hstays
    [.contact relay] (List.mem_singleton_self _) known hknown hdirect hempty hbare
  obtain ⟨addrs, hdial, hmem⟩ := hcall client rfl (by decide)
  exact ⟨routed, base, addrs, hassemble, hbase, hadvertised, hdial, hmem⟩

/-- **A relay whose address ends in another peer**: the address is direct and more than the relay's
id, a reservation is asked for at it, it is advertised, and a book that has learned the relay leads
a circuit through it there; but the circuit is not assembled, so nothing is resolved that could
be dialed. -/
theorem advertised_of_stray :
    let r : PeerId := ⟨⟨0, [1]⟩, rfl⟩
    let l : PeerId := ⟨⟨0, [2]⟩, rfl⟩
    let other : PeerId := ⟨⟨0, [3]⟩, rfl⟩
    let relay : Contact := ⟨r, [[.memory 7, .peer other]]⟩
    let addr : Multiaddr := [.memory 7, .peer other, .peer r, .circuit, .peer l]
    let book := ofLessons [.contact relay]
    (∀ known ∈ relay.addresses,
        known.isCircuit = false ∧ known ≠ [] ∧ known ≠ [.peer r]) ∧
      advertised relay l = [addr] ∧
      (reservation relay).map (· ++ [.peer l]) = .ok addr ∧
      book.resolve (Circuit.canonical r l) = [addr] ∧
      ¬ ∃ routed, assemble relay (.bare l) = .ok routed ∧ addr ∈ book.resolveContact routed := by
  intro r l other relay addr book
  refine ⟨by decide, by decide, by decide, by decide, ?_⟩
  rintro ⟨routed, hassemble, -⟩
  have hrefused : assemble relay (.bare l) = .error (.mismatch r other) := by decide
  cases hrefused.symm.trans hassemble

end Session

end Host

end Overlay
