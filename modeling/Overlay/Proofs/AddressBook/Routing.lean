import Overlay.Proofs.AddressBook.Learning
import Overlay.Proofs.Circuit.Assembly

/-!
# An assembled circuit, resolved

Of the whole address of a circuit `Circuit.assemble` keeps the canonical form only: the relay's own
address is dropped. `AddressBook.resolve` puts it back from what the book knows of the relay, and
`resolveContact_assembled` says that nothing is lost on the way.

Three modules must agree for it on the relay's id at the end of an address: assembling adds it
if it is not there, learning takes it away if it is there, and resolving puts a base in front of
an address that begins with it. That these agree is `Multiaddr.withPeer_eq`, and the rest is what
`Learning` says of the book.
-/

namespace Overlay

namespace AddressBook

/-- A canonical circuit is led through every known address of the relay. -/
theorem resolve_canonical (book : AddressBook) (relay target : PeerId) :
    book.resolve (Circuit.canonical relay target) =
      (book.known relay).map (· ++ [.peer relay, .circuit, .peer target]) := rfl

/-- Dialing an assembled circuit is dialing its canonical form. -/
theorem resolveContact_of_assemble (book : AddressBook) {relay target routed : Contact}
    (h : Circuit.assemble relay target = .ok routed) :
    book.resolveContact routed =
      (book.known relay.id).map (· ++ [.peer relay.id, .circuit, .peer target.id]) := by
  rw [Circuit.eq_of_assemble h]
  rw [resolveContact, List.flatMap_singleton, resolve_canonical]

/-- **Assembling a circuit and resolving it loses nothing.** Whatever the book was taught, the
assembled contact is dialed at

1. every address that the book knows of the relay, in the order of the book, followed by the
   relay, the circuit and the target;
2. no address twice, and none at all exactly if the book knows none of the relay;
3. addresses that all lead to the target;
4. the very address that was built, and dropped, when the circuit was assembled, if the relay was
   taught to the book as a contact and its first address is direct and more than the
   relay's id: whether this address ends in the relay's id or not. -/
theorem resolveContact_assembled (lessons : List Lesson) {relay target routed : Contact}
    (h : Circuit.assemble relay target = .ok routed) :
    (ofLessons lessons).resolveContact routed =
        ((ofLessons lessons).known relay.id).map
          (· ++ [.peer relay.id, .circuit, .peer target.id]) ∧
      ((ofLessons lessons).resolveContact routed).Nodup ∧
      ((ofLessons lessons).resolveContact routed = [] ↔
        (ofLessons lessons).known relay.id = []) ∧
      (∀ addr ∈ (ofLessons lessons).resolveContact routed,
        Circuit.destination addr = some target.id) ∧
      ∀ addr ∈ relay.addresses.head?, .contact relay ∈ lessons → addr.isCircuit = false →
        addr ≠ [] → addr ≠ [.peer relay.id] →
          addr.withPeer relay.id ++ Circuit.hop target.id ∈
            (ofLessons lessons).resolveContact routed := by
  have hresolved := (ofLessons lessons).resolveContact_of_assemble h
  rw [hresolved]
  refine ⟨rfl, ?nodup, List.map_eq_nil_iff, ?leads, ?kept⟩
  case nodup =>
    refine List.Pairwise.map _ ?_ (nodup_known_ofLessons lessons relay.id)
    intro base other hne heq
    exact hne (List.append_cancel_right heq)
  case leads =>
    intro addr haddr
    obtain ⟨base, -, rfl⟩ := List.mem_map.1 haddr
    have hsplit : base ++ [.peer relay.id, .circuit, .peer target.id] =
        (base ++ [.peer relay.id]) ++ Circuit.hop target.id := by
      rw [Circuit.hop, List.append_assoc]
      rfl
    rw [hsplit, Circuit.destination_append_hop]
  case kept =>
    intro addr hfirst hlesson hdirect hempty hbare
    have hmem : addr ∈ relay.addresses := List.mem_of_mem_head? hfirst
    have hknown : addr.withoutPeer relay.id ∈ (ofLessons lessons).known relay.id :=
      mem_known_ofLessons hlesson hmem hdirect (Multiaddr.withoutPeer_ne_nil hempty hbare)
    -- the base was learned without the relay's id, and the circuit brings the id back
    refine List.mem_map.2 ⟨_, hknown, ?_⟩
    rw [Multiaddr.withPeer_eq, Circuit.hop, List.append_assoc]
    rfl

/-- A relay that was taught with its own id at the end of its address, and again without. -/
theorem resolveContact_assembled_of_suffix :
    let relay : Contact := ⟨⟨⟨0, [1]⟩, rfl⟩, [[.memory 7, .peer ⟨⟨0, [1]⟩, rfl⟩]]⟩
    let target : Contact := .bare ⟨⟨0, [2]⟩, rfl⟩
    let routed : Contact := ⟨target.id, [Circuit.canonical relay.id target.id]⟩
    let book := ofLessons [.address relay.id [.memory 7], .contact relay]
    Circuit.assemble relay target = .ok routed ∧
      book.resolveContact routed =
        [[.memory 7, .peer relay.id, .circuit, .peer target.id]] ∧
      [.memory 7, .peer relay.id] ++ Circuit.hop target.id ∈ book.resolveContact routed := by
  intro relay target routed book
  have h : Circuit.assemble relay target = .ok routed := rfl
  obtain ⟨hresolved, -, -, -, hkept⟩ :=
    resolveContact_assembled [.address relay.id [.memory 7], .contact relay] h
  refine ⟨h, hresolved.trans (by decide), ?_⟩
  exact hkept [.memory 7, .peer relay.id] rfl (by decide) (by decide) (by decide) (by decide)

end AddressBook

end Overlay
