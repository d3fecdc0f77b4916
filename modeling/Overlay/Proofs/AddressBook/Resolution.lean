import Overlay.Proofs.AddressBook.History
import Overlay.Proofs.Circuit.Destination

/-!
# Resolving keeps the meaning of an address

What resolving can come to is said once (`Resolved`): an address that begins with a relay and goes
through a circuit is led over every known address of the relay, and any other comes back as it
is. So a resolved address is the address itself, with nothing or a known address in front
(`Resolved.exists_base`).

That this keeps the meaning rests on the book, which holds direct addresses only
(`direct_of_mem_known`): what they put in front has no part in whether the address is a circuit, nor
in where it leads. That no address comes out twice rests on the book too, which knows none twice.
-/

namespace Overlay

namespace AddressBook

/-- An address that leads through a relay of which the book knows no address. -/
def LeadsNowhere (book : AddressBook) (addr : Multiaddr) : Prop :=
  ∃ relay rest, addr = .peer relay :: rest ∧ .circuit ∈ rest ∧ book.known relay = []

theorem LeadsNowhere.isCircuit {book : AddressBook} {addr : Multiaddr}
    (h : book.LeadsNowhere addr) : addr.isCircuit = true := by
  obtain ⟨relay, rest, rfl, hcircuit, -⟩ := h
  exact Multiaddr.isCircuit_eq_true_iff.2 (List.mem_cons_of_mem _ hcircuit)

/-- All that resolving can come to. -/
inductive Resolved (book : AddressBook) (addr : Multiaddr) : List Multiaddr → Prop
  | led {relay : PeerId} {rest : Multiaddr} (haddr : addr = .peer relay :: rest)
      (hcircuit : .circuit ∈ rest) : Resolved book addr ((book.known relay).map (· ++ addr))
  | unchanged (h : ∀ relay rest, addr = .peer relay :: rest → .circuit ∉ rest) :
      Resolved book addr [addr]

theorem resolved (book : AddressBook) (addr : Multiaddr) :
    book.Resolved addr (book.resolve addr) := by
  rw [resolve]
  cases addr with
  | nil => exact .unchanged fun relay rest h ↦ by cases h
  | cons first rest =>
    cases first with
    | peer relay =>
      -- the relay's id is no circuit, so the circuit comes after it
      have hcircuit : Multiaddr.isCircuit (.peer relay :: rest) = true ↔ .circuit ∈ rest := by
        rw [Multiaddr.isCircuit_eq_true_iff, List.mem_cons]
        exact or_iff_right fun h ↦ by cases h
      rw [Multiaddr.startsWithPeer?]
      dsimp only
      split
      · next h => exact .led rfl (hcircuit.1 h)
      · next h =>
        refine .unchanged fun relay' rest' heq hmem ↦ ?_
        cases heq
        exact h (hcircuit.2 hmem)
    | _ => exact .unchanged fun relay rest h ↦ by cases h

/-- Whether an address is led over the addresses of a relay does not hang on the book. -/
theorem resolve_of_led (book : AddressBook) {addr : Multiaddr} {relay : PeerId}
    {rest : Multiaddr} (haddr : addr = .peer relay :: rest) (hcircuit : .circuit ∈ rest) :
    book.resolve addr = (book.known relay).map (· ++ addr) := by
  have hresolved := book.resolved addr
  generalize book.resolve addr = result at hresolved ⊢
  cases hresolved with
  | led haddr' hcircuit' =>
    cases haddr.symm.trans haddr'
    rfl
  | unchanged h => exact absurd hcircuit (h relay rest haddr)

theorem resolve_of_not_led (book : AddressBook) {addr : Multiaddr}
    (h : ∀ relay rest, addr = .peer relay :: rest → .circuit ∉ rest) :
    book.resolve addr = [addr] := by
  have hresolved := book.resolved addr
  generalize book.resolve addr = result at hresolved ⊢
  cases hresolved with
  | led haddr hcircuit => exact absurd hcircuit (h _ _ haddr)
  | unchanged _ => rfl

/-- A resolved address is the address, with nothing or a known address in front of it. -/
theorem exists_base_of_mem_resolve {book : AddressBook} {addr resolved : Multiaddr}
    (h : resolved ∈ book.resolve addr) :
    ∃ base, resolved = base ++ addr ∧ (base = [] ∨ ∃ relay, base ∈ book.known relay) := by
  have hresolved := book.resolved addr
  generalize book.resolve addr = result at hresolved h
  cases hresolved with
  | @led relay rest haddr hcircuit =>
    obtain ⟨base, hbase, rfl⟩ := List.mem_map.1 h
    exact ⟨base, rfl, .inr ⟨relay, hbase⟩⟩
  | unchanged _ => exact ⟨[], List.mem_singleton.1 h, .inl rfl⟩

/-- An address resolves to nothing if it leads nowhere, and in no other case. -/
theorem resolve_eq_nil_iff {book : AddressBook} {addr : Multiaddr} :
    book.resolve addr = [] ↔ book.LeadsNowhere addr := by
  constructor
  · intro h
    have hresolved := book.resolved addr
    rw [h] at hresolved
    generalize hresult : ([] : List Multiaddr) = result at hresolved
    cases hresolved with
    | @led relay rest haddr hcircuit =>
      exact ⟨relay, rest, haddr, hcircuit, List.map_eq_nil_iff.1 hresult.symm⟩
    | unchanged _ => cases hresult
  · rintro ⟨relay, rest, haddr, hcircuit, hknown⟩
    rw [book.resolve_of_led haddr hcircuit, hknown, List.map_nil]

theorem resolveContact_eq_nil_iff {book : AddressBook} {contact : Contact} :
    book.resolveContact contact = [] ↔ ∀ addr ∈ contact.addresses, book.LeadsNowhere addr := by
  rw [resolveContact, List.flatMap_eq_nil_iff]
  exact forall₂_congr fun addr _ ↦ resolve_eq_nil_iff

/-! ### What a taught book makes of an address -/

variable (lessons : List Lesson)

/-- What is put in front of an address is direct. -/
theorem exists_direct_of_mem_resolve {addr resolved : Multiaddr}
    (h : resolved ∈ (ofLessons lessons).resolve addr) :
    ∃ base : Multiaddr, resolved = base ++ addr ∧ base.isCircuit = false := by
  obtain ⟨base, hresolved, hbase⟩ := exists_base_of_mem_resolve h
  refine ⟨base, hresolved, ?_⟩
  rcases hbase with rfl | ⟨relay, hknown⟩
  · rfl
  · exact (direct_of_mem_known hknown).2

theorem nodup_resolve (addr : Multiaddr) : ((ofLessons lessons).resolve addr).Nodup := by
  have hresolved := (ofLessons lessons).resolved addr
  generalize (ofLessons lessons).resolve addr = result at hresolved ⊢
  cases hresolved with
  | @led relay rest haddr hcircuit =>
    refine List.Pairwise.map _ ?_ (nodup_known_ofLessons lessons relay)
    exact fun base other hne heq ↦ hne (List.append_cancel_right heq)
  | unchanged _ => exact List.pairwise_singleton _ _

/-- **Resolving keeps the meaning of an address**, whatever the book was taught and whatever the
address holds. What an address resolves to

1. ends with the address itself, is a circuit if and only if this is one, and leads where this
   leads;
2. holds no address twice;
3. is nothing exactly if the address begins with a relay, goes through a circuit, and the book
   knows no address of the relay;
4. is the address led over every known address of the relay, in the order of the book, if the
   address begins with a relay and goes through a circuit;
5. is the address as it is, and nothing else, in every other case.

And a contact resolves to what its addresses resolve to, one after the other. -/
theorem resolve_meaning :
    (∀ addr : Multiaddr,
      (∀ resolved ∈ (ofLessons lessons).resolve addr,
        addr <:+ resolved ∧ resolved.isCircuit = addr.isCircuit ∧
          Circuit.destination resolved = Circuit.destination addr) ∧
      ((ofLessons lessons).resolve addr).Nodup ∧
      ((ofLessons lessons).resolve addr = [] ↔
        ∃ relay rest, addr = .peer relay :: rest ∧ .circuit ∈ rest ∧
          (ofLessons lessons).known relay = []) ∧
      (∀ relay rest, addr = .peer relay :: rest → .circuit ∈ rest →
        (ofLessons lessons).resolve addr =
          ((ofLessons lessons).known relay).map (· ++ addr)) ∧
      ((∀ relay rest, addr = .peer relay :: rest → .circuit ∉ rest) →
        (ofLessons lessons).resolve addr = [addr])) ∧
    ∀ contact : Contact, (ofLessons lessons).resolveContact contact =
      (contact.addresses.map (ofLessons lessons).resolve).flatten := by
  refine ⟨fun addr ↦ ⟨?meaning, nodup_resolve lessons addr, resolve_eq_nil_iff,
    fun relay rest ↦ (ofLessons lessons).resolve_of_led,
    (ofLessons lessons).resolve_of_not_led⟩, ?contact⟩
  case meaning =>
    intro resolved h
    obtain ⟨base, rfl, hdirect⟩ := exists_direct_of_mem_resolve lessons h
    refine ⟨List.suffix_append base addr, ?_, Circuit.destination_append_of_direct hdirect addr⟩
    rw [Multiaddr.isCircuit_append, hdirect, Bool.false_or]
  case contact =>
    intro contact
    rw [resolveContact, List.flatMap_def]

/-- A circuit through two relays, of which the first is known at two addresses: it is led over both,
and still leads to the end of the second hop. -/
example :
    let r : PeerId := ⟨⟨0, [1]⟩, rfl⟩
    let q : PeerId := ⟨⟨0, [2]⟩, rfl⟩
    let t : PeerId := ⟨⟨0, [3]⟩, rfl⟩
    let addr : Multiaddr := [.peer r, .circuit, .peer q, .circuit, .peer t]
    let book := ofLessons [.contact ⟨r, [[.memory 7, .peer r], [.memory 8]]⟩]
    book.resolve addr = [.memory 7 :: addr, .memory 8 :: addr] ∧
      (book.resolve addr).map Circuit.destination = [some t, some t] := by decide

end AddressBook

end Overlay
