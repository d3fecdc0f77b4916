import Overlay.Proofs.Circuit.Assembly

/-!
# Advertising a circuit

Two functions build the address at which a peer is reached through a relay: `Circuit.advertised`
puts the hop to the peer behind every direct address of the relay, and `Circuit.reservation` puts
the circuit alone behind the first address, direct or not, and leaves the peer to whoever is granted
the reservation. They agree: what is advertised is a reservation at each direct address by itself,
with the peer behind it (`map_ok_advertised`), and so a reservation at a direct first address is
the first that is advertised (`head?_advertised`).
-/

namespace Overlay.Circuit

variable {relay : Contact} {localId : PeerId}

/-- A hop is a circuit and then the peer. -/
theorem append_hop (addr : Multiaddr) (target : PeerId) :
    addr ++ hop target = (addr ++ [.circuit]) ++ [.peer target] := by
  rw [hop, List.append_assoc]
  rfl

/-- **What is advertised** is what would be reserved at each direct address of the relay alone, with
the peer behind it. -/
theorem map_ok_advertised (relay : Contact) (localId : PeerId) :
    (advertised relay localId).map Except.ok =
      (relay.addresses.filter fun addr ↦ !addr.isCircuit).map fun addr ↦
        (reservation ⟨relay.id, [addr]⟩).map (· ++ [.peer localId]) := by
  rw [advertised, List.map_map]
  refine List.map_congr_left fun addr _ ↦ ?_
  rw [Function.comp_apply, append_hop, reservation]
  rfl

theorem mem_advertised {addr : Multiaddr} (haddr : addr ∈ relay.addresses)
    (hdirect : addr.isCircuit = false) (localId : PeerId) :
    (addr.withPeer relay.id ++ [.circuit]) ++ [.peer localId] ∈ advertised relay localId := by
  rw [← append_hop]
  exact List.mem_map_of_mem (List.mem_filter.2 ⟨haddr, Bool.not_eq_true' _ ▸ hdirect⟩)

/-- It leads to the peer. -/
theorem destination_of_mem_advertised {addr : Multiaddr} (h : addr ∈ advertised relay localId) :
    destination addr = some localId := by
  obtain ⟨base, -, rfl⟩ := List.mem_map.1 h
  exact destination_append_hop _ localId

/-- **A reservation at a direct address** is the first that is advertised. -/
theorem head?_advertised {base : Multiaddr} (h : reservation relay = .ok base)
    (hdirect : ∀ first ∈ relay.addresses.head?, first.isCircuit = false) :
    (advertised relay localId).head? = some (base ++ [.peer localId]) := by
  obtain ⟨relayId, addresses⟩ := relay
  cases addresses with
  | nil => cases h
  | cons first rest =>
    cases h
    have hkept : (first :: rest).filter (fun addr ↦ !addr.isCircuit) =
        first :: rest.filter fun addr ↦ !addr.isCircuit :=
      List.filter_cons_of_pos (Bool.not_eq_true' _ ▸ hdirect first rfl)
    rw [advertised, hkept, List.map_cons, List.head?_cons, append_hop]

end Overlay.Circuit
