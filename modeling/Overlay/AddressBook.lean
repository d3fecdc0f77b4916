import Overlay.Circuit
import Overlay.Keyed

/-!
# The address book

The book remembers the direct addresses learned for each peer, in the order in which they
were first learned and without the peer's own id at the end. Circuit addresses and
addresses that are nothing but the id are not remembered.

Before dialing, `resolve` puts every known address of the relay in front of an address
that begins with the relay's id and goes through a circuit.
-/

namespace Overlay

/-- The known addresses of each peer; every peer has at most one entry. -/
structure AddressBook where
  entries : List (PeerId × List Multiaddr)
deriving Repr

namespace AddressBook

/-- The book that knows nothing. -/
def empty : AddressBook := ⟨[]⟩

/-- The known addresses of a peer. -/
def known (book : AddressBook) (peer : PeerId) : List Multiaddr :=
  (Keyed.find? peer book.entries).getD []

/-- Adds an address at the end of a peer's addresses if it is new. -/
def remember (book : AddressBook) (peer : PeerId) (addr : Multiaddr) : AddressBook :=
  let addrs := book.known peer
  if addr ∈ addrs then book else ⟨Keyed.put peer (addrs ++ [addr]) book.entries⟩

/-- Learns one direct address of a peer; a circuit, or the bare id, teaches nothing. -/
def learnAddress (book : AddressBook) (peer : PeerId) (addr : Multiaddr) : AddressBook :=
  if addr.isCircuit then book
  else if addr.withoutPeer peer = [] then book
  else book.remember peer (addr.withoutPeer peer)

/-- Learns the direct addresses of a contact. -/
def learn (book : AddressBook) (contact : Contact) : AddressBook :=
  contact.addresses.foldl (fun book addr ↦ book.learnAddress contact.id addr) book

/-- Learns addresses, each of its own peer. -/
def learnPairs (book : AddressBook) (pairs : List (PeerId × Multiaddr)) : AddressBook :=
  pairs.foldl (fun book x ↦ book.learnAddress x.1 x.2) book

/-- The addresses to dial for an address: a circuit that begins with the relay's id is led
through every known address of the relay, and every other address stands for itself. -/
def resolve (book : AddressBook) (addr : Multiaddr) : List Multiaddr :=
  match addr.startsWithPeer? with
  | some relay =>
    if addr.isCircuit then (book.known relay).map (· ++ addr) else [addr]
  | none => [addr]

/-- The addresses to dial for a contact. -/
def resolveContact (book : AddressBook) (contact : Contact) : List Multiaddr :=
  contact.addresses.flatMap book.resolve

end AddressBook

end Overlay
