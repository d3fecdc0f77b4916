import Overlay.AddressBook

/-!
# What an address book has learned

A book is what it was taught: `ofLessons` is the book after a list of lessons, each of them a
contact or an address of a peer. A contact is no more than its addresses
(`ofLessons_eq_learnPairs`), so all that is to be known of a book follows from one step,
`learnAddress_cases`: an address is added at the end of what is known of its peer, or nothing
happens at all.

From it come the two facts that the resolution of circuits rests on, each by one induction over the
lessons: no address is known twice (`nodup_known_ofLessons`), and what was once taught stays
known (`mem_known_ofLessons`).
-/

namespace Overlay

namespace Multiaddr

/-- An address that ends in the peer is what stands before the peer, and the peer. -/
theorem eq_dropLast_append {addr : Multiaddr} {id : PeerId} (h : addr.endsInPeer? = some id) :
    addr = addr.dropLast ++ [.peer id] := by
  rw [endsInPeer?] at h
  split at h
  · next last hlast =>
    cases h
    obtain ⟨before, rfl⟩ := List.getLast?_eq_some_iff.1 hlast
    rw [List.dropLast_concat]
  · cases h

/-- Putting a peer behind an address and taking it away again agree. -/
theorem withPeer_eq (addr : Multiaddr) (id : PeerId) :
    addr.withPeer id = addr.withoutPeer id ++ [.peer id] := by
  rw [withPeer, withoutPeer]
  split
  · next h => exact eq_dropLast_append h
  · rfl

/-- Nothing but the empty address and the bare peer is empty without the peer. -/
theorem withoutPeer_ne_nil {addr : Multiaddr} {id : PeerId} (hempty : addr ≠ [])
    (hbare : addr ≠ [.peer id]) : addr.withoutPeer id ≠ [] := by
  rw [withoutPeer]
  split
  · next h =>
    intro hnil
    have hends := eq_dropLast_append h
    rw [hnil, List.nil_append] at hends
    exact hbare hends
  · exact hempty

end Multiaddr

namespace AddressBook

/-- One thing that a book is taught. -/
inductive Lesson where
  | contact (c : Contact)
  | address (peer : PeerId) (addr : Multiaddr)
deriving DecidableEq, Repr

/-- The addresses of a lesson, each with its peer. -/
def Lesson.pairs : Lesson → List (PeerId × Multiaddr)
  | .contact c => c.addresses.map fun addr ↦ (c.id, addr)
  | .address peer addr => [(peer, addr)]

/-- The book after a lesson. -/
def teach (book : AddressBook) : Lesson → AddressBook
  | .contact c => book.learn c
  | .address peer addr => book.learnAddress peer addr

/-- The book after some lessons. -/
def ofLessons (lessons : List Lesson) : AddressBook := lessons.foldl teach empty

/-- **A contact is its addresses.** -/
theorem teach_eq_learnPairs (book : AddressBook) (lesson : Lesson) :
    book.teach lesson = book.learnPairs lesson.pairs := by
  cases lesson with
  | contact c => rw [teach, learn, learnPairs, Lesson.pairs, List.foldl_map]
  | address peer addr => rfl

theorem ofLessons_eq_learnPairs (lessons : List Lesson) :
    ofLessons lessons = empty.learnPairs (lessons.flatMap Lesson.pairs) := by
  rw [ofLessons, learnPairs, List.foldl_flatMap]
  exact congrArg (lessons.foldl · empty)
    (funext fun book ↦ funext fun lesson ↦ teach_eq_learnPairs book lesson)

/-! ### One address -/

theorem known_remember (book : AddressBook) {peer : PeerId} {addr : Multiaddr}
    (hnew : addr ∉ book.known peer) :
    (book.remember peer addr).known peer = book.known peer ++ [addr] := by
  rw [remember, if_neg hnew, known, Keyed.find?_put_self, Option.getD_some]

theorem known_remember_of_ne (book : AddressBook) {peer other : PeerId} (addr : Multiaddr)
    (h : other ≠ peer) : (book.remember peer addr).known other = book.known other := by
  rw [remember]
  split
  · rfl
  · rw [known, Keyed.find?_put_of_ne h, known]

/-- **One address** teaches nothing, or it is new and goes to the end of what is known of its
peer. -/
theorem learnAddress_cases (book : AddressBook) (peer : PeerId) (addr : Multiaddr) :
    book.learnAddress peer addr = book ∨
      addr.withoutPeer peer ∉ book.known peer ∧
        (book.learnAddress peer addr).known peer =
          book.known peer ++ [addr.withoutPeer peer] := by
  rw [learnAddress]
  split
  · exact .inl rfl
  · split
    · exact .inl rfl
    · by_cases hknown : addr.withoutPeer peer ∈ book.known peer
      · exact .inl (if_pos hknown)
      · exact .inr ⟨hknown, book.known_remember hknown⟩

/-- A direct address that is more than its peer is known afterwards. -/
theorem mem_known_learnAddress (book : AddressBook) {peer : PeerId} {addr : Multiaddr}
    (hdirect : addr.isCircuit = false) (hne : addr.withoutPeer peer ≠ []) :
    addr.withoutPeer peer ∈ (book.learnAddress peer addr).known peer := by
  have hcircuit : ¬ addr.isCircuit = true := Bool.not_eq_true _ ▸ hdirect
  rw [learnAddress, if_neg hcircuit, if_neg hne]
  by_cases hknown : addr.withoutPeer peer ∈ book.known peer
  · rwa [remember, if_pos hknown]
  · rw [book.known_remember hknown]
    exact List.mem_append_right _ (List.mem_singleton_self _)

/-- Of other peers it tells nothing. -/
theorem known_learnAddress_of_ne (book : AddressBook) {peer other : PeerId} (addr : Multiaddr)
    (h : other ≠ peer) : (book.learnAddress peer addr).known other = book.known other := by
  rw [learnAddress]
  split
  · rfl
  · split
    · rfl
    · exact book.known_remember_of_ne _ h

theorem known_prefix_learnAddress (book : AddressBook) (peer other : PeerId) (addr : Multiaddr) :
    book.known other <+: (book.learnAddress peer addr).known other := by
  by_cases h : other = peer
  · subst h
    rcases book.learnAddress_cases other addr with hnone | ⟨-, hone⟩
    · exact ⟨[], by rw [hnone, List.append_nil]⟩
    · exact ⟨_, hone.symm⟩
  · have hsame := book.known_learnAddress_of_ne addr h
    exact ⟨[], by rw [hsame, List.append_nil]⟩

theorem nodup_known_learnAddress {book : AddressBook} {other : PeerId}
    (h : (book.known other).Nodup) (peer : PeerId) (addr : Multiaddr) :
    ((book.learnAddress peer addr).known other).Nodup := by
  by_cases heq : other = peer
  · subst heq
    rcases book.learnAddress_cases other addr with hnone | ⟨hnew, hone⟩
    · rwa [hnone]
    · rw [hone]
      refine List.nodup_append.2 ⟨h, List.pairwise_singleton _ _, ?_⟩
      rintro known hknown _ hadded rfl
      exact hnew (List.mem_singleton.1 hadded ▸ hknown)
  · rwa [book.known_learnAddress_of_ne addr heq]

/-! ### Many addresses -/

theorem known_prefix_learnPairs (book : AddressBook) (pairs : List (PeerId × Multiaddr))
    (peer : PeerId) : book.known peer <+: (book.learnPairs pairs).known peer := by
  induction pairs generalizing book with
  | nil => exact List.prefix_rfl
  | cons x pairs ih => exact (book.known_prefix_learnAddress x.1 peer x.2).trans (ih _)

theorem mem_known_learnPairs (book : AddressBook) {pairs : List (PeerId × Multiaddr)}
    {peer : PeerId} {addr : Multiaddr} (hmem : (peer, addr) ∈ pairs)
    (hdirect : addr.isCircuit = false) (hne : addr.withoutPeer peer ≠ []) :
    addr.withoutPeer peer ∈ (book.learnPairs pairs).known peer := by
  induction pairs generalizing book with
  | nil => cases hmem
  | cons x pairs ih =>
    rcases List.mem_cons.1 hmem with rfl | hmem
    · have hlearned := book.mem_known_learnAddress hdirect hne
      exact (known_prefix_learnPairs _ pairs peer).subset hlearned
    · exact ih _ hmem

/-- **No address is known twice.** -/
theorem nodup_known_ofLessons (lessons : List Lesson) (peer : PeerId) :
    ((ofLessons lessons).known peer).Nodup := by
  rw [ofLessons_eq_learnPairs]
  have hempty : (empty.known peer).Nodup := List.nodup_nil
  generalize empty = book at hempty
  induction lessons.flatMap Lesson.pairs generalizing book with
  | nil => exact hempty
  | cons x pairs ih => exact ih _ (nodup_known_learnAddress hempty x.1 x.2)

/-- **What a contact teaches stays known**: every direct address that is more than the peer. -/
theorem mem_known_ofLessons {lessons : List Lesson} {c : Contact} {addr : Multiaddr}
    (hlesson : .contact c ∈ lessons) (haddr : addr ∈ c.addresses)
    (hdirect : addr.isCircuit = false) (hne : addr.withoutPeer c.id ≠ []) :
    addr.withoutPeer c.id ∈ (ofLessons lessons).known c.id := by
  rw [ofLessons_eq_learnPairs]
  have hpair : (c.id, addr) ∈ lessons.flatMap Lesson.pairs :=
    List.mem_flatMap.2 ⟨_, hlesson, List.mem_map_of_mem haddr⟩
  exact mem_known_learnPairs _ hpair hdirect hne

end AddressBook

end Overlay
