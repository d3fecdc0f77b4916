import Overlay.Proofs.AddressBook.Learning

/-!
# What a book knows is what it was told

A book forgets nothing and adds nothing: what it knows of a peer are the locations among the
addresses that it was told of the peer, each once and in the order in which they were first told
(`known_ofLessons`). A *location* is a direct address without the peer's id at its end; an address
that is nothing but the id has none.

So a book is a function of its lessons in closed form, and nothing about it needs an induction any
more. What one lesson leaves alone, and that lessons about different peers may change places, are
facts about `told`, the list of what was told of one peer: there, a lesson about another peer is
nothing.
-/

namespace Overlay

namespace Multiaddr

/-- The peer that was put behind an address is taken away again. -/
theorem withoutPeer_withPeer (addr : Multiaddr) (id : PeerId) :
    (addr.withPeer id).withoutPeer id = addr.withoutPeer id := by
  rw [withPeer]
  split
  · rfl
  · next h =>
    have hends : (addr ++ [.peer id] : Multiaddr).endsInPeer? = some id := by
      rw [endsInPeer?, List.getLast?_concat]
    rw [withoutPeer, if_pos hends, withoutPeer, if_neg h, List.dropLast_concat]

/-- The peer at its end makes no circuit of an address. -/
theorem isCircuit_withPeer (addr : Multiaddr) (id : PeerId) :
    (addr.withPeer id).isCircuit = addr.isCircuit := by
  rw [withPeer]
  split
  · rfl
  · rw [isCircuit_append]
    exact Bool.or_false _

/-- Nor does taking it away. -/
theorem isCircuit_withoutPeer {addr : Multiaddr} (h : addr.isCircuit = false) (id : PeerId) :
    (addr.withoutPeer id).isCircuit = false := by
  rw [withoutPeer]
  split
  · rw [isCircuit_eq_false_iff] at h ⊢
    exact fun hmem ↦ h (List.dropLast_subset addr hmem)
  · exact h

end Multiaddr

namespace AddressBook

/-- The peer about whom a lesson is. -/
def Lesson.peer : Lesson → PeerId
  | .contact c => c.id
  | .address peer _ => peer

/-- The addresses of one peer among addresses of many. -/
def ofPeer (peer : PeerId) (pairs : List (PeerId × Multiaddr)) : List Multiaddr :=
  (pairs.filter fun x ↦ x.1 = peer).map Prod.snd

/-- The addresses that some lessons tell of a peer, as they tell them. -/
def told (peer : PeerId) (lessons : List Lesson) : List Multiaddr :=
  ofPeer peer (lessons.flatMap Lesson.pairs)

/-- The locations among some addresses of a peer: the direct ones, without one mention of the
peer at their end, as far as anything is left of them. -/
def locations (peer : PeerId) (addrs : List Multiaddr) : List Multiaddr :=
  ((addrs.filter fun addr ↦ !addr.isCircuit).map (·.withoutPeer peer)).filter (!·.isEmpty)

/-! ### What was told -/

theorem ofPeer_cons_self (peer : PeerId) (addr : Multiaddr) (pairs : List (PeerId × Multiaddr)) :
    ofPeer peer ((peer, addr) :: pairs) = addr :: ofPeer peer pairs := by
  simp [ofPeer]

theorem ofPeer_cons_of_ne {peer other : PeerId} (h : other ≠ peer) (addr : Multiaddr)
    (pairs : List (PeerId × Multiaddr)) :
    ofPeer peer ((other, addr) :: pairs) = ofPeer peer pairs := by
  simp [ofPeer, h]

theorem told_append (peer : PeerId) (lessons more : List Lesson) :
    told peer (lessons ++ more) = told peer lessons ++ told peer more := by
  simp only [told, ofPeer, List.flatMap_append, List.filter_append, List.map_append]

/-- A lesson tells nothing of other peers. -/
theorem told_of_ne {peer : PeerId} {lesson : Lesson} (h : lesson.peer ≠ peer) :
    told peer [lesson] = [] := by
  rw [told, List.flatMap_singleton, ofPeer, List.map_eq_nil_iff, List.filter_eq_nil_iff]
  intro x hx
  have hpeer : x.1 = lesson.peer := by
    cases lesson with
    | contact c =>
      obtain ⟨addr, -, rfl⟩ := List.mem_map.1 hx
      rfl
    | address peer addr => rw [List.mem_singleton.1 hx, Lesson.peer]
  rw [hpeer, decide_eq_true_eq]
  exact h

/-! ### Locations -/

theorem locations_append (peer : PeerId) (addrs more : List Multiaddr) :
    locations peer (addrs ++ more) = locations peer addrs ++ locations peer more := by
  simp only [locations, List.filter_append, List.map_append]

theorem locations_cons (peer : PeerId) (addr : Multiaddr) (addrs : List Multiaddr) :
    locations peer (addr :: addrs) =
      if addr.isCircuit then locations peer addrs
      else if addr.withoutPeer peer = [] then locations peer addrs
      else addr.withoutPeer peer :: locations peer addrs := by
  by_cases hcircuit : addr.isCircuit = true
  · simp only [locations, List.filter_cons, hcircuit, Bool.not_true, Bool.false_eq_true, if_false,
      if_true]
  · by_cases hnil : addr.withoutPeer peer = []
    · simp [locations, hcircuit, hnil]
    · simp [locations, hcircuit, hnil]

theorem mem_locations {peer : PeerId} {addrs : List Multiaddr} {location : Multiaddr} :
    location ∈ locations peer addrs ↔
      ∃ addr ∈ addrs, addr.isCircuit = false ∧ addr.withoutPeer peer = location ∧
        location ≠ [] := by
  simp only [locations, List.mem_filter, List.mem_map, Bool.not_eq_true', List.isEmpty_eq_false_iff]
  constructor
  · rintro ⟨⟨addr, ⟨hmem, hdirect⟩, hloc⟩, hne⟩
    exact ⟨addr, hmem, hdirect, hloc, hne⟩
  · rintro ⟨addr, hmem, hdirect, hloc, hne⟩
    exact ⟨⟨addr, ⟨hmem, hdirect⟩, hloc⟩, hne⟩

/-! ### One list, each element once -/

section EraseDups

variable {α : Type} [BEq α] [LawfulBEq α]

/-- What stands in a list already counts no second time. -/
theorem eraseDups_append_of_mem {xs : List α} {x : α} (h : x ∈ xs) (ys : List α) :
    (xs ++ x :: ys).eraseDups = (xs ++ ys).eraseDups := by
  have hcontains : xs.contains x = true := List.contains_iff_mem.2 h
  rw [List.eraseDups_append, List.eraseDups_append, List.cons_removeAll, hcontains]
  rfl

theorem eraseDups_of_nodup {xs : List α} (h : xs.Nodup) : xs.eraseDups = xs := by
  induction xs with
  | nil => rfl
  | cons x xs ih =>
    obtain ⟨hnew, hrest⟩ := List.nodup_cons.1 h
    have hkept : xs.filter (fun y ↦ !y == x) = xs := by
      refine List.filter_eq_self.2 fun y hy ↦ ?_
      rw [Bool.not_eq_true', beq_eq_false_iff_ne]
      exact fun heq ↦ hnew (heq ▸ hy)
    rw [List.eraseDups_cons, hkept, ih hrest]

end EraseDups

/-! ### The closed form -/

/-- **One address** joins what is known with its location, if it has one. -/
theorem eraseDups_known_learnAddress (book : AddressBook) (peer : PeerId) (addr : Multiaddr)
    (more : List Multiaddr) :
    ((book.learnAddress peer addr).known peer ++ locations peer more).eraseDups =
      (book.known peer ++ locations peer (addr :: more)).eraseDups := by
  rw [locations_cons, learnAddress]
  split
  · rfl
  · split
    · rfl
    · by_cases hknown : addr.withoutPeer peer ∈ book.known peer
      · rw [remember, if_pos hknown, eraseDups_append_of_mem hknown]
      · rw [book.known_remember hknown, List.append_assoc]
        rfl

/-- What is known goes on with the locations among the addresses that are told. -/
theorem known_learnPairs {book : AddressBook} {peer : PeerId} (h : (book.known peer).Nodup)
    (pairs : List (PeerId × Multiaddr)) :
    (book.learnPairs pairs).known peer =
      (book.known peer ++ locations peer (ofPeer peer pairs)).eraseDups := by
  induction pairs generalizing book with
  | nil =>
    show book.known peer = (book.known peer ++ []).eraseDups
    rw [List.append_nil, eraseDups_of_nodup h]
  | cons x pairs ih =>
    obtain ⟨other, addr⟩ := x
    show ((book.learnAddress other addr).learnPairs pairs).known peer = _
    rw [ih (nodup_known_learnAddress h other addr)]
    by_cases hpeer : other = peer
    · subst hpeer
      rw [ofPeer_cons_self, eraseDups_known_learnAddress]
    · rw [ofPeer_cons_of_ne hpeer, book.known_learnAddress_of_ne addr (Ne.symm hpeer)]

/-- **What a book knows of a peer** are the locations that it was told, each once. -/
theorem known_ofLessons (lessons : List Lesson) (peer : PeerId) :
    (ofLessons lessons).known peer = (locations peer (told peer lessons)).eraseDups := by
  have hempty : (empty.known peer).Nodup := List.nodup_nil
  rw [ofLessons_eq_learnPairs, known_learnPairs hempty, told]
  rfl

/-- A known address is direct and more than nothing. -/
theorem direct_of_mem_known {lessons : List Lesson} {peer : PeerId} {location : Multiaddr}
    (h : location ∈ (ofLessons lessons).known peer) :
    location ≠ [] ∧ location.isCircuit = false := by
  rw [known_ofLessons, List.mem_eraseDups, mem_locations] at h
  obtain ⟨addr, -, hdirect, rfl, hne⟩ := h
  exact ⟨hne, Multiaddr.isCircuit_withoutPeer hdirect peer⟩

/-- More lessons add to what is known, and change nothing of it. -/
theorem known_prefix_ofLessons (lessons more : List Lesson) (peer : PeerId) :
    (ofLessons lessons).known peer <+: (ofLessons (lessons ++ more)).known peer := by
  rw [known_ofLessons, known_ofLessons, told_append, locations_append, List.eraseDups_append]
  exact List.prefix_append _ _

/-- Lessons about different peers may change places. -/
theorem told_swap {a b : Lesson} (h : a.peer ≠ b.peer) (lessons more : List Lesson)
    (peer : PeerId) :
    told peer (lessons ++ a :: b :: more) = told peer (lessons ++ b :: a :: more) := by
  have hsplit (x y : Lesson) :
      told peer (lessons ++ x :: y :: more) =
        told peer lessons ++ (told peer [x] ++ (told peer [y] ++ told peer more)) := by
    rw [← told_append, ← told_append, ← told_append]
    rfl
  rw [hsplit, hsplit]
  by_cases ha : a.peer = peer
  · rw [told_of_ne fun hb ↦ h (ha.trans hb.symm)]
    rfl
  · rw [told_of_ne ha]
    rfl

theorem learnAddress_withPeer (book : AddressBook) (peer : PeerId) (addr : Multiaddr) :
    book.learnAddress peer (addr.withPeer peer) = book.learnAddress peer addr := by
  rw [learnAddress, Multiaddr.isCircuit_withPeer, Multiaddr.withoutPeer_withPeer, learnAddress]

/-- The peer's id at the end of the addresses of a contact teaches nothing. -/
theorem learn_peerAddresses (book : AddressBook) (c : Contact) :
    book.learn ⟨c.id, c.peerAddresses⟩ = book.learn c := by
  rw [learn, learn, Contact.peerAddresses, List.foldl_map]
  exact congrArg (c.addresses.foldl · book)
    (funext fun book ↦ funext fun addr ↦ book.learnAddress_withPeer c.id addr)

/-- **A book is what it was told.** After any lessons, and for every peer:

1. the book knows exactly the locations among the addresses that it was told of the peer: the
   direct ones, without one mention of the peer at their end, as far as anything is left of them;
   each of them once, in the order in which they were first told;
2. so it holds no address twice, no empty address and no circuit;
3. more lessons leave what is known as it is and where it is, and add to its end;
4. a lesson about another peer changes nothing;
5. two lessons about different peers may change places, wherever in the history they stand;
6. a contact teaches the same as the contact with the peer's id at the end of each address. -/
theorem known_eq_told (lessons : List Lesson) (peer : PeerId) :
    (ofLessons lessons).known peer = (locations peer (told peer lessons)).eraseDups ∧
      (((ofLessons lessons).known peer).Nodup ∧
        ∀ addr ∈ (ofLessons lessons).known peer, addr ≠ [] ∧ addr.isCircuit = false) ∧
      (∀ more, (ofLessons lessons).known peer <+: (ofLessons (lessons ++ more)).known peer) ∧
      (∀ lesson : Lesson, lesson.peer ≠ peer →
        (ofLessons (lessons ++ [lesson])).known peer = (ofLessons lessons).known peer) ∧
      (∀ (a b : Lesson) (more : List Lesson), a.peer ≠ b.peer →
        (ofLessons (lessons ++ a :: b :: more)).known peer =
          (ofLessons (lessons ++ b :: a :: more)).known peer) ∧
      ∀ c : Contact,
        (ofLessons lessons).learn ⟨c.id, c.peerAddresses⟩ = (ofLessons lessons).learn c := by
  refine ⟨known_ofLessons lessons peer, ⟨nodup_known_ofLessons lessons peer, ?direct⟩,
    fun more ↦ known_prefix_ofLessons lessons more peer, ?other, ?swap,
    (ofLessons lessons).learn_peerAddresses⟩
  case direct => exact fun addr haddr ↦ direct_of_mem_known haddr
  case other =>
    intro lesson hlesson
    rw [known_ofLessons, known_ofLessons, told_append, told_of_ne hlesson, List.append_nil]
  case swap =>
    intro a b more hne
    rw [known_ofLessons, known_ofLessons, told_swap hne]

/-- The same place told in two spellings, between them another peer, a circuit and the bare id. -/
theorem known_eq_told_of_spellings :
    let p : PeerId := ⟨⟨0, [1]⟩, rfl⟩
    let q : PeerId := ⟨⟨0, [2]⟩, rfl⟩
    let lessons : List Lesson := [.contact ⟨p, [[.memory 7, .peer p], [.peer p, .circuit]]⟩,
      .address q [.memory 8]]
    let more : Lesson := .address p [.memory 7]
    (ofLessons lessons).known p = [[.memory 7]] ∧
      (ofLessons lessons).known p <+: (ofLessons (lessons ++ [more])).known p ∧
      more.peer ≠ q ∧
      (ofLessons (lessons ++ [more])).known q = (ofLessons lessons).known q ∧
      (ofLessons (lessons ++ [more, .address q [.peer q]])).known p =
        (ofLessons (lessons ++ [.address q [.peer q], more])).known p := by
  intro p q lessons more
  obtain ⟨hknown, -, hprefix, -, hswap, -⟩ := known_eq_told lessons p
  obtain ⟨-, -, -, hother, -⟩ := known_eq_told lessons q
  have hpq : more.peer ≠ q := by decide
  exact ⟨hknown.trans (by decide), hprefix [more], hpq, hother more hpq, hswap _ _ [] hpq⟩

end AddressBook

end Overlay
