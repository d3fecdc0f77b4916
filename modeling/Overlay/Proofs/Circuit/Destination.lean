import Overlay.Circuit

/-!
# Where an address leads

`Circuit.destination` folds over an address. Every circuit lets it forget what it has seen, so only
what stands behind the last circuit counts (`destination_split`), and there every peer takes the
place of the one before. As long as no circuit has been passed nothing is kept, so a direct address
is over without a trace (`destination_of_direct`). Both are read off one lemma about a run over
components of which none is a circuit (`foldl_pass_of_direct`).

The rest does not open the fold and is about splits of the address:

* an address leads to the peer that is named last behind its last circuit
  (`destination_eq_some_iff`, `destination_eq_none_iff`);
* of two addresses put together the second one decides if it holds a circuit, and otherwise adds
  its last peer to the first (`composes_destination`);
* the two say the same of any reading of addresses that leads a bare circuit nowhere, for a reading
  that composes leaves only this open (`eq_destination_of_composes`).
-/

namespace Overlay

/-! ### The peer named last -/

/-- The peer that a component names. -/
def Component.peer? : Component → Option PeerId
  | .peer id => some id
  | _ => none

theorem Component.peer?_eq_some_iff {component : Component} {id : PeerId} :
    component.peer? = some id ↔ component = .peer id := by
  cases component with
  | peer other => rw [peer?, Option.some_inj, peer.injEq]
  | _ => exact ⟨fun h ↦ (by cases h), fun h ↦ (by cases h)⟩

namespace Multiaddr

variable {addr : Multiaddr} {id : PeerId}

/-- The peer that an address names last, with circuits or without. -/
def lastPeer? (addr : Multiaddr) : Option PeerId := (addr.filterMap Component.peer?).getLast?

/-- An address names the peer, and no peer after it. -/
def NamesLast (addr : Multiaddr) (id : PeerId) : Prop :=
  ∃ before after : Multiaddr, addr = before ++ .peer id :: after ∧ ∀ other, .peer other ∉ after

theorem lastPeer?_append (addr more : Multiaddr) :
    (addr ++ more).lastPeer? = more.lastPeer?.or addr.lastPeer? := by
  rw [lastPeer?, List.filterMap_append, List.getLast?_append, lastPeer?, lastPeer?]

theorem lastPeer?_cons (component : Component) (addr : Multiaddr) :
    lastPeer? (component :: addr) = addr.lastPeer?.or component.peer? := by
  have hone : lastPeer? [component] = component.peer? := by
    rw [lastPeer?, List.filterMap_cons, List.filterMap_nil]
    cases component.peer? <;> rfl
  rw [← List.singleton_append, lastPeer?_append, hone]

theorem lastPeer?_eq_none_iff : addr.lastPeer? = none ↔ ∀ id, .peer id ∉ addr := by
  rw [lastPeer?, List.getLast?_eq_none_iff, List.filterMap_eq_nil_iff]
  constructor
  · intro h id hmem
    cases h _ hmem
  · intro h component hmem
    refine Option.eq_none_iff_forall_ne_some.2 fun id hid ↦ h id ?_
    rwa [← Component.peer?_eq_some_iff.1 hid]

theorem lastPeer?_eq_some_iff : addr.lastPeer? = some id ↔ addr.NamesLast id := by
  constructor
  · intro h
    obtain ⟨others, hothers⟩ := List.getLast?_eq_some_iff.1 h
    obtain ⟨front, back, rfl, -, hback⟩ := List.filterMap_eq_append_iff.1 hothers
    obtain ⟨between, component, after, rfl, -, hid, hafter⟩ := List.filterMap_eq_cons_iff.1 hback
    obtain rfl := Component.peer?_eq_some_iff.1 hid
    refine ⟨front ++ between, after, (List.append_assoc ..).symm, lastPeer?_eq_none_iff.1 ?_⟩
    rw [lastPeer?, hafter, List.getLast?_nil]
  · rintro ⟨before, after, rfl, hafter⟩
    rw [lastPeer?_append, lastPeer?_cons, lastPeer?_eq_none_iff.2 hafter]
    rfl

/-! ### The last circuit -/

/-- An address with circuits has a last one. -/
theorem exists_last_circuit (h : addr.isCircuit = true) :
    ∃ before suffix : Multiaddr,
      addr = before ++ .circuit :: suffix ∧ suffix.isCircuit = false := by
  -- the library splits at a first occurrence, so the last circuit is the first from the end
  have hmem : .circuit ∈ addr.reverse := List.mem_reverse.2 (isCircuit_eq_true_iff.1 h)
  obtain ⟨front, back, hsplit, hfront⟩ := List.eq_append_cons_of_mem hmem
  refine ⟨back.reverse, front.reverse, ?_,
    isCircuit_eq_false_iff.2 fun hcircuit ↦ hfront (List.mem_reverse.1 hcircuit)⟩
  rw [← addr.reverse_reverse, hsplit, List.reverse_append, List.reverse_cons, List.append_assoc,
    List.singleton_append]

end Multiaddr

namespace Circuit

/-! ### Courses -/

/-- The course after components that are no circuits, by the peer they name last: it counts once a
circuit has been passed. -/
def Course.onward (course : Course) (last : Option PeerId) : Course :=
  if course.relayed then ⟨true, last.or course.destination⟩ else course

@[simp] theorem Course.onward_start (last : Option PeerId) : Course.start.onward last = .start := rfl

@[simp] theorem Course.onward_none (course : Course) : course.onward none = course := by
  obtain ⟨relayed, destination⟩ := course
  cases relayed <;> rfl

theorem Course.onward_onward (course : Course) (first last : Option PeerId) :
    (course.onward first).onward last = course.onward (last.or first) := by
  obtain ⟨relayed, destination⟩ := course
  cases relayed with
  | false => rfl
  | true => exact congrArg (Course.mk true) Option.or_assoc.symm

/-- Apart from a circuit, a component tells a course no more than the peer it names. -/
theorem Course.pass_of_ne {component : Component} (h : component ≠ .circuit) (course : Course) :
    course.pass component = course.onward component.peer? := by
  cases component with
  | circuit => exact absurd rfl h
  | peer id =>
    obtain ⟨relayed, destination⟩ := course
    cases relayed <;> rfl
  | _ => exact course.onward_none.symm

/-- **A run over a direct address** depends on the peer it names last, and on nothing else. -/
theorem foldl_pass_of_direct {base : Multiaddr} (h : base.isCircuit = false) (course : Course) :
    base.foldl Course.pass course = course.onward base.lastPeer? := by
  rw [Multiaddr.isCircuit_eq_false_iff] at h
  -- for all courses at once: one that has passed a circuit is changed by every peer
  induction base generalizing course with
  | nil => exact course.onward_none.symm
  | cons component base ih =>
    rw [List.mem_cons, not_or] at h
    obtain ⟨hfirst, hrest⟩ := h
    rw [List.foldl_cons, Course.pass_of_ne (Ne.symm hfirst), ih hrest, Course.onward_onward,
      Multiaddr.lastPeer?_cons]

/-! ### What counts of an address -/

/-- A direct address leads nowhere, whatever peers it names. -/
theorem destination_of_direct {addr : Multiaddr} (h : addr.isCircuit = false) :
    destination addr = none := by
  rw [destination, foldl_pass_of_direct h, Course.onward_start, Course.start]

/-- **What stands before the last circuit does not matter**, and behind it only the last peer
does. -/
theorem destination_split (before : Multiaddr) {suffix : Multiaddr}
    (h : suffix.isCircuit = false) :
    destination (before ++ .circuit :: suffix) = suffix.lastPeer? := by
  rw [destination, List.foldl_append, List.foldl_cons, Course.pass, foldl_pass_of_direct h]
  exact Option.or_none

/-- A direct address in front of another one does not change where that one leads. -/
theorem destination_append_of_direct {base : Multiaddr} (h : base.isCircuit = false)
    (addr : Multiaddr) : destination (base ++ addr) = destination addr := by
  rw [destination, List.foldl_append, foldl_pass_of_direct h, Course.onward_start, destination]

/-! ### The last peer behind the last circuit -/

/-- An address leads to the peer: behind its last circuit it names the peer, and no peer after
it. -/
def LeadsTo (addr : Multiaddr) (id : PeerId) : Prop :=
  ∃ before suffix : Multiaddr,
    addr = before ++ .circuit :: suffix ∧ .circuit ∉ suffix ∧ suffix.NamesLast id

theorem destination_eq_some_iff {addr : Multiaddr} {id : PeerId} :
    destination addr = some id ↔ LeadsTo addr id := by
  constructor
  · intro h
    cases hcircuit : addr.isCircuit with
    | false => cases (destination_of_direct hcircuit).symm.trans h
    | true =>
      obtain ⟨before, suffix, rfl, hdirect⟩ := Multiaddr.exists_last_circuit hcircuit
      rw [destination_split before hdirect] at h
      exact ⟨before, suffix, rfl, Multiaddr.isCircuit_eq_false_iff.1 hdirect,
        Multiaddr.lastPeer?_eq_some_iff.1 h⟩
  · rintro ⟨before, suffix, rfl, hdirect, hlast⟩
    rw [destination_split before (Multiaddr.isCircuit_eq_false_iff.2 hdirect)]
    exact Multiaddr.lastPeer?_eq_some_iff.2 hlast

theorem destination_eq_none_iff {addr : Multiaddr} :
    destination addr = none ↔
      .circuit ∉ addr ∨ ∃ before suffix : Multiaddr,
        addr = before ++ .circuit :: suffix ∧ .circuit ∉ suffix ∧ ∀ id, .peer id ∉ suffix := by
  constructor
  · intro h
    cases hcircuit : addr.isCircuit with
    | false => exact .inl (Multiaddr.isCircuit_eq_false_iff.1 hcircuit)
    | true =>
      obtain ⟨before, suffix, rfl, hdirect⟩ := Multiaddr.exists_last_circuit hcircuit
      rw [destination_split before hdirect] at h
      exact .inr ⟨before, suffix, rfl, Multiaddr.isCircuit_eq_false_iff.1 hdirect,
        Multiaddr.lastPeer?_eq_none_iff.1 h⟩
  · rintro (hdirect | ⟨before, suffix, rfl, hdirect, hnone⟩)
    · exact destination_of_direct (Multiaddr.isCircuit_eq_false_iff.2 hdirect)
    · rw [destination_split before (Multiaddr.isCircuit_eq_false_iff.2 hdirect)]
      exact Multiaddr.lastPeer?_eq_none_iff.2 hnone

/-! ### Addresses put together -/

/-- How a reading of addresses takes two of them put together: as the second alone if that one
holds a circuit; as the second one's last peer, or else as the first alone, if only the first
holds one; and as leading nowhere without any circuit. -/
def Composes (lead : Multiaddr → Option PeerId) : Prop :=
  ∀ addr more : Multiaddr, lead (addr ++ more) =
    if more.isCircuit then lead more
    else if addr.isCircuit then more.lastPeer?.or (lead addr)
    else none

theorem composes_destination : Composes destination := by
  intro addr more
  cases hmore : more.isCircuit with
  | true =>
    obtain ⟨before, suffix, rfl, hdirect⟩ := Multiaddr.exists_last_circuit hmore
    rw [if_pos rfl, ← List.append_assoc, destination_split _ hdirect, destination_split _ hdirect]
  | false =>
    rw [if_neg Bool.false_ne_true]
    cases haddr : addr.isCircuit with
    | true =>
      obtain ⟨before, suffix, rfl, hdirect⟩ := Multiaddr.exists_last_circuit haddr
      have hlonger : Multiaddr.isCircuit (suffix ++ more) = false := by
        rw [Multiaddr.isCircuit_append, hdirect, hmore, Bool.or_false]
      rw [if_pos rfl, List.append_assoc, List.cons_append, destination_split _ hlonger,
        Multiaddr.lastPeer?_append, destination_split _ hdirect]
    | false =>
      rw [if_neg Bool.false_ne_true]
      apply destination_of_direct
      rw [Multiaddr.isCircuit_append, haddr, hmore, Bool.or_false]

/-- Of a reading that composes, only the answer to a bare circuit is left open. -/
theorem eq_destination_of_composes {lead : Multiaddr → Option PeerId} (hlead : Composes lead)
    (hbare : lead [.circuit] = none) : lead = destination := by
  funext addr
  cases haddr : addr.isCircuit with
  | false =>
    have hnowhere := hlead addr []
    rw [List.append_nil, haddr] at hnowhere
    exact hnowhere.trans (destination_of_direct haddr).symm
  | true =>
    obtain ⟨before, suffix, rfl, hdirect⟩ := Multiaddr.exists_last_circuit haddr
    have hcircuit : Multiaddr.isCircuit (before ++ [.circuit]) = true := by
      rw [Multiaddr.isCircuit_append]
      exact Bool.or_true _
    have hforgets : lead (before ++ [.circuit]) = none := (hlead before [.circuit]).trans hbare
    calc lead (before ++ .circuit :: suffix)
        = lead ((before ++ [.circuit]) ++ suffix) := by
          rw [List.append_assoc, List.singleton_append]
      _ = suffix.lastPeer?.or (lead (before ++ [.circuit])) := by
          rw [hlead, hdirect, hcircuit, if_neg Bool.false_ne_true, if_pos rfl]
      _ = destination (before ++ .circuit :: suffix) := by
          rw [hforgets, Option.or_none, destination_split before hdirect]

/-- **Where an address leads**, for any number of circuits and peers in it:

1. it leads to a peer exactly if it splits at a circuit, with no circuit after it, and this peer is
   the last one named there;
2. it leads nowhere exactly if it holds no circuit, or no peer is named after the last one;
3. of two addresses put together the second one decides if it holds a circuit; if only the first
   does, the last peer of the second decides, or else the first; without a circuit there is no
   destination;
4. the first and the third say the same: any reading of addresses that has the one has the other,
   given that a bare circuit leads nowhere. -/
theorem last_peer_behind_last_circuit :
    (∀ addr id, destination addr = some id ↔ LeadsTo addr id) ∧
    (∀ addr : Multiaddr, destination addr = none ↔
      .circuit ∉ addr ∨ ∃ before suffix : Multiaddr,
        addr = before ++ .circuit :: suffix ∧ .circuit ∉ suffix ∧ ∀ id, .peer id ∉ suffix) ∧
    Composes destination ∧
    ∀ lead : Multiaddr → Option PeerId,
      (∀ addr id, lead addr = some id ↔ LeadsTo addr id) ↔
        lead [.circuit] = none ∧ Composes lead := by
  refine ⟨fun _ _ ↦ destination_eq_some_iff, fun _ ↦ destination_eq_none_iff,
    composes_destination, fun lead ↦ ⟨fun h ↦ ?composes, ?leads⟩⟩
  case composes =>
    have hlead : lead = destination := by
      funext addr
      exact Option.ext fun id ↦ (h addr id).trans destination_eq_some_iff.symm
    exact hlead ▸ ⟨rfl, composes_destination⟩
  case leads =>
    rintro ⟨hbare, hcomposes⟩ addr id
    rw [eq_destination_of_composes hcomposes hbare]
    exact destination_eq_some_iff

/-- A circuit behind another one: the peer named between the two is forgotten, and of the peers
behind the second one the last one counts. -/
example (relay far target : PeerId) :
    destination [.peer relay, .circuit, .peer far, .circuit] = none ∧
      destination [.peer relay, .circuit, .peer far, .circuit, .peer relay, .peer target,
        .memory 7] = some target := ⟨rfl, rfl⟩

end Circuit

end Overlay
