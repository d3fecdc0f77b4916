import Overlay.Proofs.Circuit.Destination

/-!
# Assembling a circuit

`Circuit.assemble` builds the whole address of a circuit, checks where it leads, and hands out the
canonical form. What the relay's address holds before its last component, be it circuits or peers,
is of no account for the check: the circuit to the target comes last, and `destination` forgets at
every circuit what it has seen (`destination_append_hop`). So the check never fails (`route_eq`),
and of the relay there matter its id and the last component of its first address (`final?`), of
the target only its id. `assemble_eq_outcome` says so in one equation, and the rest is read off it.
-/

namespace Overlay

/-- The last component of a contact's first address. There is none without an address, and within
the empty address there is none. -/
def Contact.final? (c : Contact) : Option (Option Component) := c.addresses.head?.map List.getLast?

theorem Contact.final?_eq_none_iff {c : Contact} : c.final? = none ↔ c.addresses = [] := by
  rw [final?, Option.map_eq_none_iff, List.head?_eq_none_iff]

theorem Contact.final?_eq_some_iff {c : Contact} {component : Component} :
    c.final? = some (some component) ↔
      ∃ before rest, c.addresses = (before ++ [component]) :: rest := by
  rw [final?, Option.map_eq_some_iff]
  constructor
  · rintro ⟨addr, hfirst, hlast⟩
    obtain ⟨rest, hrest⟩ := List.head?_eq_some_iff.1 hfirst
    obtain ⟨before, rfl⟩ := List.getLast?_eq_some_iff.1 hlast
    exact ⟨before, rest, hrest⟩
  · rintro ⟨before, rest, h⟩
    exact ⟨before ++ [component], by rw [h, List.head?_cons], List.getLast?_concat⟩

namespace Circuit

/-! ### The check -/

/-- A peer named right after a circuit is where the address leads, whatever stands before. -/
@[simp] theorem destination_append_hop (addr : Multiaddr) (target : PeerId) :
    destination (addr ++ hop target) = some target := by
  rw [hop, destination_split addr rfl]
  rfl

/-- **The check never fails**: the whole address leads to the target. -/
theorem route_eq (relay target : Contact) (addr : Multiaddr) :
    assemble.route relay target addr = .ok ⟨target.id, [canonical relay.id target.id]⟩ := by
  rw [assemble.route, destination_append_hop]
  exact if_neg (not_not_intro rfl)

/-! ### The outcome -/

/-- What assembling comes to, by the ids of relay and target and by the last component of the
relay's first address. -/
def outcome (relay target : PeerId) : Option (Option Component) → Except CircuitError Contact
  | none => .error (.relayHasNoAddress relay)
  | some (some (.peer other)) =>
    if other = relay then .ok ⟨target, [canonical relay target]⟩
    else .error (.mismatch relay other)
  | some _ => .ok ⟨target, [canonical relay target]⟩

/-- **Assembling looks at three things only.** -/
theorem assemble_eq_outcome (relay target : Contact) :
    assemble relay target = outcome relay.id target.id relay.final? := by
  rw [assemble, Contact.final?]
  split
  · next h => rw [h]; rfl
  · next addr rest h =>
    rw [h, List.head?_cons, Option.map_some, Multiaddr.endsInPeer?, route_eq]
    rcases addr.getLast? with - | last
    · rfl
    · cases last with
      | peer other => exact ite_not ..
      | _ => rfl

/-- The first address of the relay ends in another peer. -/
def Strays (relay : Contact) (other : PeerId) : Prop :=
  other ≠ relay.id ∧ ∃ before rest, relay.addresses = (before ++ [.peer other]) :: rest

theorem strays_iff {relay : Contact} {other : PeerId} :
    Strays relay other ↔ other ≠ relay.id ∧ relay.final? = some (some (.peer other)) := by
  rw [Strays, Contact.final?_eq_some_iff]

/-- All that assembling can come to. -/
inductive Assembled (relay target : Contact) : Except CircuitError Contact → Prop
  | noAddress (h : relay.addresses = []) :
      Assembled relay target (.error (.relayHasNoAddress relay.id))
  | strayed {other : PeerId} (h : Strays relay other) :
      Assembled relay target (.error (.mismatch relay.id other))
  | routed (h : relay.addresses ≠ []) (hstays : ∀ other, ¬ Strays relay other) :
      Assembled relay target (.ok ⟨target.id, [canonical relay.id target.id]⟩)

theorem assembled (relay target : Contact) :
    Assembled relay target (assemble relay target) := by
  have hfirst {last : Option Component} (h : relay.final? = some last) : relay.addresses ≠ [] :=
    fun hnil ↦ by cases h.symm.trans (Contact.final?_eq_none_iff.2 hnil)
  rw [assemble_eq_outcome, outcome.eq_def]
  split
  · next hnone => exact .noAddress (Contact.final?_eq_none_iff.1 hnone)
  · next other hlast =>
    split
    · next hid =>
      refine .routed (hfirst hlast) fun other' hstrays ↦ ?_
      obtain ⟨hne, hother⟩ := strays_iff.1 hstrays
      cases hlast.symm.trans hother
      exact hne hid
    · next hid => exact .strayed (strays_iff.2 ⟨hid, hlast⟩)
  · next last hother hlast =>
    refine .routed (hfirst hlast) fun other hstrays ↦ ?_
    cases hlast.symm.trans (strays_iff.1 hstrays).2
    exact hother other rfl

/-- **An assembled circuit** is the canonical one. -/
theorem eq_of_assemble {relay target routed : Contact}
    (h : assemble relay target = .ok routed) :
    routed = ⟨target.id, [canonical relay.id target.id]⟩ := by
  have hassembled := assembled relay target
  rw [h] at hassembled
  cases hassembled
  rfl

/-- A relay that has an address and does not lead to another peer is assembled. -/
theorem assemble_of_stays {relay : Contact} (hne : relay.addresses ≠ [])
    (hstays : ∀ other, ¬ Strays relay other) (target : Contact) :
    assemble relay target = .ok ⟨target.id, [canonical relay.id target.id]⟩ := by
  have hassembled := assembled relay target
  generalize assemble relay target = result at hassembled ⊢
  cases hassembled with
  | noAddress h => exact absurd h hne
  | strayed h => exact absurd h (hstays _)
  | routed _ _ => rfl

theorem assemble_of_strays {relay : Contact} {other : PeerId} (h : Strays relay other)
    (target : Contact) : assemble relay target = .error (.mismatch relay.id other) := by
  obtain ⟨hne, hlast⟩ := strays_iff.1 h
  rw [assemble_eq_outcome, hlast, outcome, if_neg hne]

/-- **What comes of assembling a circuit** through any relay to any target, whatever their addresses
hold:

1. a relay without an address is refused, and no other relay for this reason;
2. a relay is refused for leading to another peer exactly if its first address ends in this peer;
3. in every other case, and in no other, the circuit is assembled, in its canonical form alone;
4. there is no other refusal, so none for a missing destination and none that expects the target;
5. for the whole address leads to the target, whatever address of the relay it is built on;
6. the outcome is the same for any other relay with the same id and the same last component of its
   first address, and for any other target with the same id. -/
theorem assemble_outcome (relay target : Contact) :
    (assemble relay target = .error (.relayHasNoAddress relay.id) ↔ relay.addresses = []) ∧
    (∀ other, assemble relay target = .error (.mismatch relay.id other) ↔ Strays relay other) ∧
    (assemble relay target =
        .ok ⟨target.id, [[.peer relay.id, .circuit, .peer target.id]]⟩ ↔
      relay.addresses ≠ [] ∧ ∀ other, ¬ Strays relay other) ∧
    (∀ e, assemble relay target = .error e →
      e = .relayHasNoAddress relay.id ∨ ∃ other, other ≠ relay.id ∧ e = .mismatch relay.id other) ∧
    (∀ addr, assemble.route relay target addr =
      .ok ⟨target.id, [[.peer relay.id, .circuit, .peer target.id]]⟩) ∧
    ∀ relay' target' : Contact, relay'.id = relay.id → relay'.final? = relay.final? →
      target'.id = target.id → assemble relay' target' = assemble relay target := by
  have hsame (relay' target' : Contact) (hrelay : relay'.id = relay.id)
      (hfinal : relay'.final? = relay.final?) (htarget : target'.id = target.id) :
      assemble relay' target' = assemble relay target := by
    rw [assemble_eq_outcome, assemble_eq_outcome, hrelay, hfinal, htarget]
  have hassembled := assembled relay target
  generalize assemble relay target = result at hassembled hsame
  refine ⟨?none, ?strays, ?routed, ?refused, route_eq relay target, hsame⟩
  case none =>
    cases hassembled with
    | noAddress h => exact ⟨fun _ ↦ h, fun _ ↦ rfl⟩
    | strayed h =>
      obtain ⟨-, before, rest, haddresses⟩ := h
      exact ⟨fun hne ↦ (by cases hne), fun hnil ↦ (by cases haddresses.symm.trans hnil)⟩
    | routed h _ => exact ⟨fun hne ↦ (by cases hne), fun hnil ↦ absurd hnil h⟩
  case strays =>
    intro other
    cases hassembled with
    | noAddress h =>
      refine ⟨fun hne ↦ (by cases hne), ?_⟩
      rintro ⟨-, before, rest, haddresses⟩
      cases h.symm.trans haddresses
    | @strayed found h =>
      refine ⟨fun heq ↦ (by cases heq; exact h), fun hother ↦ ?_⟩
      cases (strays_iff.1 h).2.symm.trans (strays_iff.1 hother).2
      rfl
    | routed _ hstays => exact ⟨fun hne ↦ (by cases hne), fun h ↦ absurd h (hstays other)⟩
  case routed =>
    cases hassembled with
    | noAddress h => exact ⟨fun hne ↦ (by cases hne), fun hok ↦ absurd h hok.1⟩
    | strayed h => exact ⟨fun hne ↦ (by cases hne), fun hok ↦ absurd h (hok.2 _)⟩
    | routed h hstays => exact ⟨fun _ ↦ ⟨h, hstays⟩, fun _ ↦ rfl⟩
  case refused =>
    intro e he
    subst he
    cases hassembled with
    | noAddress _ => exact .inl rfl
    | strayed h => exact .inr ⟨_, h.1, rfl⟩

/-- A relay that is known by a circuit through another one, and is its own target; and a relay
with nothing but its id for an address, which is assembled to the same circuit. -/
theorem assemble_outcome_of_nested :
    let relay : PeerId := ⟨⟨0, [1]⟩, rfl⟩
    let far : PeerId := ⟨⟨0, [2]⟩, rfl⟩
    let nested : Contact := ⟨relay, [[.memory 7, .peer far, .circuit, .peer relay], []]⟩
    let plain : Contact := ⟨relay, [[.peer relay]]⟩
    assemble nested nested = .ok ⟨relay, [[.peer relay, .circuit, .peer relay]]⟩ ∧
      assemble plain (.bare relay) = assemble nested nested ∧
      assemble ⟨far, nested.addresses⟩ nested = .error (.mismatch far relay) := by
  intro relay far nested plain
  obtain ⟨-, -, hrouted, -, -, hsame⟩ := assemble_outcome nested nested
  obtain ⟨-, hstrays, -⟩ := assemble_outcome ⟨far, nested.addresses⟩ nested
  have hstays (other : PeerId) : ¬ Strays nested other := by
    rintro h
    obtain ⟨hne, hlast⟩ := strays_iff.1 h
    cases hlast
    exact hne rfl
  refine ⟨hrouted.2 ⟨List.cons_ne_nil _ _, hstays⟩, hsame plain (.bare relay) rfl rfl rfl, ?_⟩
  exact (hstrays relay).2
    ⟨by decide, [.memory 7, .peer far, .circuit], [[]], rfl⟩

end Circuit

end Overlay
