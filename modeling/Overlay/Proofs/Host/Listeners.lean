import Overlay.Proofs.Host.Front

/-!
# Listeners and the addresses they report

What the reports of the network come to for the listeners of a host is told by the reports
alone. `standing` are the addresses that a listener has announced and that have not expired
since, `tracked` are the listeners that no report has ended, with their standing addresses, and
`Advertised` says which addresses a dialable host has confirmed.

`Front.Shows` is the invariant that ties them to the front of a switchboard, and `Shows.hear` its
step. It needs nothing of the listeners but that they begin without addresses
(`Front.shows_opened`).
-/

namespace Overlay.Host

/-- The address that a listener announces by a report. -/
def Event.announces? (id : Nat) : Event → Option Multiaddr
  | .listening i addr => if i = id then some addr else none
  | _ => none

/-- The addresses that a listener has announced and that have not expired since. -/
def standing (id : Nat) : List Event → List Multiaddr
  | [] => []
  | e :: rest =>
    ((e.announces? id).filter fun addr ↦ .expired id addr ∉ rest).toList ++ standing id rest

theorem mem_standing_iff {id : Nat} {events : List Event} {addr : Multiaddr} :
    addr ∈ standing id events ↔
      ∃ before after, events = before ++ .listening id addr :: after ∧
        .expired id addr ∉ after := by
  induction events with
  | nil => simp [standing]
  | cons e rest ih =>
    have hannounces : e.announces? id = some addr ↔ e = .listening id addr := by
      cases e <;> simp [Event.announces?]
    rw [standing, List.mem_append, ih, Option.mem_toList, Option.filter_eq_some_iff, hannounces,
      decide_eq_true_iff]
    constructor
    · rintro (⟨rfl, hstands⟩ | ⟨before, after, rfl, hstands⟩)
      · exact ⟨[], rest, rfl, hstands⟩
      · exact ⟨e :: before, after, rfl, hstands⟩
    · rintro ⟨before, after, hsplit, hstands⟩
      cases before with
      | nil =>
        cases hsplit
        exact .inl ⟨rfl, hstands⟩
      | cons x before =>
        cases hsplit
        exact .inr ⟨before, after, rfl, hstands⟩

/-- A listener that announces nothing has no address. -/
theorem standing_eq_nil {id : Nat} {events : List Event}
    (h : ∀ addr, .listening id addr ∉ events) : standing id events = [] := by
  refine List.eq_nil_iff_forall_not_mem.2 fun addr hmem ↦ ?_
  obtain ⟨before, after, rfl, -⟩ := mem_standing_iff.1 hmem
  exact h addr (by simp)

theorem Event.revise_append (id : Nat) (addrs more : List Multiaddr) (e : Event) :
    e.revise id (addrs ++ more) =
      (addrs.filter fun addr ↦ e ≠ .expired id addr) ++ e.revise id more := by
  have hkeep (h : ∀ addr, e ≠ .expired id addr) :
      (addrs.filter fun addr ↦ e ≠ .expired id addr) = addrs :=
    List.filter_eq_self.2 fun addr _ ↦ decide_eq_true (h addr)
  cases e with
  | listening i announced =>
    rw [hkeep fun _ h ↦ by cases h]
    by_cases h : i = id <;> simp [revise, h]
  | expired i gone =>
    by_cases h : i = id
    · subst h
      simp [revise, eq_comm]
    · rw [hkeep fun _ heq ↦ h (Event.expired.inj heq).1]
      simp [revise, h]
  | _ => rw [hkeep fun _ h ↦ by cases h]; rfl

/-- A report revises what stands. -/
theorem standing_concat (id : Nat) (events : List Event) (e : Event) :
    standing id (events ++ [e]) = e.revise id (standing id events) := by
  induction events with
  | nil =>
    cases e with
    | listening i announced =>
      by_cases h : i = id <;> simp [standing, Event.announces?, Event.revise, h]
    | _ => simp [standing, Event.announces?, Event.revise]
  | cons x rest ih =>
    have hfilter : ((x.announces? id).filter fun addr ↦ .expired id addr ∉ rest ++ [e]).toList =
        ((x.announces? id).filter fun addr ↦ .expired id addr ∉ rest).toList.filter
          fun addr ↦ e ≠ .expired id addr := by
      cases x.announces? id with
      | none => rfl
      | some addr =>
        by_cases hrest : Event.expired id addr ∈ rest <;> by_cases he : e = .expired id addr <;>
          simp [Option.filter, hrest, he, eq_comm]
    rw [List.cons_append, standing, standing, ih, Event.revise_append, hfilter]

/-- The listeners that no report has ended, with the addresses that stand. -/
def tracked (opened : List Listener) (events : List Event) : List Listener :=
  (opened.filter fun l ↦ events.all fun e ↦ !e.ends l.id).map fun l ↦
    { l with addresses := standing l.id events }

/-- A direct address that a listener has announced before a report ended it, and that has not
expired anywhere since. -/
def Advertised (opened : List Listener) (events : List Event) (addr : Multiaddr) : Prop :=
  addr.isCircuit = false ∧ ∃ l ∈ opened, ∃ before after,
    events = before ++ .listening l.id addr :: after ∧
      (∀ e ∈ before, e.ends l.id = false) ∧ ∀ i, .expired i addr ∉ after

theorem tracked_concat (opened : List Listener) (events : List Event) (e : Event) :
    tracked opened (events ++ [e]) =
      ((tracked opened events).filter fun l ↦ !e.ends l.id).map fun l ↦
        { l with addresses := e.revise l.id l.addresses } := by
  have hends : (opened.filter fun l ↦ (events ++ [e]).all fun x ↦ !x.ends l.id) =
      (opened.filter fun l ↦ events.all fun x ↦ !x.ends l.id).filter fun l ↦ !e.ends l.id := by
    simp [List.filter_filter, Bool.and_comm]
  simp only [tracked, hends, List.filter_map, List.map_map, Function.comp_def, standing_concat]

/-- A tracked listener is one that was opened and that no report has ended. -/
theorem mem_tracked_iff {opened : List Listener} {events : List Event} {l : Listener} :
    l ∈ tracked opened events ↔
      ∃ o ∈ opened, (∀ e ∈ events, e.ends o.id = false) ∧
        l = { o with addresses := standing o.id events } := by
  rw [tracked, List.mem_map]
  constructor
  · rintro ⟨o, ho, rfl⟩
    obtain ⟨ho, hopen⟩ := List.mem_filter.1 ho
    exact ⟨o, ho, by simpa using hopen, rfl⟩
  · rintro ⟨o, ho, hopen, rfl⟩
    exact ⟨o, List.mem_filter.2 ⟨ho, by simpa using hopen⟩, rfl⟩

/-- No listener is tracked any more when all have ended. -/
theorem tracked_eq_nil_iff {opened : List Listener} {events : List Event} :
    tracked opened events = [] ↔ ∀ l ∈ opened, ∃ e ∈ events, e.ends l.id = true := by
  simp [tracked, List.filter_eq_nil_iff]

theorem advertised_concat {opened : List Listener} {events : List Event} {e : Event}
    {addr : Multiaddr} :
    Advertised opened (events ++ [e]) addr ↔
      (Advertised opened events addr ∧ ∀ i, e ≠ .expired i addr) ∨
        (addr.isCircuit = false ∧ ∃ l ∈ tracked opened events, e = .listening l.id addr) := by
  constructor
  · rintro ⟨hdirect, l, hl, before, after, hsplit, hopen, hstands⟩
    rcases List.eq_nil_or_concat after with rfl | ⟨after, last, rfl⟩
    · obtain ⟨rfl, hlast⟩ := List.append_inj' hsplit rfl
      cases hlast
      exact .inr ⟨hdirect, _, mem_tracked_iff.2 ⟨l, hl, hopen, rfl⟩, rfl⟩
    · rw [List.concat_eq_append] at hsplit hstands
      rw [← List.cons_append, ← List.append_assoc] at hsplit
      obtain ⟨rfl, hlast⟩ := List.append_inj' hsplit rfl
      cases hlast
      refine .inl ⟨⟨hdirect, l, hl, before, after, rfl, hopen, fun i hi ↦ ?_⟩, fun i hi ↦ ?_⟩
      · exact hstands i (List.mem_append_left _ hi)
      · exact hstands i (List.mem_append_right _ (List.mem_singleton.2 hi.symm))
  · rintro (⟨⟨hdirect, l, hl, before, after, rfl, hopen, hstands⟩, hlast⟩ | ⟨hdirect, l, hl, rfl⟩)
    · refine ⟨hdirect, l, hl, before, after ++ [e], by simp, hopen, fun i hi ↦ ?_⟩
      rcases List.mem_append.1 hi with hi | hi
      · exact hstands i hi
      · exact hlast i (List.mem_singleton.1 hi).symm
    · obtain ⟨o, ho, hopen, rfl⟩ := mem_tracked_iff.1 hl
      exact ⟨hdirect, o, ho, events, [], rfl, hopen, fun _ h ↦ by cases h⟩

/-- **What a front shows** after some reports on the listeners that were opened: those that no
report has ended, and, if the host is dialable, what they have advertised. -/
structure Front.Shows (f : Front) (dialable : Bool) (opened : List Listener) (events : List Event) :
    Prop where
  dialable_eq : f.dialable = dialable
  listeners : f.listeners = tracked opened events
  externals : ∀ addr, addr ∈ f.externals ↔ dialable = true ∧ Advertised opened events addr

/-- Listeners that have just been opened have no addresses, and nothing is confirmed. -/
theorem Front.shows_opened {opened : List Listener} (h : ∀ l ∈ opened, l.addresses = [])
    (dialable : Bool) (lostPrimary : Option BringUpError) :
    (Front.mk dialable [] opened lostPrimary).Shows dialable opened [] where
  dialable_eq := rfl
  listeners := by
    have hkeep : (opened.filter fun l ↦ [].all fun e ↦ !Event.ends l.id e) = opened :=
      List.filter_eq_self.2 fun _ _ ↦ rfl
    rw [tracked, hkeep]
    refine ((List.map_congr_left fun l hl ↦ ?_).trans (List.map_id _)).symm
    rw [standing, ← h l hl]
    rfl
  externals addr := by
    simp [Advertised]

/-- **A report keeps what a front shows** in step with the reports. -/
theorem Front.Shows.hear {f : Front} {dialable : Bool} {opened : List Listener}
    {events : List Event} (h : f.Shows dialable opened events) (e : Event) :
    (f.hear e).Shows dialable opened (events ++ [e]) where
  dialable_eq := h.dialable_eq
  listeners := by rw [Front.hear, h.listeners, tracked_concat]
  externals addr := by
    show addr ∈ (if f.dialable = true then _ else _) ↔ dialable = true ∧ _
    rw [h.dialable_eq]
    by_cases hdialable : dialable = true
    · rw [if_pos hdialable, Event.mem_confirm_iff, h.externals, h.listeners, advertised_concat]
      simp [hdialable]
    · rw [if_neg hdialable, h.externals]
      simp [hdialable]

/-! ### A switchboard that is told -/

section

variable {dialable : Bool} {opened : List Listener} {events : List Event}

theorem Numbered.tracked (h : Numbered opened) (events : List Event) :
    Numbered (tracked opened events) := by
  have hids : (Host.tracked opened events).map Listener.id =
      (opened.filter fun l ↦ events.all fun e ↦ !e.ends l.id).map Listener.id := by
    rw [Host.tracked, List.map_map]
    rfl
  rw [Numbered, hids]
  exact h.sublist (List.filter_sublist.map Listener.id)

/-- **A report keeps what a switchboard shows** in step with the reports, if no reservation waits
on a listener that was opened. -/
theorem Switchboard.shows_onEvent {s : Switchboard} (hopened : Numbered opened)
    (h : s.front.Shows dialable opened events)
    (hapart : ∀ l ∈ opened, Subject.listener l.id ∉ subjects s.waiting.places) (e : Event) :
    (s.onEvent e).1.front.Shows dialable opened (events ++ [e]) := by
  have hlisteners : s.listeners = tracked opened events := h.listeners
  have hids : Numbered s.listeners := hlisteners ▸ hopened.tracked events
  have hfree : s.Apart := by
    intro l hl
    rw [hlisteners] at hl
    obtain ⟨o, ho, -, rfl⟩ := mem_tracked_iff.1 hl
    exact hapart o ho
  rw [front_onEvent hids hfree]
  exact h.hear e

end

end Overlay.Host
