import Overlay.Proofs.Host.Waiting

/-!
# The front of a switchboard

The *front* of a switchboard is what it keeps of the listeners of bring-up: the listeners with
their addresses, the addresses that are confirmed as external, and the failure of the primary
listener. No command touches it (`front_handle`). A report does to it what `Front.hear` says,
provided that listeners are told apart by their numbers and no reservation waits on one of them
(`front_onEvent`); so the front can be followed through a list of reports without the rest of
the host.
-/

namespace Overlay.Host

/-- The failure of bring-up that the end of a listener is, if it is a primary one that has no
address. -/
def lost? (listeners : List Listener) (id : Nat) (reason : String) : Option BringUpError :=
  (listeners.find? fun l ↦ l.id = id ∧ l.primary = true ∧ l.addresses = []).map fun l ↦
    .transportBind l.requested.render reason

theorem lost?_eq_none_iff {listeners : List Listener} {id : Nat} {reason : String} :
    lost? listeners id reason = none ↔
      ∀ l ∈ listeners, l.id = id → l.primary = true → l.addresses ≠ [] := by
  simp [lost?, List.find?_eq_none]

/-- A failure names the address that its listener was asked to listen on. -/
theorem of_lost?_eq_some {listeners : List Listener} {id : Nat} {reason : String}
    {error : BringUpError} (h : lost? listeners id reason = some error) :
    ∃ l ∈ listeners, l.id = id ∧ l.primary = true ∧ l.addresses = [] ∧
      error = .transportBind l.requested.render reason := by
  obtain ⟨l, hfind, rfl⟩ := Option.map_eq_some_iff.1 h
  have hlost : l.id = id ∧ l.primary = true ∧ l.addresses = [] := by
    simpa using List.find?_some hfind
  obtain ⟨hid, hprimary, haddresses⟩ := hlost
  exact ⟨l, List.mem_of_find?_eq_some hfind, hid, hprimary, haddresses, rfl⟩

namespace Event

/-- The listener that a report ends, and the reason. -/
def ending? : Event → Option (Nat × String)
  | .listenerFailed id reason => some (id, reason)
  | .listenerClosed id reason => some (id, reason.getD "listener closed")
  | _ => none

/-- Whether a report ends a listener. -/
def ends (id : Nat) (e : Event) : Bool := e.ending?.any fun x ↦ id = x.1

/-- The addresses of a listener after a report. -/
def revise (id : Nat) (addrs : List Multiaddr) : Event → List Multiaddr
  | .listening i addr => if i = id then addrs ++ [addr] else addrs
  | .expired i addr => if i = id then addrs.filter (· ≠ addr) else addrs
  | _ => addrs

/-- The external addresses of a dialable host after a report. -/
def confirm (listeners : List Listener) (externals : List Multiaddr) : Event → List Multiaddr
  | .listening id addr =>
    if addr.isCircuit = false ∧ ∃ l ∈ listeners, l.id = id then Switchboard.enroll externals addr
    else externals
  | .expired _ addr => externals.filter (· ≠ addr)
  | _ => externals

/-- The failure of bring-up that a report brings about, by the end of a primary listener that has
no address. -/
def failure? (listeners : List Listener) (e : Event) : Option BringUpError :=
  e.ending?.bind fun (id, reason) ↦ lost? listeners id reason

theorem ends_eq_true_iff {id : Nat} {e : Event} :
    e.ends id = true ↔ ∃ reason, e.ending? = some (id, reason) := by
  rw [ends]
  rcases e.ending? with - | ⟨i, reason⟩
  · simp
  · simp [eq_comm]

/-- There is no failure unless a primary listener ends that has no address. -/
theorem failure?_eq_none_iff {listeners : List Listener} {e : Event} :
    e.failure? listeners = none ↔
      ∀ l ∈ listeners, e.ends l.id = true → l.primary = true → l.addresses ≠ [] := by
  rw [failure?, Option.bind_eq_none_iff]
  simp only [lost?_eq_none_iff, ends_eq_true_iff]
  constructor
  · rintro h l hl ⟨reason, hending⟩
    exact h _ hending l hl rfl
  · rintro h ⟨id, reason⟩ hending l hl rfl
    exact h l hl ⟨reason, hending⟩

/-- A failure is that of a primary listener that has no address when the report ends it. -/
theorem of_failure?_eq_some {listeners : List Listener} {e : Event} {error : BringUpError}
    (h : e.failure? listeners = some error) :
    ∃ l ∈ listeners, e.ends l.id = true ∧ l.primary = true ∧ l.addresses = [] ∧
      ∃ reason, error = .transportBind l.requested.render reason := by
  obtain ⟨⟨id, reason⟩, hending, h⟩ := Option.bind_eq_some_iff.1 h
  obtain ⟨l, hl, rfl, hprimary, haddresses, rfl⟩ := of_lost?_eq_some h
  exact ⟨l, hl, ends_eq_true_iff.2 ⟨reason, hending⟩, hprimary, haddresses, reason, rfl⟩

end Event

/-! ### The front of a switchboard -/

/-- What a switchboard keeps of the listeners of bring-up. -/
structure Front where
  dialable : Bool
  externals : List Multiaddr
  listeners : List Listener
  lostPrimary : Option BringUpError

/-- The front after a report. -/
def Front.hear (f : Front) (e : Event) : Front where
  dialable := f.dialable
  externals := if f.dialable = true then e.confirm f.listeners f.externals else f.externals
  listeners := (f.listeners.filter fun l ↦ !e.ends l.id).map fun l ↦
    { l with addresses := e.revise l.id l.addresses }
  lostPrimary := (e.failure? f.listeners).or f.lostPrimary

namespace Switchboard

/-- The front of a switchboard. -/
def front (s : Switchboard) : Front := ⟨s.dialable, s.externals, s.listeners, s.lostPrimary⟩

theorem front_connect (s : Switchboard) (ticket : Ticket) (contact : Contact) (answer : Answer) :
    (s.connect ticket contact answer).1.front = s.front := by
  rw [connect]
  split
  · rfl
  · dsimp only
    split
    · rfl
    · split <;> rfl

theorem front_reserve (s : Switchboard) (ticket : Ticket) (relay : Contact) (answer : Answer) :
    (s.reserve ticket relay answer).1.front = s.front := by
  rw [reserve]
  split
  · rfl
  · dsimp only
    split <;> rfl

/-- **No command** touches the front. -/
theorem front_handle (s : Switchboard) (ticket : Ticket) (command : Command) (answer : Answer) :
    (s.handle ticket command answer).1.front = s.front := by
  cases command with
  | connect contact => exact s.front_connect ticket contact answer
  | reserve relay => exact s.front_reserve ticket relay answer
  | bootstrapRouting =>
    show (s.bootstrapRouting ticket answer).1.front = s.front
    unfold Switchboard.bootstrapRouting
    split
    · split <;> rfl
    · rfl
  | routingPeers => rfl
  | listenAddresses => rfl
  | externalAddresses => rfl
  | connectedPeers => rfl
  | shutdown => rfl

theorem front_answerDial (s : Switchboard) (connection : Nat) (result : Dialed) :
    (s.answerDial connection result).1.front = s.front := by
  rw [answerDial]
  split <;> rfl

theorem front_answerBootstrap (s : Switchboard) (query : Nat)
    (result : Except RoutingError Unit) :
    (s.answerBootstrap query result).1.front = s.front := by
  rw [answerBootstrap]
  split <;> rfl

/-! ### Reports -/

/-- No reservation waits on a listener of bring-up. -/
def Apart (s : Switchboard) : Prop :=
  ∀ l ∈ s.listeners, Subject.listener l.id ∉ subjects s.waiting.places

end Switchboard

/-- Listeners are told apart by their numbers. -/
def Numbered (listeners : List Listener) : Prop := (listeners.map Listener.id).Nodup

instance (listeners : List Listener) : Decidable (Numbered listeners) :=
  inferInstanceAs (Decidable (listeners.map Listener.id).Nodup)

/-- Of the listeners one has the number of a given one. -/
theorem Numbered.exists_split {listeners : List Listener} (h : Numbered listeners) {l : Listener}
    (hl : l ∈ listeners) :
    ∃ before after, listeners = before ++ l :: after ∧ ∀ x ∈ before ++ after, x.id ≠ l.id := by
  obtain ⟨before, after, rfl⟩ := List.append_of_mem hl
  refine ⟨before, after, rfl, fun x hx heq ↦ ?_⟩
  have hperm : (before ++ l :: after).Perm (l :: (before ++ after)) := List.perm_middle
  have hnodup := (hperm.map Listener.id).nodup_iff.1 h
  exact (List.nodup_cons.1 hnodup).1 (List.mem_map.2 ⟨x, hx, heq⟩)

namespace Front

/-- The front after the end of a listener. -/
def drop (f : Front) (id : Nat) (reason : String) : Front where
  dialable := f.dialable
  externals := f.externals
  listeners := f.listeners.filter fun l ↦ !decide (l.id = id)
  lostPrimary := (lost? f.listeners id reason).or f.lostPrimary

theorem hear_of_ending {f : Front} {e : Event} {id : Nat} {reason : String}
    (h : e.ending? = some (id, reason)) : f.hear e = f.drop id reason := by
  have hends : ∀ i, e.ends i = decide (i = id) := fun i ↦ by rw [Event.ends, h]; rfl
  have hquiet : (∀ i addrs, e.revise i addrs = addrs) ∧
      ∀ listeners externals, e.confirm listeners externals = externals := by
    cases e with
    | listenerFailed | listenerClosed => exact ⟨fun _ _ ↦ rfl, fun _ _ ↦ rfl⟩
    | _ => cases h
  simp [hear, drop, hends, hquiet, Event.failure?, h]

/-- A report that ends no listener revises their addresses. -/
theorem hear_of_ending_eq_none {f : Front} {e : Event} (h : e.ending? = none) :
    f.hear e =
      { f with
        externals := if f.dialable = true then e.confirm f.listeners f.externals else f.externals
        listeners := f.listeners.map fun l ↦
          { l with addresses := e.revise l.id l.addresses } } := by
  have hkeep : (f.listeners.filter fun l ↦ !e.ends l.id) = f.listeners :=
    List.filter_eq_self.2 fun l _ ↦ by simp [Event.ends, h]
  rw [hear, hkeep, Event.failure?, h]
  rfl

/-- A report that is not about listeners leaves the front alone. -/
theorem hear_of_quiet {f : Front} {e : Event} (h : e.ending? = none)
    (hrevise : ∀ i addrs, e.revise i addrs = addrs)
    (hconfirm : ∀ listeners externals, e.confirm listeners externals = externals) :
    f.hear e = f := by
  simp [hear_of_ending_eq_none h, hrevise, hconfirm]

/-- The end of what is no listener of bring-up changes nothing. -/
theorem drop_of_forall_ne {f : Front} {id : Nat} (reason : String)
    (h : ∀ l ∈ f.listeners, l.id ≠ id) : f.drop id reason = f := by
  have hfilter : (f.listeners.filter fun l ↦ !decide (l.id = id)) = f.listeners :=
    List.filter_eq_self.2 fun l hl ↦ by simpa using h l hl
  have hlost : lost? f.listeners id reason = none :=
    lost?_eq_none_iff.2 fun l hl heq ↦ absurd heq (h l hl)
  rw [drop, hfilter, hlost]
  rfl

/-- The end of a listener of bring-up takes it off the list. -/
theorem drop_of_split {f : Front} {l : Listener} {before after : List Listener}
    (hsplit : f.listeners = before ++ l :: after) (hothers : ∀ x ∈ before ++ after, x.id ≠ l.id)
    (reason : String) :
    f.drop l.id reason =
      { f with
        listeners := before ++ after
        lostPrimary :=
          if l.primary = true ∧ l.addresses = [] then
            some (.transportBind l.requested.render reason)
          else f.lostPrimary } := by
  have hwithout : (f.listeners.filter fun x ↦ !decide (x.id = l.id)) = before ++ after := by
    rw [hsplit, List.filter_append, List.filter_cons_of_neg (by simp), ← List.filter_append]
    exact List.filter_eq_self.2 fun x hx ↦ by simpa using hothers x hx
  have hlost : lost? f.listeners l.id reason =
      if l.primary = true ∧ l.addresses = [] then
        some (.transportBind l.requested.render reason)
      else none := by
    have hother : ∀ x ∈ before ++ after,
        ¬ (decide (x.id = l.id ∧ x.primary = true ∧ x.addresses = [])) = true := fun x hx ↦ by
      simp [hothers x hx]
    have hbefore := List.find?_eq_none.2 fun x hx ↦ hother x (List.mem_append_left _ hx)
    have hafter := List.find?_eq_none.2 fun x hx ↦ hother x (List.mem_append_right _ hx)
    rw [lost?, hsplit, List.find?_append, hbefore, List.find?_cons, hafter]
    by_cases hl : l.primary = true ∧ l.addresses = [] <;> simp [hl]
  rw [drop, hwithout, hlost]
  split <;> rfl

end Front

namespace Switchboard

variable {s : Switchboard}

theorem front_dropListener (hids : Numbered s.listeners) (hapart : s.Apart) (id : Nat)
    (reason : String) : (s.dropListener id reason).1.front = s.front.drop id reason := by
  rw [dropListener]
  split
  · next relay pending hon =>
    refine (Front.drop_of_forall_ne (f := s.front) reason fun l hl heq ↦ ?_).symm
    have hnone := reservationOn?_eq_none_iff.2 (hapart l hl)
    rw [heq, hon] at hnone
    cases hnone
  · split
    · next hfind =>
      refine (Front.drop_of_forall_ne (f := s.front) reason fun l hl heq ↦ ?_).symm
      exact List.find?_eq_none.1 hfind l hl (decide_eq_true heq)
    · next l hfind =>
      have hid : l.id = id := by simpa using List.find?_some hfind
      obtain ⟨before, after, hsplit, hothers⟩ :=
        hids.exists_split (List.mem_of_find?_eq_some hfind)
      subst hid
      have herase : (s.listeners.eraseP fun x ↦ x.id = l.id) = before ++ after := by
        rw [hsplit, List.eraseP_append_right _ fun x hx ↦
          by simpa using hothers x (List.mem_append_left _ hx)]
        rw [List.eraseP_cons_of_pos (by simp)]
      rw [Front.drop_of_split (f := s.front) hsplit hothers reason, herase]
      dsimp only
      split <;> rfl

/-- To change the addresses of one listener is to revise those of all. -/
theorem updateListener_eq {e : Event} {id : Nat} {change : List Multiaddr → List Multiaddr}
    (h : ∀ i addrs, e.revise i addrs = if id = i then change addrs else addrs) :
    s.updateListener id (fun l ↦ { l with addresses := change l.addresses }) =
      { s with listeners := s.listeners.map fun l ↦
          { l with addresses := e.revise l.id l.addresses } } := by
  rw [updateListener]
  congr 1
  refine List.map_congr_left fun l _ ↦ ?_
  rw [h]
  by_cases hid : l.id = id
  · rw [if_pos hid, if_pos hid.symm]
  · rw [if_neg hid, if_neg (Ne.symm hid)]

theorem front_listening (id : Nat) (addr : Multiaddr) :
    (s.onEvent (.listening id addr)).1.front = s.front.hear (.listening id addr) := by
  rw [Front.hear_of_ending_eq_none rfl, onEvent]
  split
  · next hfind =>
    have hnone : ∀ l ∈ s.listeners, l.id ≠ id := fun l hl heq ↦
      List.find?_eq_none.1 hfind l hl (decide_eq_true heq)
    have hmap : (s.listeners.map fun l ↦
        { l with addresses := (Event.listening id addr).revise l.id l.addresses }) =
          s.listeners := by
      refine (List.map_congr_left fun l hl ↦ ?_).trans (List.map_id _)
      rw [Event.revise, if_neg (Ne.symm (hnone l hl))]
      rfl
    have hconfirm : (Event.listening id addr).confirm s.listeners s.externals = s.externals := by
      refine if_neg ?_
      rintro ⟨-, l, hl, heq⟩
      exact hnone l hl heq
    show s.front = _
    simp only [front, hmap, hconfirm, ite_self]
  · next l hfind =>
    have hknown : ∃ l ∈ s.listeners, l.id = id :=
      ⟨l, List.mem_of_find?_eq_some hfind, by simpa using List.find?_some hfind⟩
    rw [updateListener_eq (e := .listening id addr) fun _ _ ↦ rfl]
    have hconfirm : (Event.listening id addr).confirm s.listeners s.externals =
        if addr.isCircuit = false then enroll s.externals addr else s.externals := by
      simp only [Event.confirm, hknown, and_true]
    cases hdialable : s.dialable <;> cases hcircuit : addr.isCircuit <;>
      simp [front, hdialable, hcircuit, hconfirm]

theorem front_expired (id : Nat) (addr : Multiaddr) :
    (s.onEvent (.expired id addr)).1.front = s.front.hear (.expired id addr) := by
  rw [Front.hear_of_ending_eq_none rfl, onEvent,
    updateListener_eq (e := .expired id addr) fun _ _ ↦ rfl]
  cases hdialable : s.dialable <;> simp [front, hdialable, Event.confirm]

/-- **What a report does to the front.** -/
theorem front_onEvent (hids : Numbered s.listeners) (hapart : s.Apart) (e : Event) :
    (s.onEvent e).1.front = s.front.hear e := by
  cases e with
  | listenerFailed id reason =>
    rw [Front.hear_of_ending rfl]
    exact front_dropListener hids hapart id reason
  | listenerClosed id reason =>
    rw [Front.hear_of_ending rfl]
    exact front_dropListener hids hapart id _
  | listening id addr => exact front_listening id addr
  | expired id addr => exact front_expired id addr
  | established connection peer addr dialer =>
    rw [Front.hear_of_quiet rfl (fun _ _ ↦ rfl) (fun _ _ ↦ rfl), onEvent, front_answerDial]
    rfl
  | dialFailed connection refusal =>
    rw [Front.hear_of_quiet rfl (fun _ _ ↦ rfl) (fun _ _ ↦ rfl), onEvent, front_answerDial]
  | disconnected peer remaining =>
    rw [Front.hear_of_quiet rfl (fun _ _ ↦ rfl) (fun _ _ ↦ rfl), onEvent]
    split <;> rfl
  | identified peer addrs =>
    rw [Front.hear_of_quiet rfl (fun _ _ ↦ rfl) (fun _ _ ↦ rfl), onEvent]
    rfl
  | reservationAccepted relay =>
    rw [Front.hear_of_quiet rfl (fun _ _ ↦ rfl) (fun _ _ ↦ rfl), onEvent]
    split <;> rfl
  | bootstrapProgressed query result last =>
    rw [Front.hear_of_quiet rfl (fun _ _ ↦ rfl) (fun _ _ ↦ rfl), onEvent.eq_def]
    dsimp only
    split
    · exact s.front_answerBootstrap query _
    · exact s.front_answerBootstrap query _
    · rfl

end Switchboard

/-! ### External addresses -/

theorem Switchboard.mem_enroll {α : Type} [DecidableEq α] {xs : List α} {x y : α} :
    y ∈ enroll xs x ↔ y ∈ xs ∨ y = x := by
  rw [enroll]
  split
  · next hmem => exact ⟨.inl, fun h ↦ h.elim id fun heq ↦ heq ▸ hmem⟩
  · simp

/-- What a dialable host confirms after a report: what it had, unless it expires, and what a
listener announces. -/
theorem Event.mem_confirm_iff {e : Event} {listeners : List Listener} {externals : List Multiaddr}
    {addr : Multiaddr} :
    addr ∈ e.confirm listeners externals ↔
      (addr ∈ externals ∧ ∀ i, e ≠ .expired i addr) ∨
        (addr.isCircuit = false ∧ ∃ l ∈ listeners, e = .listening l.id addr) := by
  cases e with
  | listening id announced =>
    rw [confirm]
    split
    · next h =>
      obtain ⟨hdirect, l, hl, rfl⟩ := h
      rw [Switchboard.mem_enroll]
      constructor
      · rintro (hmem | rfl)
        · exact .inl ⟨hmem, fun _ h ↦ by cases h⟩
        · exact .inr ⟨hdirect, l, hl, rfl⟩
      · rintro (⟨hmem, -⟩ | ⟨-, _, -, heq⟩)
        · exact .inl hmem
        · exact .inr (Event.listening.inj heq).2.symm
    · next h =>
      constructor
      · exact fun hmem ↦ .inl ⟨hmem, fun _ h ↦ by cases h⟩
      · rintro (⟨hmem, -⟩ | ⟨hdirect, l, hl, heq⟩)
        · exact hmem
        · cases heq
          exact absurd ⟨hdirect, l, hl, rfl⟩ h
  | expired id gone =>
    have hgone : (∀ i, Event.expired id gone ≠ .expired i addr) ↔ addr ≠ gone := by
      simp [eq_comm]
    rw [confirm, List.mem_filter, hgone]
    simp
  | _ => simp [confirm]

end Overlay.Host
