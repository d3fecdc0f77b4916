import Overlay.Proofs.Connect.Attendance

/-!
# Whether anyone is reached

A list of peers is attempted as a whole, and what counts in the end is often only whether one of
them was connected. By the independence of the attempts (`Connect.attempts_eq`) this is a matter
of the answers alone: somebody is reached exactly if some peer of the list is answered well and in
time when the dialer is asked for it, after it was asked for those before (`reachedAnyone_iff`).
-/

namespace Overlay

variable {σ : Type}

/-- An answer connects that is good and comes within the time of an attempt and before the
cancellation. -/
def Policy.Connects (policy : Policy) (start : Nat) (work : Delayed Dialed) : Prop :=
  ∃ delay, work = .after delay (.ok ()) ∧ delay ≤ policy.timeout ∧
    ∀ C ∈ policy.cancelAt, start + delay < C

/-- Somebody in the list is connected, when the dialer is asked for one after the other. -/
def Dialer.Reaches (dial : Dialer σ) (policy : Policy) (start : Nat) (peers : List Contact)
    (s : σ) : Prop :=
  ∃ before peer after, peers = before ++ peer :: after ∧
    policy.Connects start (dial peer (dial.askAll before s).2).1

theorem Dialer.reaches_cons (dial : Dialer σ) (policy : Policy) (start : Nat) (peer : Contact)
    (rest : List Contact) (s : σ) :
    dial.Reaches policy start (peer :: rest) s ↔
      policy.Connects start (dial peer s).1 ∨ dial.Reaches policy start rest (dial peer s).2 := by
  constructor
  · rintro ⟨before, peer', after, hsplit, hconnects⟩
    cases before with
    | nil =>
      cases hsplit
      exact .inl hconnects
    | cons first before =>
      cases hsplit
      exact .inr ⟨before, peer', after, rfl, hconnects⟩
  · rintro (hconnects | ⟨before, peer', after, rfl, hconnects⟩)
    · exact ⟨[], peer, rest, rfl, hconnects⟩
    · exact ⟨peer :: before, peer', after, rfl, hconnects⟩

theorem Dialer.not_reaches_nil (dial : Dialer σ) (policy : Policy) (start : Nat) (s : σ) :
    ¬ dial.Reaches policy start [] s := by
  rintro ⟨before, peer, after, hsplit, -⟩
  exact List.append_ne_nil_of_right_ne_nil _ (List.cons_ne_nil _ _) hsplit.symm

namespace Connect

variable (policy : Policy) (start : Nat)

/-- An attempt succeeds exactly if its answer connects. -/
theorem ofWork_result_iff (peer : PeerId) (work : Delayed Dialed) :
    (Attempt.ofWork policy start peer work).result = .ok () ↔ policy.Connects start work := by
  constructor
  · intro h
    rw [Attempt.ofWork] at h
    split at h
    · next ended result hbounded =>
      obtain ⟨delay, hwork, hallows, -⟩ := (policy.bounded_eq_ok_iff start).1 hbounded
      obtain ⟨hcancel, hdeadline⟩ := (policy.allows_limits_iff start _).1 hallows
      have hresult : result = .ok () := h
      exact ⟨delay, hresult ▸ hwork, Nat.le_of_add_le_add_left hdeadline, hcancel⟩
    · cases h
  · rintro ⟨delay, rfl, hdeadline, hcancel⟩
    rw [ofWork_of_allows policy start peer _ hcancel hdeadline]

theorem exists_ofWorks_iff (dial : Dialer σ) (peers : List Contact) (s : σ) :
    (∃ attempt ∈ ofWorks policy start peers (dial.askAll peers s).1, attempt.result = .ok ()) ↔
      dial.Reaches policy start peers s := by
  induction peers generalizing s with
  | nil =>
    exact ⟨fun ⟨_, h, _⟩ ↦ (by cases h), fun h ↦ absurd h (dial.not_reaches_nil policy start s)⟩
  | cons peer rest ih =>
    rw [dial.reaches_cons, ← ofWork_result_iff policy start peer.id, ← ih]
    simp only [Dialer.askAll, ofWorks_cons, List.mem_cons, exists_eq_or_imp]

/-- **Somebody is reached** exactly if some peer of the list is connected. -/
theorem reachedAnyone_iff (dial : Dialer σ) (peers : List Contact) (s : σ) :
    (all policy dial start peers s).1.reachedAnyone = true ↔
      dial.Reaches policy start peers s := by
  have hmade : (attempts policy dial start peers s).1 =
      ofWorks policy start peers (dial.askAll peers s).1 :=
    congrArg Prod.fst (attempts_eq policy start dial peers s)
  rw [← exists_ofWorks_iff, all_eq, Attendance.reachedAnyone, Attendance.ofAttempts,
    Attendance.succeeded_foldl, hmade]
  simp [Attendance.empty]

end Connect

end Overlay
