import Overlay.Clock

/-!
# Work against its limits

`Policy.bounded` decides a race between a piece of work, a deadline and a cancellation. The race
has three outcomes, each with its condition: the work is in time (`bounded_of_allows`), or it is
late and the cancellation comes no later than the deadline (`cutoff_of_le`), or it is late and
the deadline comes first (`cutoff_of_lt`).

Whoever wins, the step is over after the shortest of the three waits. `span` is this minimum, and
`bounded_fst` the equation.
-/

namespace Overlay

theorem Limits.allows_iff (l : Limits) (t : Nat) :
    l.allows t = true ↔ (∀ C ∈ l.cancelAt, t < C) ∧ ∀ D ∈ l.deadline, t ≤ D := by
  obtain ⟨deadline, cancelAt⟩ := l
  cases deadline <;> cases cancelAt <;> simp [allows]

namespace Policy

variable (p : Policy) (start : Nat)

theorem allows_limits_iff (t : Nat) :
    (p.limits start).allows t = true ↔ (∀ C ∈ p.cancelAt, t < C) ∧ t ≤ start + p.timeout := by
  rw [Limits.allows_iff]
  simp [limits]

theorem admits_iff : p.admits start = true ↔ ∀ C ∈ p.cancelAt, start < C := by
  rw [← p.allows_limits_self, allows_limits_iff]
  exact ⟨fun h ↦ h.1, fun h ↦ ⟨h, Nat.le_add_right _ _⟩⟩

/-! ### Who cuts off -/

/-- A cancellation that comes no later than the deadline goes before it. -/
theorem cutoff_of_le {C : Nat} (hC : C ∈ p.cancelAt) (hle : C ≤ start + p.timeout) :
    p.cutoff start = (max start C, .cancelled) := by
  obtain ⟨timeout, cancelAt⟩ := p
  cases hC
  exact if_pos hle

theorem cutoff_of_lt (hlt : ∀ C ∈ p.cancelAt, start + p.timeout < C) :
    p.cutoff start = (start + p.timeout, .timeout) := by
  obtain ⟨timeout, cancelAt⟩ := p
  cases cancelAt with
  | none => rfl
  | some C => exact if_neg (Nat.not_le_of_lt (hlt C rfl))

/-! ### The race -/

variable {α : Type}

theorem bounded_of_allows {delay : Nat} (value : α)
    (h : (p.limits start).allows (start + delay) = true) :
    p.bounded start (.after delay value) = (start + delay, .ok value) := if_pos h

theorem bounded_of_late {work : Delayed α}
    (h : ∀ delay value, work = .after delay value →
      ¬ (p.limits start).allows (start + delay) = true) :
    p.bounded start work = ((p.cutoff start).1, .error (p.cutoff start).2) := by
  cases work with
  | never => rfl
  | after delay value => exact if_neg (h delay value rfl)

/-- A step that may not begin is cancelled where it stands, whatever its work. -/
theorem bounded_of_not_admits (h : ¬ p.admits start = true) (work : Delayed α) :
    p.bounded start work = (start, .error .cancelled) := by
  have hlate (delay : Nat) : ¬ (p.limits start).allows (start + delay) = true := fun hallows ↦
    h (p.allows_limits_self start ▸ Limits.allows_of_le (Nat.le_add_right _ _) hallows)
  rw [p.bounded_of_late start fun delay _ _ ↦ hlate delay]
  obtain ⟨timeout, cancelAt⟩ := p
  cases cancelAt with
  | none => exact absurd rfl h
  | some C =>
    have hle : C ≤ start := Nat.le_of_not_lt fun hlt ↦ h (decide_eq_true hlt)
    rw [cutoff_of_le _ start rfl (Nat.le_add_right_of_le hle), Nat.max_eq_left hle]

/-- **The work wins** exactly if it is in time. -/
theorem bounded_eq_ok_iff {work : Delayed α} {time : Nat} {value : α} :
    p.bounded start work = (time, .ok value) ↔
      ∃ delay, work = .after delay value ∧ (p.limits start).allows (start + delay) = true ∧
        time = start + delay := by
  constructor
  · intro h
    cases work with
    | never => cases h
    | after delay value' =>
      rw [bounded] at h
      split at h
      · next hallows => cases h; exact ⟨delay, rfl, hallows, rfl⟩
      · cases h
  · rintro ⟨delay, rfl, hallows, rfl⟩
    exact p.bounded_of_allows start value hallows

/-! ### When it is over -/

/-- How long a step may take: no longer than its time, and no longer than until it is cancelled. -/
def patience : Nat :=
  match p.cancelAt with
  | none => p.timeout
  | some C => min p.timeout (C - start)

/-- How long a step takes: as long as its work, or as long as it may. -/
def span : Delayed α → Nat
  | .never => p.patience start
  | .after delay _ => min delay (p.patience start)

theorem le_patience_of_allows {delay : Nat} (h : (p.limits start).allows (start + delay) = true) :
    delay ≤ p.patience start := by
  obtain ⟨hcancel, hdeadline⟩ := (p.allows_limits_iff start _).1 h
  rw [patience]
  split
  · omega
  · next C hC =>
    have := hcancel C hC
    omega

theorem patience_le_of_not_allows {delay : Nat}
    (h : ¬ (p.limits start).allows (start + delay) = true) : p.patience start ≤ delay := by
  rw [allows_limits_iff] at h
  rw [patience]
  split
  · next hC => simp [hC] at h; omega
  · next C hC => simp [hC] at h; omega

/-- A step that is cut off has taken as long as it may. -/
theorem cutoff_fst : (p.cutoff start).1 = start + p.patience start := by
  obtain ⟨timeout, cancelAt⟩ := p
  cases cancelAt with
  | none => rfl
  | some C =>
    simp only [cutoff, patience]
    split <;> omega

/-- **A step ends after its span**, whatever comes of it. -/
theorem bounded_fst (work : Delayed α) :
    (p.bounded start work).1 = start + p.span start work := by
  cases work with
  | never => exact p.cutoff_fst start
  | after delay value =>
    rw [span]
    by_cases h : (p.limits start).allows (start + delay) = true
    · rw [p.bounded_of_allows start value h, Nat.min_eq_left (p.le_patience_of_allows start h)]
    · have hlate := p.patience_le_of_not_allows start h
      rw [bounded, if_neg h, cutoff_fst, Nat.min_eq_right hlate]

/-- No step takes longer than its time. -/
theorem span_le_timeout (work : Delayed α) : p.span start work ≤ p.timeout := by
  have hpatience : p.patience start ≤ p.timeout := by
    rw [patience]
    split <;> omega
  cases work with
  | never => exact hpatience
  | after delay _ => exact Nat.le_trans (Nat.min_le_right _ _) hpatience

end Policy

end Overlay
