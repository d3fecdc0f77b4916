import Overlay.Node.Mission
import Overlay.Proofs.Deadline

/-!
# Steps of a journey

A bounded step either succeeds or fails, and `Leg.Succeeds` says which without the step: the work
has a result, a good one, in time. A step that succeeds leads on to the journey that is named
there (`bounded_of_succeeds`), and no other step does (`succeeds_of_bounded`). Either way it has
begun, unless it was cancelled before (`actions_bounded`), and the work is done exactly if it has
(`world_bounded`), so the log of a journey tells what was done to its world; both are read off what
a step leaves behind (`bounded_snd`). `step_next` puts this together for a step and what comes after
it.
-/

namespace Overlay.Node.Leg

variable {σ α β ε : Type} {policy : Policy} {action : Action}
  {work : σ → Delayed (Except ε α) × σ} {j : Journey σ}

/-! ### One leg after another -/

theorem next_of_ok {leg : Leg σ α} {more : α → Leg σ β} {a : α} {j' : Journey σ}
    (h : leg j = (.ok a, j')) : leg.next more j = more a j' := by
  rw [next, h]

theorem next_of_error {leg : Leg σ α} {more : α → Leg σ β} {e : NodeError} {j' : Journey σ}
    (h : leg j = (.error e, j')) : leg.next more j = (.error e, j') := by
  rw [next, h]

/-! ### One step -/

/-- A step succeeds that the world answers with a good result, within the time of a step and
before the cancellation. The journey goes on from there. -/
def Succeeds (policy : Policy) (action : Action) (work : σ → Delayed (Except ε α) × σ)
    (j : Journey σ) (a : α) (j' : Journey σ) : Prop :=
  ∃ delay, (work j.world).1 = .after delay (.ok a) ∧ delay ≤ policy.timeout ∧
    (∀ C ∈ policy.cancelAt, j.now + delay < C) ∧
    j' = ⟨j.now + delay, (work j.world).2, action :: j.actions⟩

/-- The actions of a journey after a step was to begin that may be cancelled before. -/
def begun (policy : Policy) (action : Action) (j : Journey σ) : List Action :=
  if policy.admits j.now then action :: j.actions else j.actions

theorem Succeeds.admits {a : α} {j' : Journey σ} (h : Succeeds policy action work j a j') :
    policy.admits j.now = true := by
  obtain ⟨delay, -, -, hcancel, -⟩ := h
  exact (policy.admits_iff j.now).2 fun C hC ↦
    Nat.lt_of_le_of_lt (Nat.le_add_right _ _) (hcancel C hC)

/-- Computing takes no time, so a step that comes after a success may begin. -/
theorem Succeeds.admits_next {a : α} {j' : Journey σ} (h : Succeeds policy action work j a j') :
    policy.admits j'.now = true := by
  obtain ⟨delay, -, -, hcancel, rfl⟩ := h
  exact (policy.admits_iff _).2 hcancel

theorem Succeeds.actions {a : α} {j' : Journey σ} (h : Succeeds policy action work j a j') :
    j'.actions = action :: j.actions := by
  obtain ⟨delay, -, -, -, rfl⟩ := h
  rfl

theorem Succeeds.unique {a b : α} {j₁ j₂ : Journey σ} (h₁ : Succeeds policy action work j a j₁)
    (h₂ : Succeeds policy action work j b j₂) : a = b ∧ j₁ = j₂ := by
  obtain ⟨delay, hwork, -, -, rfl⟩ := h₁
  obtain ⟨delay', hwork', -, -, rfl⟩ := h₂
  cases hwork.symm.trans hwork'
  exact ⟨rfl, rfl⟩

theorem bounded_of_succeeds {a : α} {j' : Journey σ} (h : Succeeds policy action work j a j') :
    bounded policy action work j = (.ok a, j') := by
  have hadmits := h.admits
  obtain ⟨delay, hwork, hdeadline, hcancel, rfl⟩ := h
  have hallows : (policy.limits j.now).allows (j.now + delay) = true :=
    (policy.allows_limits_iff j.now _).2 ⟨hcancel, Nat.add_le_add_left hdeadline _⟩
  rw [bounded, if_pos hadmits]
  simp only [hwork, policy.bounded_of_allows j.now _ hallows]

/-- What a step leaves behind, whatever comes of it: unless it is cancelled before, it is recorded
and its work is done on the world. Only the time depends on the result. -/
theorem bounded_snd (policy : Policy) (action : Action)
    (work : σ → Delayed (Except ε α) × σ) (j : Journey σ) :
    ∃ time, (bounded policy action work j).2 =
      if policy.admits j.now then ⟨time, (work j.world).2, action :: j.actions⟩
      else { j with now := time } := by
  rw [bounded]
  by_cases hadmits : policy.admits j.now = true
  · rw [if_pos hadmits]
    simp only [if_pos hadmits]
    split <;> exact ⟨_, rfl⟩
  · rw [if_neg hadmits]
    simp only [if_neg hadmits]
    exact ⟨_, rfl⟩

/-- A step begins unless it is cancelled before, whatever comes of it. -/
theorem actions_bounded (policy : Policy) (action : Action)
    (work : σ → Delayed (Except ε α) × σ) (j : Journey σ) :
    (bounded policy action work j).2.actions = begun policy action j := by
  obtain ⟨time, hjourney⟩ := bounded_snd policy action work j
  rw [hjourney, begun]
  split <;> rfl

/-- A step that begins does its work on the world, whatever comes of it, and one that does not
begin leaves the world as it is. -/
theorem world_bounded (policy : Policy) (action : Action)
    (work : σ → Delayed (Except ε α) × σ) (j : Journey σ) :
    (bounded policy action work j).2.world =
      if policy.admits j.now then (work j.world).2 else j.world := by
  obtain ⟨time, hjourney⟩ := bounded_snd policy action work j
  rw [hjourney]
  split <;> rfl

theorem succeeds_of_bounded {a : α} {j' : Journey σ}
    (h : bounded policy action work j = (.ok a, j')) : Succeeds policy action work j a j' := by
  rw [bounded] at h
  by_cases hadmits : policy.admits j.now = true
  · rw [if_pos hadmits] at h
    dsimp only at h
    split at h
    · next time a hbounded =>
      obtain ⟨delay, hwork, hallows, htime⟩ := (policy.bounded_eq_ok_iff j.now).1 hbounded
      obtain ⟨hcancel, hdeadline⟩ := (policy.allows_limits_iff j.now _).1 hallows
      cases h
      exact ⟨delay, hwork, Nat.le_of_add_le_add_left hdeadline, hcancel, htime ▸ rfl⟩
    · cases h
    · cases h
  · rw [if_neg hadmits] at h
    cases h

theorem bounded_of_not_succeeds (h : ∀ a j', ¬ Succeeds policy action work j a j') :
    ∃ e j', bounded policy action work j = (.error e, j') ∧
      j'.actions = begun policy action j := by
  have hactions := actions_bounded policy action work j
  rcases hrun : bounded policy action work j with ⟨e | a, j'⟩
  · rw [hrun] at hactions
    exact ⟨e, j', rfl, hactions⟩
  · exact absurd (succeeds_of_bounded hrun) (h a j')

/-- **A step and what comes after it**: either the step succeeds and the journey goes on, or it
fails and so does all of it, with nothing begun but the step. -/
theorem step_next (policy : Policy) (action : Action) (wrap : StepError ε → NodeError)
    (work : σ → Delayed (Except ε α) × σ) (more : α → Leg σ β) (j : Journey σ) :
    (∃ a j', Succeeds policy action work j a j' ∧
        (step policy action wrap work).next more j = more a j') ∨
      (∀ a j', ¬ Succeeds policy action work j a j') ∧
        ∃ e j', (step policy action wrap work).next more j = (.error e, j') ∧
          j'.actions = begun policy action j := by
  by_cases hsucceeds : ∃ a j', Succeeds policy action work j a j'
  · obtain ⟨a, j', h⟩ := hsucceeds
    refine .inl ⟨a, j', h, next_of_ok ?_⟩
    rw [step, bounded_of_succeeds h]
    rfl
  · have hfails : ∀ a j', ¬ Succeeds policy action work j a j' := fun a j' h ↦
      hsucceeds ⟨a, j', h⟩
    obtain ⟨e, j', hbounded, hactions⟩ := bounded_of_not_succeeds hfails
    refine .inr ⟨hfails, wrap e, j', next_of_error ?_, hactions⟩
    rw [step, hbounded]
    rfl

end Overlay.Node.Leg
