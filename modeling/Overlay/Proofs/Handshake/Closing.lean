import Overlay.Proofs.Handshake.Requesting

/-!
# Who closes the stream of an initiator

A task closes its stream when it ends, and a task that is dropped does not end. So whether the
stream of a handshake that is one step of a policy gets closed is decided by the race of the
handshake on its own (`Initiator.alone`) against the policy: the step ends as `Policy.bounded`
has it (`requestWithin_eq_bounded`), and the stream is closed once if the handshake wins and
not at all if the policy does (`requestWithin_closing`).

An initiator that is cancelled closes its stream as well, but a policy that falls with the same
cancellation never lets it get there (`left_open_of_interrupted`).
-/

namespace Overlay.Handshake

namespace Task

variable {σ ω : Type} {party : Party σ ω} {limits outer : Limits}

/-- A run within outer limits is recorded like any other. -/
theorem Recorded.runWithin :
    ∀ (n : Nat) {t : Task σ ω}, t.Recorded party →
      (t.runWithin party limits outer n).Recorded party
  | 0, _, ht => ht
  | n + 1, t, ht => by
    rcases hnext : t.next? party limits with - | ⟨time, t'⟩
    · rw [Task.runWithin, hnext]
      exact ht
    · obtain ⟨hending, hmove⟩ := move_of_next? hnext
      rw [Task.runWithin, hnext]
      show (if outer.allows time = true then _ else t).Recorded party
      split
      · exact (ht.move hending hmove).runWithin n
      · exact ht

end Task

namespace Initiator

/-- What an initiator comes to that nothing limits, and after which delay. -/
def alone (start : Nat) (wire : Wire) : Delayed Verdict :=
  match (request none start wire).ending with
  | some (time, outcome) => .after (time - start) (result outcome)
  | none => .never

theorem alone_of_ending {start D : Nat} {wire : Wire} {outcome : Except Interrupted Verdict}
    (h : (request none start wire).ending = some (D, outcome)) :
    alone start wire = .after (D - start) (result outcome) ∧ start + (D - start) = D := by
  rw [alone, h]
  exact ⟨rfl, Nat.add_sub_cancel' (le_of_ending_request h)⟩

/-- No answer tells an initiator that it is cancelled. -/
theorem ne_cancelled_of_trace {events : List Event} {s : State} (h : party.Trace events s) :
    s ≠ .finished (.error .cancelled) := by
  rintro rfl
  cases h with
  | @answer _ s _ e _ hanswer =>
    have h : Transition s e (.finished (.error .cancelled)) := transition_of_answered hanswer
    cases h

end Initiator

section

variable {policy : Policy} {cancelAt : Option Nat} {start : Nat} {wire : Wire}

theorem recorded_requestWithin :
    (requestWithin policy cancelAt start wire).1.Recorded Initiator.party := by
  rw [requestWithin_fst]
  split
  · exact (Task.recorded_begin _ wire start).runWithin _
  · exact Task.recorded_begin _ wire start

/-- A task that ends within a policy has come to a verdict of its own. -/
theorem verdict_of_ending_requestWithin {D : Nat} {outcome : Except Interrupted Initiator.Verdict}
    (hfalls : policy.FallsWith cancelAt)
    (h : (requestWithin policy cancelAt start wire).1.ending = some (D, outcome)) :
    ∃ verdict, outcome = .ok verdict ∧ verdict ≠ .error .cancelled := by
  obtain ⟨halone, -⟩ := (ending_requestWithin_iff hfalls).1 h
  cases outcome with
  | error why => exact absurd halone (Task.ending_runFor_unlimited wire start _ D why)
  | ok verdict =>
    refine ⟨verdict, rfl, ?_⟩
    rintro rfl
    cases (recorded_requestWithin : (requestWithin policy cancelAt start wire).1.Recorded _) with
    | working hending _ => cases hending.symm.trans h
    | ended hending _ htrace hdone =>
      cases hending.symm.trans h
      exact Initiator.ne_cancelled_of_trace htrace (Initiator.eq_finished_of_step (hdone _ rfl))

/-- **The step is a race** between the handshake on its own and the policy. -/
theorem requestWithin_eq_bounded (hfalls : policy.FallsWith cancelAt) :
    (requestWithin policy cancelAt start wire).2 =
      policy.bounded start (Initiator.alone start wire) := by
  rw [requestWithin_snd]
  rcases hending : (requestWithin policy cancelAt start wire).1.ending with - | ⟨D, outcome⟩
  · refine (policy.bounded_of_late start fun delay verdict halone hallows ↦ ?_).symm
    rcases hrequest : (request none start wire).ending with - | ⟨D, outcome⟩
    · rw [Initiator.alone, hrequest] at halone
      cases halone
    · obtain ⟨hwork, hD⟩ := Initiator.alone_of_ending hrequest
      cases halone.symm.trans hwork
      rw [hD] at hallows
      have hends := (ending_requestWithin_iff hfalls).2 ⟨hrequest, hallows⟩
      cases hending.symm.trans hends
  · obtain ⟨hrequest, hallows⟩ := (ending_requestWithin_iff hfalls).1 hending
    obtain ⟨hwork, hD⟩ := Initiator.alone_of_ending hrequest
    rw [hwork, policy.bounded_of_allows start _ (hD.symm ▸ hallows), hD]

/-- **Who closes the stream.** Let a handshake be a step of a policy that falls with the
handshake's own cancellation.

1. The step ends as the race between the handshake on its own and the policy does.
2. If the handshake wins, whatever its verdict, the stream has been closed exactly once, when
   the step ended; the verdict is never that it was cancelled.
3. If the policy wins, be it by its deadline or by its cancellation, the stream has not been
   closed. -/
theorem requestWithin_closing (policy : Policy) (cancelAt : Option Nat) (start : Nat)
    (wire : Wire) (hfalls : policy.FallsWith cancelAt) :
    let step := requestWithin policy cancelAt start wire
    let closes := (Report.ofEvents step.1.events).closes
    step.2 = policy.bounded start (Initiator.alone start wire) ∧
      (∀ verdict, step.2.2 = .ok verdict →
        verdict ≠ .error .cancelled ∧ closes = [step.2.1]) ∧
      ∀ why, step.2.2 = .error why → closes = [] := by
  intro step closes
  have hrecorded : step.1.Recorded Initiator.party := recorded_requestWithin
  have hsnd : step.2 = _ := requestWithin_snd
  refine ⟨requestWithin_eq_bounded hfalls, ?_⟩
  rcases hending : step.1.ending with - | ⟨D, outcome⟩
  · rw [hending] at hsnd
    rw [hsnd]
    exact ⟨fun _ h ↦ (by cases h), fun _ _ ↦ hrecorded.closes_eq_nil hending⟩
  · rw [hending] at hsnd
    rw [hsnd]
    obtain ⟨verdict, rfl, hverdict⟩ := verdict_of_ending_requestWithin hfalls hending
    exact ⟨fun _ h ↦ by cases h; exact ⟨hverdict, hrecorded.closes_eq hending⟩,
      fun _ h ↦ by cases h⟩

/-- A wrong reply in two parts, read before the cancellation that the policy shares. -/
theorem requestWithin_closing_of_wrong_reply :
    let wire : Wire := .ofReads [.wait 2, .data [0x50, 0x49], .wait 1, .data [0x4E, 0x47, 0x0A]]
    let step := requestWithin ⟨20000, some 4⟩ (some 5) 0 wire
    Policy.FallsWith ⟨20000, some 4⟩ (some 5) ∧
      step.2 = (3, .ok (.error (.unexpectedReply [0x50, 0x49, 0x4E, 0x47, 0x0A]))) ∧
      (Report.ofEvents step.1.events).closes = [3] := by
  intro wire step
  have hfalls : Policy.FallsWith ⟨20000, some 4⟩ (some 5) := by decide
  have hstep : step.2 = (3, .ok (.error (.unexpectedReply [0x50, 0x49, 0x4E, 0x47, 0x0A]))) := by
    decide
  have hclosed := (requestWithin_closing ⟨20000, some 4⟩ (some 5) 0 wire hfalls).2.1 _
    (congrArg Prod.snd hstep)
  exact ⟨hfalls, hstep, hclosed.2⟩

/-- **A handshake that the policy interrupts leaves its stream open.** On a stream that says
nothing, the deadline of the policy and its cancellation both do so, although the initiator
would have closed the stream at the same cancellation. -/
theorem left_open_of_interrupted :
    let silent : Wire := .ofReads [.pending]
    let late := requestWithin ⟨20000, none⟩ none 0 silent
    let cancelled := requestWithin ⟨20000, some 5⟩ (some 5) 0 silent
    Policy.FallsWith ⟨20000, none⟩ none ∧ Policy.FallsWith ⟨20000, some 5⟩ (some 5) ∧
      late.2 = (20000, .error .timeout) ∧ (Report.ofEvents late.1.events).closes = [] ∧
      cancelled.2 = (5, .error .cancelled) ∧
      (Report.ofEvents cancelled.1.events).closes = [] ∧
      (Report.ofEvents (request (some 5) 0 silent).events).closes = [5] := by
  decide

end

end Overlay.Handshake
