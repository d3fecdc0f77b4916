import Overlay.Proofs.Handshake.Account
import Overlay.Proofs.Handshake.Race

/-!
# The initiator as a step of a policy

Outer limits drop a task, so a run within them is the run without any, up to the first thing
that comes too late. `ending_runWithin_iff` says so for the end: the task ends within its limits
exactly if it ends on its own, as it does there, at a moment that they allow. That the task
has limits of its own makes no difference as long as they are no stricter (`Limits.LooserThan`),
and those of an initiator are not if the policy is cancelled no later (`Policy.FallsWith`).

What an initiator has read tells its verdict: it is content if and only if the bytes are the
reply (`Initiator.received_eq_reply_iff`). So with `ending_requestWithin_iff` the step succeeds
exactly if the initiator on its own ends in time and has read the reply
(`requestWithin_eq_ok_iff`).
-/

namespace Overlay

/-- Limits that outer ones make superfluous: they allow whatever the outer ones allow, and when
they cut something off, the outer ones would have done so. -/
structure Limits.LooserThan (limits outer : Limits) : Prop where
  allows : ∀ {time : Nat}, outer.allows time = true → limits.allows time = true
  cut : ∀ {now time : Nat} {why : Interrupted},
    limits.cut? now = some (time, why) → ¬ outer.allows time = true

/-- A policy falls with a cancellation if it is cancelled no later, as when its own token is a
child of the other. -/
def Policy.FallsWith (policy : Policy) (cancelAt : Option Nat) : Prop :=
  ∀ S ∈ cancelAt, ∃ C ∈ policy.cancelAt, C ≤ S

instance (policy : Policy) (cancelAt : Option Nat) : Decidable (policy.FallsWith cancelAt) :=
  inferInstanceAs (Decidable (∀ S ∈ cancelAt, ∃ C ∈ policy.cancelAt, C ≤ S))

theorem Policy.fallsWith_self (policy : Policy) : policy.FallsWith policy.cancelAt :=
  fun C hC ↦ ⟨C, hC, Nat.le_refl C⟩

namespace Handshake

namespace Task

variable {σ ω : Type} {party : Party σ ω} {limits outer : Limits}

/-! ### Runs within outer limits -/

theorem runWithin_succ_of_some {t t' : Task σ ω} {time : Nat} (n : Nat)
    (h : t.next? party limits = some (time, t')) (hallows : outer.allows time = true) :
    t.runWithin party limits outer (n + 1) = t'.runWithin party limits outer n := by
  rw [runWithin, h]
  exact if_pos hallows

theorem runWithin_of_late {t : Task σ ω}
    (h : ∀ time t', t.next? party limits = some (time, t') → ¬ outer.allows time = true) :
    ∀ n, t.runWithin party limits outer n = t
  | 0 => rfl
  | n + 1 => by
    rw [runWithin]
    rcases hnext : t.next? party limits with - | ⟨time, t'⟩
    · rfl
    · exact if_neg (h time t' hnext)

/-- What happens at a moment that the outer limits allow is what would happen without any. -/
theorem next?_eq_some_iff (hlooser : limits.LooserThan outer) {t t' : Task σ ω} {time : Nat}
    (hending : t.ending = none) (hallows : outer.allows time = true) :
    t.next? party limits = some (time, t') ↔ t.next? party .unlimited = some (time, t') := by
  have hcut (h : t.interrupt limits = some (time, t')) : False := by
    obtain ⟨⟨time, why⟩, hcut, heq⟩ := Option.map_eq_some_iff.1 h
    cases heq
    exact hlooser.cut hcut hallows
  rw [next?_eq hending]
  rcases t.next? party .unlimited with - | ⟨time', t''⟩
  · exact ⟨fun h ↦ (hcut h).elim, fun h ↦ by cases h⟩
  · by_cases htime : limits.allows time' = true
    · rw [limit, if_pos htime]
    · rw [limit, if_neg htime]
      refine ⟨fun h ↦ (hcut h).elim, fun h ↦ ?_⟩
      cases h
      exact absurd (hlooser.allows hallows) htime

/-- **A task ends within outer limits** exactly if it ends on its own at a moment that they
allow. -/
theorem ending_runWithin_iff (hlooser : limits.LooserThan outer) {D : Nat}
    {outcome : Except Interrupted ω} :
    ∀ (n : Nat) {t : Task σ ω}, t.ending = none →
      ((t.runWithin party limits outer n).ending = some (D, outcome) ↔
        (t.runFor party .unlimited n).ending = some (D, outcome) ∧ outer.allows D = true)
  | 0, t, hending => by
    show t.ending = _ ↔ t.ending = _ ∧ _
    simp [hending]
  | n + 1, t, hending => by
    rcases hnext : t.next? party .unlimited with - | ⟨time, t'⟩
    · -- on its own the task waits forever, so whatever else happens is a cut, and too late
      rw [runFor_of_none hnext, runWithin_of_late fun time t' h hallows ↦ by
        rw [next?_eq_some_iff hlooser hending hallows, hnext] at h
        cases h]
      simp [hending]
    · obtain ⟨-, hmove⟩ := move_of_next? hnext
      rw [runFor_succ_of_some hnext]
      by_cases hallows : outer.allows time = true
      · rw [runWithin_succ_of_some n ((next?_eq_some_iff hlooser hending hallows).2 hnext) hallows]
        cases hmove with
        | answer _ _ _ => exact ending_runWithin_iff hlooser n hending
        | done _ _ =>
          rw [runFor_of_none (next?_finish _ _ _), runWithin_of_late fun _ _ h ↦ by
            rw [next?_finish] at h
            cases h]
          refine ⟨fun h ↦ ⟨h, ?_⟩, fun h ↦ h.1⟩
          cases h
          exact hallows
        | cut hcut => cases hcut
      · have hlate : ∀ time t', t.next? party limits = some (time, t') →
            ¬ outer.allows time = true := fun time₂ t₂ h hallows₂ ↦ by
          rw [next?_eq_some_iff hlooser hending hallows₂, hnext] at h
          cases h
          exact hallows hallows₂
        have hsince : (t'.runFor party .unlimited n).Since time t.log :=
          (Since.of_move hending hmove).runFor n
        rw [runWithin_of_late hlate]
        refine ⟨fun h ↦ (Option.some_ne_none _ (h.symm.trans hending)).elim, fun ⟨h, hD⟩ ↦ ?_⟩
        exact absurd (Limits.allows_of_le (hsince.ending h) hD) hallows

end Task

/-! ### What an initiator has read -/

namespace Initiator

/-- An initiator that fails has not read the reply. -/
theorem received_ne_reply_of_failed {events : List Event} {s : State} {e : HandshakeError}
    (h : party.Trace events s) (hs : s = .finished (.error e)) :
    received events ≠ Settings.handshakeReply := by
  have hempty : [] ≠ Settings.handshakeReply := by decide
  cases h with
  | start => cases hs
  | @answer events r _ event htrace hanswer =>
    have haccords := accords_of_trace htrace
    have hvalid := bounded.valid_of_trace htrace
    have htransition : Transition r event s := transition_of_answered hanswer
    rw [received_append, received_singleton]
    cases htransition with
    | wroteSome | wroteAll | flushed | more | accepted => cases hs
    | stalled | writeFailed | flushFailed =>
      rw [haccords.2]
      exact hempty
    | @readFailed got kind =>
      -- a token that is still being read is shorter than the reply
      have hshort : got.length < Settings.tokenLength := hvalid
      show received events ++ [] ≠ _
      rw [haccords.2, List.append_nil]
      rintro rfl
      exact absurd hshort (by decide)
    | rejected _ htoken _ =>
      rw [haccords.2]
      exact htoken

/-- **What an initiator has read tells its verdict.** -/
theorem received_eq_reply_iff {events : List Event} {s : State} {v : Verdict}
    (h : party.Trace events s) (hdone : party.step s = .done v) :
    received events = Settings.handshakeReply ↔ v = .ok () := by
  have hs := eq_finished_of_step hdone
  cases v with
  | ok _ =>
    have haccords := accords_of_trace h
    rw [hs] at haccords
    exact ⟨fun _ ↦ rfl, fun _ ↦ haccords.2⟩
  | error e =>
    exact ⟨fun hreply ↦ (received_ne_reply_of_failed h hs hreply).elim, fun hok ↦ by cases hok⟩

/-- An initiator that begins at `start`, with neither deadline nor cancellation, ends at `D` and
has read the bytes `reply` by then. -/
def RepliedAt (start : Nat) (wire : Wire) (reply : List UInt8) (D : Nat) : Prop :=
  (∃ outcome, (request none start wire).ending = some (D, outcome)) ∧
    received (request none start wire).history = reply

/-- On its own an initiator succeeds exactly if it reads the reply. -/
theorem ending_request_iff {start : Nat} {wire : Wire} {D : Nat} :
    (request none start wire).ending = some (D, .ok (.ok ())) ↔
      RepliedAt start wire Settings.handshakeReply D := by
  have hrecorded : (request none start wire).Recorded party :=
    Task.recorded_runFor party _ wire start _
  cases hrecorded with
  | working hending _ =>
    refine ⟨fun h ↦ ?_, fun h ↦ ?_⟩
    · exact (Option.some_ne_none _ (h.symm.trans hending)).elim
    · obtain ⟨outcome, houtcome⟩ := h.1
      exact (Option.some_ne_none _ (houtcome.symm.trans hending)).elim
  | @ended time outcome before hending hevents htrace hdone =>
    have hreceived : received (request none start wire).history =
        received (before.map Prod.snd) := by
      rw [Task.history, hevents, List.map_append, received_append]
      exact List.append_nil _
    rw [RepliedAt, hreceived, hending]
    cases outcome with
    | error why => exact absurd hending (Task.ending_runFor_unlimited wire start _ time why)
    | ok v =>
      rw [received_eq_reply_iff htrace (hdone v rfl)]
      constructor
      · intro h
        cases h
        exact ⟨⟨_, rfl⟩, rfl⟩
      · rintro ⟨⟨outcome, h⟩, hv⟩
        cases h
        rw [hv]

/-- An initiator does not end before it begins. -/
theorem le_of_ending_request {start : Nat} {wire : Wire} {D : Nat}
    {outcome : Except Interrupted Verdict}
    (h : (request none start wire).ending = some (D, outcome)) : start ≤ D := by
  have hbegin : (Task.begin party wire start).Since start [] :=
    ⟨Nat.le_refl _, ⟨[], rfl, List.forall_mem_nil _⟩, fun h ↦ by cases h⟩
  exact (hbegin.runFor _).ending h

/-- The limits of an initiator add nothing to those of a policy that falls with its cancellation. -/
theorem limits_looserThan {policy : Policy} {cancelAt : Option Nat}
    (hfalls : policy.FallsWith cancelAt) (start : Nat) :
    (limits cancelAt).LooserThan (policy.limits start) where
  allows := by
    intro time h
    refine (Limits.allows_iff _ _).2 ⟨fun S hS ↦ ?_, fun _ hD ↦ by cases hD⟩
    obtain ⟨C, hC, hle⟩ := hfalls S hS
    exact Nat.lt_of_lt_of_le (((policy.allows_limits_iff start _).1 h).1 C hC) hle
  cut := by
    intro now time why hcut h
    cases cancelAt with
    | none => cases hcut
    | some S =>
      obtain ⟨C, hC, hle⟩ := hfalls S rfl
      have hlt := ((policy.allows_limits_iff start _).1 h).1 C hC
      cases hcut
      omega

end Initiator

/-! ### The step -/

section

variable {policy : Policy} {cancelAt : Option Nat} {start : Nat} {wire : Wire} {D : Nat}

/-- The task of a step that may not begin has done nothing. -/
theorem requestWithin_fst : (requestWithin policy cancelAt start wire).1 =
    if policy.admits start = true then
      (Task.begin Initiator.party wire start).runWithin Initiator.party
        (Initiator.limits cancelAt) (policy.limits start)
        ((Task.begin Initiator.party wire start).budget Initiator.party)
    else Task.begin Initiator.party wire start := by
  rw [requestWithin]
  split <;> rfl

/-- A step ends as its task does, unless the task is dropped. -/
theorem requestWithin_snd : (requestWithin policy cancelAt start wire).2 =
    match (requestWithin policy cancelAt start wire).1.ending with
    | some (time, outcome) => (time, .ok (Initiator.result outcome))
    | none => ((policy.cutoff start).1, .error (policy.cutoff start).2) := by
  rw [requestWithin_fst, requestWithin]
  generalize (if policy.admits start = true then _ else _ : Task _ _) = task
  rcases task with ⟨state, wire, now, log, - | ⟨time, outcome⟩⟩
  · rfl
  · rfl

/-- **The task of a step ends** exactly if the initiator on its own does, as it does there, at a
moment that the policy allows. -/
theorem ending_requestWithin_iff (hfalls : policy.FallsWith cancelAt)
    {outcome : Except Interrupted Initiator.Verdict} :
    (requestWithin policy cancelAt start wire).1.ending = some (D, outcome) ↔
      (request none start wire).ending = some (D, outcome) ∧
        (policy.limits start).allows D = true := by
  rw [requestWithin_fst]
  by_cases hadmits : policy.admits start = true
  · rw [if_pos hadmits]
    exact Task.ending_runWithin_iff (Initiator.limits_looserThan hfalls start) _ rfl
  · rw [if_neg hadmits]
    refine ⟨fun h ↦ (by cases h), fun ⟨h, hD⟩ ↦ absurd ?_ hadmits⟩
    rw [← policy.allows_limits_self]
    exact Limits.allows_of_le (Initiator.le_of_ending_request h) hD

end

/-- **The handshake as a step of a policy** succeeds at `D` exactly if the initiator on its own
ends at `D` with the reply, within the time of a step and before the cancellation. -/
theorem requestWithin_eq_ok_iff (policy : Policy) (start : Nat) (wire : Wire) (D : Nat) :
    (requestWithin policy policy.cancelAt start wire).2 = (D, .ok (.ok ())) ↔
      Initiator.RepliedAt start wire Settings.handshakeReply D ∧
        D ≤ start + policy.timeout ∧ ∀ C ∈ policy.cancelAt, D < C := by
  have hends : (requestWithin policy policy.cancelAt start wire).1.ending =
      some (D, .ok (.ok ())) ↔ _ := ending_requestWithin_iff policy.fallsWith_self
  rw [Initiator.ending_request_iff, policy.allows_limits_iff,
    and_comm (a := ∀ C ∈ policy.cancelAt, D < C)] at hends
  rw [← hends, requestWithin_snd]
  rcases (requestWithin policy policy.cancelAt start wire).1.ending with - | ⟨time, why | v⟩
  · exact ⟨fun h ↦ (by cases h), fun h ↦ by cases h⟩
  · exact ⟨fun h ↦ (by cases h), fun h ↦ by cases h⟩
  · exact ⟨fun h ↦ (by cases h; rfl), fun h ↦ by cases h; rfl⟩

end Handshake

end Overlay
