import Overlay.Proofs.Deadline
import Overlay.Proofs.Handshake.Parties

/-!
# The race between a task, its deadline and its cancellation

Limits never change what a task does, only how long it does it. `Task.next?_eq` says so for one
step: what happens next under limits is what would happen next without them, unless the
moment is one that the limits no longer allow; then the task is cut off. By induction,
`runFor_race` compares whole runs: either the limits let the task do all it does on its own,
or its log is the allowed part of the log of the task on its own, and its closing.

`respond_race` is the law for a responder, with the ties: work that ends on the deadline
counts, and a cancellation wins where it meets the deadline or the end of the work.
-/

namespace Overlay

namespace Limits

variable {l : Limits}

theorem le_of_cut? {start time : Nat} {why : Interrupted} (h : l.cut? start = some (time, why)) :
    start ≤ time := by
  obtain ⟨deadline, cancelAt⟩ := l
  cases deadline <;> cases cancelAt <;> simp only [cut?] at h
  · cases h
  · cases h; exact Nat.le_max_left _ _
  · cases h; exact Nat.le_max_left _ _
  · split at h <;> cases h <;> exact Nat.le_max_left _ _

theorem allows_of_cut?_eq_none {start : Nat} (h : l.cut? start = none) (t : Nat) :
    l.allows t = true := by
  obtain ⟨deadline, cancelAt⟩ := l
  cases deadline <;> cases cancelAt <;> simp only [cut?] at h
  · rfl
  · cases h
  · cases h
  · split at h <;> cases h

/-- While work is allowed to go on, when and why it will be cut off does not change. -/
theorem cut?_eq_of_allows {start now : Nat} (hle : start ≤ now) (h : l.allows now = true) :
    l.cut? now = l.cut? start := by
  obtain ⟨deadline, cancelAt⟩ := l
  cases deadline with
  | none =>
    cases cancelAt with
    | none => rfl
    | some c =>
      have hc : now < c := by simpa [allows] using h
      simp only [cut?]
      rw [Nat.max_eq_right (by omega), Nat.max_eq_right (by omega)]
  | some d =>
    cases cancelAt with
    | none =>
      have hd : now ≤ d := by simpa [allows] using h
      simp only [cut?]
      rw [Nat.max_eq_right hd, Nat.max_eq_right (by omega)]
    | some c =>
      obtain ⟨hc, hd⟩ : now < c ∧ now ≤ d := by simpa [allows] using h
      simp only [cut?]
      rw [Nat.max_eq_right hd, Nat.max_eq_right (Nat.le_of_lt hc),
        Nat.max_eq_right (show start ≤ d by omega), Nat.max_eq_right (show start ≤ c by omega)]

end Limits

namespace Handshake

namespace Task

variable {σ ω : Type} {party : Party σ ω} {limits : Limits}

/-! ### One step -/

theorem Move.now_le {t t' : Task σ ω} {time : Nat} (h : t.Move party limits time t') :
    t.now ≤ time := by
  cases h with
  | answer _ hnow _ => exact hnow
  | done _ _ => exact Nat.le_refl _
  | cut hcut => exact Limits.le_of_cut? hcut

/-- What the limits make of what would happen without them. -/
def limit (limits : Limits) (t : Task σ ω) : Option (Nat × Task σ ω) → Option (Nat × Task σ ω)
  | none => t.interrupt limits
  | some (time, t') => if limits.allows time then some (time, t') else t.interrupt limits

theorem receive_eq (t : Task σ ω) (delay : Nat) (e : Event) (q : σ) (wire : Wire) :
    t.receive limits delay e q wire = t.limit limits (t.receive .unlimited delay e q wire) := by
  rw [receive_unlimited]
  rfl

/-- **One step under limits** is the step without them, unless the limits forbid its moment. -/
theorem next?_eq {t : Task σ ω} (hending : t.ending = none) :
    t.next? party limits = t.limit limits (t.next? party .unlimited) := by
  by_cases hallows : limits.allows t.now = true
  · unfold next?
    rw [hending]
    simp only [Option.isSome_none, Bool.false_eq_true, if_false, if_pos hallows,
      Limits.allows_unlimited, if_true]
    cases party.step t.state with
    | done outcome => exact (if_pos hallows).symm
    | pause delay next => exact receive_eq _ _ _ _ _
    | read room next =>
      dsimp only
      cases Wire.readFrom room t.wire.reads with
      | never => rfl
      | after delay result => exact receive_eq _ _ _ _ _
    | write bytes next =>
      dsimp only
      cases Wire.writeTo bytes.length t.wire.writes with
      | never => rfl
      | after delay result => exact receive_eq _ _ _ _ _
    | flush next =>
      dsimp only
      cases t.wire.flush with
      | never => rfl
      | after delay result => exact receive_eq _ _ _ _ _
  · rw [next?_of_not_allows hending hallows]
    rcases hnext : t.next? party .unlimited with - | ⟨time, t'⟩
    · rfl
    · have hle := (move_of_next? hnext).2.now_le
      exact (if_neg fun h ↦ hallows (Limits.allows_of_le hle h)).symm

/-! ### Runs -/

/-- What was added to the log `old` since the moment `now`. -/
structure Since (now : Nat) (old : List (Nat × Event)) (t : Task σ ω) : Prop where
  now_le : now ≤ t.now
  log : ∃ newer, t.log = newer ++ old ∧ ∀ x ∈ newer, now ≤ x.1
  ending : ∀ {time : Nat} {outcome : Except Interrupted ω},
    t.ending = some (time, outcome) → now ≤ time

theorem Since.cons {now time : Nat} {old : List (Nat × Event)} {e : Event} {t t' : Task σ ω}
    (ht : t.Since now old) (hle : t.now ≤ time) (hnow : t'.now = time)
    (hlog : t'.log = (time, e) :: t.log)
    (hending : ∀ {at' : Nat} {outcome}, t'.ending = some (at', outcome) → at' = time) :
    t'.Since now old where
  now_le := hnow ▸ Nat.le_trans ht.now_le hle
  log := by
    obtain ⟨newer, hnewer, hle'⟩ := ht.log
    refine ⟨(time, e) :: newer, by rw [hlog, hnewer]; rfl, ?_⟩
    intro x hx
    rcases List.mem_cons.1 hx with rfl | hx
    · exact Nat.le_trans ht.now_le hle
    · exact hle' x hx
  ending := fun h ↦ hending h ▸ Nat.le_trans ht.now_le hle

theorem Since.move {now time : Nat} {old : List (Nat × Event)} {t t' : Task σ ω}
    (hending : t.ending = none) (h : t.Move party limits time t') (ht : t.Since now old) :
    t'.Since now old := by
  have hle := h.now_le
  cases h with
  | answer _ _ _ => exact ht.cons hle rfl rfl fun h ↦ by rw [hending] at h; cases h
  | done _ _ => exact ht.cons hle rfl rfl fun h ↦ by cases h; rfl
  | cut _ => exact ht.cons hle rfl rfl fun h ↦ by cases h; rfl

theorem Since.of_move {time : Nat} {t t' : Task σ ω} (hending : t.ending = none)
    (h : t.Move party limits time t') : t'.Since time t.log := by
  cases h with
  | answer _ _ _ =>
    exact ⟨Nat.le_refl _, ⟨[_], rfl, by simp⟩, fun h ↦ by rw [hending] at h; cases h⟩
  | done _ _ => exact ⟨Nat.le_refl _, ⟨[_], rfl, by simp⟩, fun h ↦ by cases h; exact Nat.le_refl _⟩
  | cut _ => exact ⟨Nat.le_refl _, ⟨[_], rfl, by simp⟩, fun h ↦ by cases h; exact Nat.le_refl _⟩

theorem Since.runFor {now : Nat} {old : List (Nat × Event)} {t : Task σ ω} (n : Nat)
    (ht : t.Since now old) : (t.runFor party limits n).Since now old :=
  runFor_induction (P := Since now old) (fun hending h ht ↦ ht.move hending h) n ht

/-- What the limits leave of a log. -/
def allowed (limits : Limits) (log : List (Nat × Event)) : List (Nat × Event) :=
  log.filter fun x ↦ limits.allows x.1

theorem allowed_of_forall {log : List (Nat × Event)} (h : ∀ x ∈ log, limits.allows x.1 = true) :
    allowed limits log = log :=
  List.filter_eq_self.2 h

/-- Nothing is left of what was added at or after a forbidden moment. -/
theorem Since.allowed_log {now : Nat} {old : List (Nat × Event)} {t : Task σ ω}
    (ht : t.Since now old) (hnow : ¬ limits.allows now = true) :
    allowed limits t.log = allowed limits old := by
  obtain ⟨newer, hlog, hle⟩ := ht.log
  have hnewer : newer.filter (fun x ↦ limits.allows x.1) = [] :=
    List.filter_eq_nil_iff.2 fun x hx h ↦ hnow (Limits.allows_of_le (hle x hx) h)
  rw [allowed, hlog, List.filter_append, hnewer, List.nil_append, allowed]

/-- How a task ends that is cut off, compared with the task on its own. -/
structure CutOff (limits : Limits) (start : Nat) (alone t : Task σ ω) : Prop where
  cut : ∃ time why, limits.cut? start = some (time, why) ∧
    t.ending = some (time, .error why) ∧
    t.log = (time, .closed) :: allowed limits alone.log
  late : ∀ {time : Nat} {outcome : Except Interrupted ω},
    alone.ending = some (time, outcome) → ¬ limits.allows time = true

/-- Where the limits cut a task off at once, this is all that happens. -/
theorem cutOff_of_next? {t alone : Task σ ω} {time n : Nat} {why : Interrupted}
    (heq : t.next? party limits = t.interrupt limits) (hcut : limits.cut? t.now = some (time, why))
    (hlog : allowed limits alone.log = t.log)
    (hlate : ∀ {time : Nat} {outcome : Except Interrupted ω},
      alone.ending = some (time, outcome) → ¬ limits.allows time = true) :
    CutOff limits t.now alone (t.runFor party limits (n + 1)) := by
  have hnext : t.next? party limits = some (time, t.finish time (.error why)) := by
    rw [heq, interrupt, hcut]
    rfl
  rw [runFor_succ_of_some hnext, runFor_of_none (next?_finish _ _ _)]
  exact ⟨⟨time, why, hcut, rfl, by rw [hlog]; rfl⟩, hlate⟩

/-- **The race**, run against run: the limits let the task do all it does on its own, or
they cut it off. -/
theorem runFor_race :
    ∀ (n : Nat) {t : Task σ ω}, t.ending = none → (∀ x ∈ t.log, limits.allows x.1 = true) →
      (t.runFor party limits n = t.runFor party .unlimited n ∧
          ∀ x ∈ (t.runFor party .unlimited n).log, limits.allows x.1 = true) ∨
        CutOff limits t.now (t.runFor party .unlimited n) (t.runFor party limits n)
  | 0, _, _, hlog => .inl ⟨rfl, hlog⟩
  | n + 1, t, hending, hlog => by
    have heq : t.next? party limits = t.limit limits (t.next? party .unlimited) :=
      next?_eq hending
    rcases hnext : t.next? party .unlimited with - | ⟨time, t'⟩
    · -- on its own the task waits forever, so all that can still happen is that it is cut off
      rw [hnext, limit] at heq
      rw [runFor_of_none hnext]
      rcases hcut : limits.cut? t.now with - | ⟨time, why⟩
      · exact .inl ⟨runFor_of_none (by rw [heq, interrupt, hcut]; rfl) _, hlog⟩
      · exact .inr (cutOff_of_next? heq hcut (allowed_of_forall hlog)
          fun h ↦ by rw [hending] at h; cases h)
    · obtain ⟨-, hmove⟩ := move_of_next? hnext
      rw [hnext, limit] at heq
      rw [runFor_succ_of_some hnext]
      by_cases hallows : limits.allows time = true
      · rw [if_pos hallows] at heq
        rw [runFor_succ_of_some heq]
        have hle := hmove.now_le
        cases hmove with
        | answer hanswer _ _ =>
          refine Or.imp_right (fun h ↦ ?_) (runFor_race n hending ?_)
          · exact ⟨Limits.cut?_eq_of_allows hle hallows ▸ h.cut, h.late⟩
          · simpa [hallows] using hlog
        | done _ _ =>
          rw [runFor_of_none (next?_finish _ _ _), runFor_of_none (next?_finish _ _ _)]
          exact .inl ⟨rfl, by simpa [finish, hallows] using hlog⟩
        | cut hcut => cases hcut
      · -- all that the task still does on its own comes too late
        rw [if_neg hallows] at heq
        have hsince : (t'.runFor party .unlimited n).Since time t.log :=
          (Since.of_move hending hmove).runFor n
        rcases hcut : limits.cut? t.now with - | ⟨cutTime, why⟩
        · exact absurd (Limits.allows_of_cut?_eq_none hcut time) hallows
        · refine .inr (cutOff_of_next? heq hcut ?_ fun h h' ↦ ?_)
          · rw [hsince.allowed_log hallows, allowed_of_forall hlog]
          · exact hallows (Limits.allows_of_le (hsince.ending h) h')

/-- A task that is not cut off does what it does on its own. -/
theorem run_eq_run_unlimited {wire : Wire} {now : Nat}
    (hgo : ∀ time why, ((begin party wire now).run party limits).ending ≠
      some (time, .error why)) :
    (begin party wire now).run party limits = (begin party wire now).run party .unlimited := by
  rcases runFor_race _ (t := begin party wire now) rfl (List.forall_mem_nil _) with ⟨heq, -⟩ | hcut
  · exact heq
  · obtain ⟨time, why, -, hending, -⟩ := hcut.cut
    exact absurd hending (hgo time why)

theorem CutOff.events_eq {start : Nat} {alone t : Task σ ω} (h : CutOff limits start alone t) :
    ∃ time why, limits.cut? start = some (time, why) ∧ t.ending = some (time, .error why) ∧
      t.events = allowed limits alone.events ++ [(time, .closed)] := by
  obtain ⟨time, why, hcut, hending, hlog⟩ := h.cut
  refine ⟨time, why, hcut, hending, ?_⟩
  rw [events, hlog, List.reverse_cons, allowed, events, allowed, List.filter_reverse]

/-- Without limits nothing is cut off. -/
theorem ending_runFor_unlimited (wire : Wire) (now n time : Nat) (why : Interrupted) :
    ((begin party wire now).runFor party .unlimited n).ending ≠ some (time, .error why) := by
  refine runFor_induction (P := fun t ↦ t.ending ≠ some (time, .error why)) ?_ n nofun
  intro t t' time' _ hmove ht
  cases hmove with
  | answer _ _ _ => exact ht
  | done _ _ => intro h; cases h
  | cut hcut => cases hcut

/-- The end of a task is in its log. -/
theorem mem_log_of_ending {t : Task σ ω} (ht : t.Recorded party) {time : Nat}
    {outcome : Except Interrupted ω} (h : t.ending = some (time, outcome)) :
    (time, .closed) ∈ t.log := by
  cases ht with
  | working hending _ => rw [hending] at h; cases h
  | ended hending hevents _ _ =>
    rw [hending] at h
    cases h
    have hmem : (time, Event.closed) ∈ t.events := by rw [hevents]; simp
    exact List.mem_reverse.1 hmem

end Task

/-! ### Responders -/

namespace Config

variable (config : Config) (cancelAt : Option Nat) (start : Nat)

/-- A responder is limited as one step of a policy. -/
def policy : Policy := ⟨config.timeout, cancelAt⟩

theorem allows_limits_iff (t : Nat) :
    (config.limits cancelAt start).allows t = true ↔
      (∀ C ∈ cancelAt, t < C) ∧ t ≤ start + config.timeout :=
  (config.policy cancelAt).allows_limits_iff start t

/-- **Cancelled**: a cancellation that comes no later than the deadline goes before it. -/
theorem cut?_limits_of_le {C : Nat} (hC : C ∈ cancelAt) (hle : C ≤ start + config.timeout) :
    (config.limits cancelAt start).cut? start = some (max start C, .cancelled) := by
  have hcutoff := (config.policy cancelAt).cutoff_of_le start hC hle
  exact ((config.policy cancelAt).cut?_limits start).trans (congrArg some hcutoff)

theorem cut?_limits_of_lt (hlt : ∀ C ∈ cancelAt, start + config.timeout < C) :
    (config.limits cancelAt start).cut? start = some (start + config.timeout, .timeout) := by
  have hcutoff := (config.policy cancelAt).cutoff_of_lt start hlt
  exact ((config.policy cancelAt).cut?_limits start).trans (congrArg some hcutoff)

/-- What a cancellation that comes no later than the deadline leaves of a log. -/
theorem allowed_of_le {C : Nat} (hC : C ∈ cancelAt) (hle : C ≤ start + config.timeout)
    (log : List (Nat × Event)) :
    Task.allowed (config.limits cancelAt start) log = log.filter (·.1 < C) := by
  refine List.filter_congr fun x _ ↦ ?_
  rw [Bool.eq_iff_iff, config.allows_limits_iff, decide_eq_true_iff]
  refine ⟨fun h ↦ h.1 C hC, fun h ↦ ⟨fun C' hC' ↦ ?_, Nat.le_of_lt (Nat.lt_of_lt_of_le h hle)⟩⟩
  rw [Option.mem_unique hC' hC]
  exact h

/-- What the deadline leaves of a log, if it comes before any cancellation. -/
theorem allowed_of_lt (hlt : ∀ C ∈ cancelAt, start + config.timeout < C)
    (log : List (Nat × Event)) :
    Task.allowed (config.limits cancelAt start) log =
      log.filter (·.1 ≤ start + config.timeout) := by
  refine List.filter_congr fun x _ ↦ ?_
  rw [Bool.eq_iff_iff, config.allows_limits_iff, decide_eq_true_iff]
  exact ⟨fun h ↦ h.2, fun h ↦ ⟨fun C hC ↦ Nat.lt_of_le_of_lt h (hlt C hC), h⟩⟩

theorem isSome_cut?_limits (time : Nat) :
    ((config.limits cancelAt start).cut? time).isSome := by
  cases cancelAt with
  | none => rfl
  | some C =>
    simp only [limits, Limits.cut?]
    split <;> rfl

end Config

/-- A responder that answers a stream with neither a deadline nor a cancellation. -/
def answerAlone (config : Config) (start : Nat) (wire : Wire) : Task Responder.State Verdict :=
  (Task.begin (Responder.party config) wire start).run (Responder.party config) .unlimited

/-- **An answer always ends**, by itself or at its deadline. -/
theorem ending_respond_isSome (config : Config) (cancelAt : Option Nat) (start : Nat)
    (wire : Wire) : (respond config cancelAt start wire).ending.isSome :=
  Task.ending_run_isSome (Responder.bounded config) wire start
    (config.isSome_cut?_limits cancelAt start)

/-- The race of a responder, before its moments are compared. -/
theorem respond_eq_or_cutOff (config : Config) (cancelAt : Option Nat) (start : Nat)
    (wire : Wire) :
    (respond config cancelAt start wire = answerAlone config start wire ∧
        ∃ D O, (answerAlone config start wire).ending = some (D, O) ∧
          (config.limits cancelAt start).allows D = true) ∨
      Task.CutOff (config.limits cancelAt start) start (answerAlone config start wire)
        (respond config cancelAt start wire) := by
  have hrecorded : (answerAlone config start wire).Recorded (Responder.party config) :=
    Task.recorded_runFor _ _ wire start _
  rcases Task.runFor_race _ (t := Task.begin (Responder.party config) wire start) rfl
    (List.forall_mem_nil _) with ⟨heq, hlog⟩ | hcut
  · have heq : respond config cancelAt start wire = answerAlone config start wire := heq
    have hended := ending_respond_isSome config cancelAt start wire
    rw [heq] at hended
    obtain ⟨⟨D, O⟩, hending⟩ := Option.isSome_iff_exists.1 hended
    exact .inl ⟨heq, D, O, hending, hlog _ (Task.mem_log_of_ending hrecorded hending)⟩
  · exact .inr hcut

/-- **The law of the race.** On its own a responder ends at a moment `D` with an outcome `O`, or
waits forever. Under a deadline and a cancellation at `C` it ends in the same way, with the
same log, if `D` comes before `C` and not after the deadline; else it is cut off, by whichever
of the two comes first, and by the cancellation where they meet. What a responder does before
it is cut off is what it does by then on its own. -/
theorem respond_race (config : Config) (cancelAt : Option Nat) (start : Nat) (wire : Wire) :
    let alone := answerAlone config start wire
    let answer := respond config cancelAt start wire
    let deadline := start + config.timeout
    (alone.next? (Responder.party config) .unlimited = none ∧
      ∀ D why, alone.ending ≠ some (D, .error why)) ∧
    (∀ D O, alone.ending = some (D, .ok O) → (∀ C ∈ cancelAt, D < C) → D ≤ deadline →
      answer = alone) ∧
    (∀ C ∈ cancelAt, (∀ D O, alone.ending = some (D, O) → C ≤ D) → C ≤ deadline →
      answer.ending = some (max start C, .error .cancelled) ∧
      answer.events = alone.events.filter (·.1 < C) ++ [(max start C, .closed)]) ∧
    ((∀ D O, alone.ending = some (D, O) → deadline < D) → (∀ C ∈ cancelAt, deadline < C) →
      answer.ending = some (deadline, .error .timeout) ∧
      answer.events = alone.events.filter (·.1 ≤ deadline) ++ [(deadline, .closed)]) := by
  intro alone answer deadline
  have hquiet : alone.next? (Responder.party config) .unlimited = none :=
    Task.next?_run (Responder.bounded config) wire start
  have halone : ∀ D why, alone.ending ≠ some (D, .error why) :=
    Task.ending_runFor_unlimited wire start _
  refine ⟨⟨hquiet, halone⟩, ?_⟩
  rcases respond_eq_or_cutOff config cancelAt start wire with ⟨heq, D, O, hending, hallows⟩ | hcut
  · obtain ⟨hcancel, hdeadline⟩ := (config.allows_limits_iff cancelAt start D).1 hallows
    refine ⟨fun _ _ _ _ _ ↦ heq, fun C hC hle _ ↦ ?_, fun hlt _ ↦ ?_⟩
    · exact absurd (hle D O hending) (Nat.not_le_of_lt (hcancel C hC))
    · exact absurd (hlt D O hending) (Nat.not_lt_of_le hdeadline)
  · obtain ⟨time, why, hat, hending, hevents⟩ := hcut.events_eq
    refine ⟨fun D O h hcancel hle ↦ ?_, fun C hC _ hle ↦ ?_, fun _ hlt ↦ ?_⟩
    · exact absurd ((config.allows_limits_iff cancelAt start D).2 ⟨hcancel, hle⟩) (hcut.late h)
    · rw [config.cut?_limits_of_le cancelAt start hC hle] at hat
      cases hat
      rw [config.allowed_of_le cancelAt start hC hle] at hevents
      exact ⟨hending, hevents⟩
    · rw [config.cut?_limits_of_lt cancelAt start hlt] at hat
      cases hat
      rw [config.allowed_of_lt cancelAt start hlt] at hevents
      exact ⟨hending, hevents⟩

/-- The last pause ends on the deadline, and what is there by then still counts. -/
example : (respond ⟨2, 5, 5⟩ none 0 (.ofReads [.eof, .data Settings.handshakeRequest])).ending =
    some (5, .ok .responded) := by decide

end Handshake

end Overlay
