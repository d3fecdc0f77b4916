import Overlay.Proofs.Handshake.Attempts
import Overlay.Proofs.Handshake.Race

/-!
# The outcome of a responder

What a responder comes to that is cut off neither by its deadline nor by a cancellation, told
from the script of its wire alone. The token reads of the script are numbered from zero. The
first one that finds more than an empty stream, or fails, decides; if all attempts find an empty
stream, the stream is abandoned.

A responder that is not cut off does what it does on its own (`respond_eq_answerAlone`), and on its
own it follows its course, which `Overlay.Proofs.Handshake.Attempts` knows. So
`respond_outcome` is a matter of putting courses together.
-/

namespace Overlay.Handshake

namespace Responder

variable {config : Config}

/-- What a responder comes to after the token read that decides, where `reply` is what comes of
the reply. -/
def verdictOn (reply : Option (Except Failure Unit)) :
    Except Failure (List UInt8) → Option Verdict
  | .error kind => some (.failed kind)
  | .ok received =>
    if received = Settings.handshakeRequest then reply.map replied
    else some (.rejected received)

/-- **The course of a responder to its decision**, after `k` empty streams. -/
theorem leads_of_deciding (config : Config) (wire : Wire) {k : Nat} (hk : k < config.attempts)
    (hempty : ∀ n < k, wire.tokenRead? n = some (.ok []))
    (hdecides : wire.tokenRead? k ≠ some (.ok [])) :
    Leads config (.awaiting 1 []) wire (k + 1) k (((wire.tokenRead? k).bind
      (verdictOn (wire.writeToken Settings.handshakeReply))).map .finished) := by
  obtain ⟨hnever, htoken⟩ := course_token config wire hk hempty
  rcases hread : wire.tokenRead? k with - | result
  · exact hnever hread
  · obtain ⟨events, left, hreads, hrests, -, hcourse⟩ := htoken result hread
    rw [hread] at hdecides
    rw [Option.bind_some]
    rcases result with kind | received
    · exact ⟨events, { wire with reads := left }, hreads, hrests, rfl, hcourse⟩
    -- an empty stream would not have decided
    have hne : received ≠ [] := fun h ↦ hdecides (by rw [h])
    rw [afterToken_of_ne hne, judge] at hcourse
    rw [verdictOn]
    split at hcourse
    · next hrequest =>
      rw [if_pos hrequest, Option.map_map]
      have hreply := leads_writeToken config { wire with reads := left }
      have hlead := hreply.of_course hcourse hreads hrests rfl
      exact hlead
    · next hother =>
      rw [if_neg hother]
      exact ⟨events, { wire with reads := left }, hreads, hrests, rfl, hcourse⟩

/-- **The course of a responder that gives up**: every attempt finds an empty stream. -/
theorem course_of_forall_empty (config : Config) (wire : Wire)
    (hempty : ∀ n < config.attempts, wire.tokenRead? n = some (.ok [])) :
    ∃ events wire', tokenReads events = config.attempts ∧
      pauses events = config.attempts - 1 ∧ Listening events ∧
      (party config).Course (.awaiting 1 []) wire events
        (.finished (.abandoned config.attempts)) wire' := by
  have hpos : 1 ≤ config.attempts := Nat.le_max_left 1 _
  obtain ⟨k, hk⟩ : ∃ k, config.attempts = 1 + k := ⟨config.attempts - 1, by omega⟩
  have hlast : k < config.attempts := by omega
  obtain ⟨events, left, hreads, hrests, hlisten, hcourse⟩ :=
    (course_token config wire hlast fun n hn ↦ hempty n (by omega)).2 _ (hempty k hlast)
  have hretry : afterToken config (1 + k) (.ok []) = .finished (.abandoned (1 + k)) := by
    rw [afterToken, retry, if_pos (Nat.le_of_eq hk)]
  rw [hretry] at hcourse
  rw [hk]
  refine ⟨events, { wire with reads := left }, ?_, ?_, hlisten, hcourse⟩
  · rw [hreads, Nat.add_comm]
  · rw [hrests, Nat.add_sub_cancel_left]

/-- The number of the attempt that a responder is at. -/
def State.attempt? : State → Option Nat
  | .awaiting attempt _ | .backingOff attempt => some attempt
  | _ => none

theorem Valid.attempt_le {s : State} (h : Valid config s) {attempt : Nat}
    (hs : s.attempt? = some attempt) : 1 ≤ attempt ∧ attempt ≤ config.attempts := by
  cases s with
  | awaiting attempt got => cases hs; exact ⟨h.1, h.2.1⟩
  | backingOff attempt => cases hs; exact ⟨h.1, Nat.le_of_lt h.2⟩
  | replying | flushing | finished => cases hs

end Responder

section Outcome

open Responder

variable {config : Config} {cancelAt : Option Nat} {start : Nat} {wire : Wire}

/-- A responder that is not cut off answers as it does on its own, and that ends. -/
theorem respond_eq_answerAlone
    (hgo : ∀ time why, (respond config cancelAt start wire).ending ≠ some (time, .error why)) :
    respond config cancelAt start wire = answerAlone config start wire ∧
      (answerAlone config start wire).ending.isSome := by
  rcases respond_eq_or_cutOff config cancelAt start wire with ⟨heq, D, O, hending, -⟩ | hcut
  · exact ⟨heq, by rw [hending]; rfl⟩
  · obtain ⟨time, why, -, hending, -⟩ := hcut.cut
    exact absurd hending (hgo time why)

/-- The end of a responder whose course on its own leads to a verdict. -/
theorem respond_of_course
    (hgo : ∀ time why, (respond config cancelAt start wire).ending ≠ some (time, .error why))
    {events : List Event} {verdict : Verdict} {wire' : Wire}
    (hcourse : (party config).Course (.awaiting 1 []) wire events (.finished verdict) wire') :
    (∃ time, (respond config cancelAt start wire).ending = some (time, .ok verdict)) ∧
      tokenReads (respond config cancelAt start wire).history = tokenReads events ∧
      pauses (respond config cancelAt start wire).history = pauses events ∧
      (Listening events → Listening (respond config cancelAt start wire).history) := by
  have halone : (∃ time, (answerAlone config start wire).ending = some (time, .ok verdict)) ∧
      (answerAlone config start wire).history = events ++ [.closed] :=
    Task.run_of_course (Responder.bounded config) hcourse rfl
  obtain ⟨hending, hhistory⟩ := halone
  rw [(respond_eq_answerAlone hgo).1, hhistory]
  refine ⟨hending, ?_, ?_, fun hlisten ↦ hlisten.snoc rfl⟩
  · rw [tokenReads_append]
    rfl
  · rw [pauses_append]
    rfl

/-- A responder that is not cut off comes to the verdict to which its course leads. -/
theorem respond_of_leads
    (hgo : ∀ time why, (respond config cancelAt start wire).ending ≠ some (time, .error why))
    {reads rests : Nat} {verdict : Option Verdict}
    (hleads : Leads config (.awaiting 1 []) wire reads rests (verdict.map .finished)) :
    ∃ v time, verdict = some v ∧
      (respond config cancelAt start wire).ending = some (time, .ok v) ∧
      tokenReads (respond config cancelAt start wire).history = reads ∧
      pauses (respond config cancelAt start wire).history = rests := by
  cases verdict with
  | none =>
    obtain ⟨events, q, wire', hcourse, hblocked⟩ := hleads
    have hended := (respond_eq_answerAlone hgo).2
    have hnone : (answerAlone config start wire).ending = none :=
      (Task.run_of_course_blocked (Responder.bounded config) hcourse hblocked).1
    rw [hnone] at hended
    cases hended
  | some v =>
    obtain ⟨events, wire', hreads, hrests, -, hcourse⟩ := hleads
    obtain ⟨⟨time, hending⟩, htokens, hpauses, -⟩ := respond_of_course hgo hcourse
    exact ⟨v, time, rfl, hending, htokens.trans hreads, hpauses.trans hrests⟩

/-- **The outcome of a responder** that is cut off neither by its deadline nor by a cancellation,
as the script of its wire decides it.

1. If every attempt finds an empty stream, the stream is abandoned after all attempts, with a
   pause between any two of them and nothing written.
2. Else the first token read that finds more, or fails, is the last one, and there was a pause
   before each but the first. It ends, and with what comes of the reply it decides the outcome.
3. The number of the attempt stays between one and the number of attempts, so it fits whatever
   the setting fits. -/
theorem respond_outcome (config : Config) (cancelAt : Option Nat) (start : Nat) (wire : Wire)
    (hgo : ∀ time why, (respond config cancelAt start wire).ending ≠ some (time, .error why)) :
    let answer := respond config cancelAt start wire
    ((∀ n < config.attempts, wire.tokenRead? n = some (.ok [])) →
      (∃ time, answer.ending = some (time, .ok (.abandoned config.attempts))) ∧
      tokenReads answer.history = config.attempts ∧
      pauses answer.history = config.attempts - 1 ∧ Listening answer.history) ∧
    (∀ k < config.attempts, (∀ n < k, wire.tokenRead? n = some (.ok [])) →
      wire.tokenRead? k ≠ some (.ok []) →
      tokenReads answer.history = k + 1 ∧ pauses answer.history = k ∧
      ∃ token verdict time, wire.tokenRead? k = some token ∧
        verdictOn (wire.writeToken Settings.handshakeReply) token = some verdict ∧
        answer.ending = some (time, .ok verdict)) ∧
    (∀ n attempt, (((Task.begin (party config) wire start).runFor (party config)
        (config.limits cancelAt start) n).state.attempt? = some attempt) →
      1 ≤ attempt ∧ attempt ≤ config.attempts ∧
      (config.maxAttempts < UInt32.size → attempt < UInt32.size)) := by
  intro answer
  refine ⟨fun hempty ↦ ?_, fun k hk hempty hdecides ↦ ?_, fun n attempt hattempt ↦ ?_⟩
  · obtain ⟨events, wire', hreads, hrests, hlisten, hcourse⟩ :=
      course_of_forall_empty config wire hempty
    obtain ⟨hending, htokens, hpauses, hsilent⟩ := respond_of_course hgo hcourse
    exact ⟨hending, htokens.trans hreads, hpauses.trans hrests, hsilent hlisten⟩
  · obtain ⟨verdict, time, hverdict, hending, hreads, hrests⟩ :=
      respond_of_leads hgo (leads_of_deciding config wire hk hempty hdecides)
    obtain ⟨token, htoken, hdecided⟩ := Option.bind_eq_some_iff.1 hverdict
    exact ⟨hreads, hrests, token, verdict, time, htoken, hdecided, hending⟩
  · obtain ⟨events, htrace⟩ := (Task.recorded_runFor (party config)
      (config.limits cancelAt start) wire start n).exists_trace
    have hvalid := (Responder.bounded config).valid_of_trace htrace
    obtain ⟨hpos, hle⟩ := hvalid.attempt_le hattempt
    refine ⟨hpos, hle, fun hsize ↦ Nat.lt_of_le_of_lt hle ?_⟩
    exact Nat.max_lt.2 ⟨by decide, hsize⟩

/-- A request in two parts behind an empty stream. -/
theorem respond_outcome_of_split :
    let wire : Wire := ⟨[.eof, .data [0x50, 0x49], .wait 2, .data [0x4E, 0x47, 0x0A]],
      [.accept 2], .after 0 (.ok ())⟩
    let answer := respond ⟨3, 10, 100⟩ none 0 wire
    (∀ time why, answer.ending ≠ some (time, .error why)) ∧
      tokenReads answer.history = 2 ∧ pauses answer.history = 1 ∧
      ∃ time, answer.ending = some (time, .ok .responded) := by
  intro wire answer
  have hending : answer.ending = some (12, .ok .responded) := by decide
  have hgo : ∀ time why, answer.ending ≠ some (time, .error why) := by
    intro time why h
    rw [hending] at h
    cases h
  obtain ⟨hreads, hrests, token, verdict, time, htoken, hverdict, hend⟩ :=
    (respond_outcome ⟨3, 10, 100⟩ none 0 wire hgo).2.1 1 (by decide)
      (fun n hn ↦ by rw [Nat.lt_one_iff.1 hn]; decide) (by decide)
  have hrequest : wire.tokenRead? 1 = some (.ok Settings.handshakeRequest) := by decide
  rw [hrequest] at htoken
  cases htoken
  have hreply : verdictOn (wire.writeToken Settings.handshakeReply)
      (.ok Settings.handshakeRequest) = some .responded := by decide
  rw [hreply] at hverdict
  cases hverdict
  exact ⟨hgo, hreads, hrests, time, hend⟩

end Outcome

end Overlay.Handshake
