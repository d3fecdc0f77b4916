import Overlay.Proofs.Handshake.Account
import Overlay.Proofs.Handshake.Race

/-!
# The discipline of a responder

Whatever the other end does, and whenever a responder is cut off, it keeps to four rules: it
writes nothing but the reply, it writes only after the request and reads nothing from then on,
its outcome tells whether the reply went out, and it closes the stream once, as the last thing
it does. A responder that is cancelled before it begins only closes the stream.

Every rule is read off the account of the trace behind the log; the runs themselves, with
their limits, were dealt with once in `Task.recorded_runFor`.
-/

namespace Overlay.Handshake

theorem written_ofEvents (events : List (Nat × Event)) :
    (Report.ofEvents events).written = sent (events.map Prod.snd) := by
  rw [sent, List.flatMap_map]
  rfl

/-- Whoever has written something was asked for it just before, and has read nothing since. -/
theorem Answering.of_wrote {before after : List Event} {result : Except Failure (List UInt8)}
    (h : Answering (before ++ .wrote result :: after)) :
    latestToken before = Settings.handshakeRequest ∧ ∀ e ∈ after, e.room? = none := by
  obtain ⟨asked, reply, heq, hlisten, htoken, hreply⟩ := h
  rcases List.append_eq_append_iff.1 heq with ⟨more, rfl, hmore⟩ | ⟨more, rfl, rfl⟩
  · cases more with
    | nil =>
      rw [List.append_nil] at htoken
      rw [List.nil_append] at hmore
      refine ⟨htoken, fun e he ↦ hreply e ?_⟩
      rw [← hmore]
      exact List.mem_cons_of_mem _ he
    | cons e more =>
      -- the write would be one of the events before the request
      obtain ⟨rfl, -⟩ := List.cons.inj hmore
      cases hlisten (.wrote result) (by simp)
  · refine ⟨?_, fun e he ↦ hreply e (by simp [he])⟩
    rw [latestToken_append fun e he ↦ hreply e (by simp [he]), htoken]

namespace Responder

/-- A responder that has answered has sent all of the reply, and one that has rejected a token
or abandoned the stream has not tried to write. -/
theorem account_of_verdict {config : Config} {events : List Event} {s : State} {v : Verdict}
    (h : (party config).Trace events s) (hdone : (party config).step s = .done v) :
    (v = .responded → sent events = Settings.handshakeReply) ∧
      (∀ bytes, v = .rejected bytes → Listening events) ∧
      (∀ n, v = .abandoned n → Listening events) := by
  have haccords := accords_of_trace h
  rw [eq_finished_of_step hdone] at haccords
  refine ⟨?_, ?_, ?_⟩
  · rintro rfl
    rw [← haccords.sent, List.append_nil]
  · rintro bytes rfl
    exact haccords.1
  · rintro n rfl
    exact haccords.1

section Ended

variable {config : Config} {s : State} {time : Nat} {events before : List (Nat × Event)}
  (hevents : events = before ++ [(time, .closed)])
  (htrace : (party config).Trace (before.map Prod.snd) s)
include hevents htrace

/-- Of an answer that has ended, every initial part of the log has written an initial part of the
reply. -/
theorem written_prefix_of_ended {early : List (Nat × Event)} (hearly : early <+: events) :
    (Report.ofEvents early).written <+: Settings.handshakeReply := by
  have hprefix : sent (early.map Prod.snd) <+: sent (events.map Prod.snd) :=
    sent_prefix (hearly.map Prod.snd)
  have hsent : sent (events.map Prod.snd) = sent (before.map Prod.snd) := by
    rw [hevents, List.map_append, sent_append]
    exact List.append_nil _
  rw [hsent] at hprefix
  rw [written_ofEvents]
  exact hprefix.trans (sent_prefix_of_trace htrace)

/-- Of an answer that has ended, every write followed the request, and no read followed it. -/
theorem asked_of_wrote {early after : List (Nat × Event)} {at' : Nat}
    {result : Except Failure (List UInt8)}
    (hwrote : events = early ++ (at', .wrote result) :: after) :
    latestToken (early.map Prod.snd) = Settings.handshakeRequest ∧
      ∀ e ∈ after, e.2.room? = none := by
  have hsplit : before.map Prod.snd ++ [.closed] =
      early.map Prod.snd ++ .wrote result :: after.map Prod.snd := by
    have hall := congrArg (List.map Prod.snd) (hevents.symm.trans hwrote)
    rw [List.map_append, List.map_append] at hall
    exact hall
  rcases listening_or_replying htrace with hlisten | ⟨left, hreply⟩
  · -- whoever only listens has not written
    have hlisten := hlisten.snoc (e := .closed) rfl
    rw [hsplit] at hlisten
    cases hlisten (.wrote result) (by simp)
  · have hanswering := hreply.answering.snoc (e := .closed) rfl
    rw [hsplit] at hanswering
    obtain ⟨htoken, hafter⟩ := hanswering.of_wrote
    exact ⟨htoken, fun e he ↦ hafter e.2 (List.mem_map_of_mem he)⟩

end Ended

end Responder

/-- A responder that is cancelled by the time it begins only closes the stream. -/
theorem respond_of_cancelled (config : Config) {cancelAt : Option Nat} {start C : Nat}
    (wire : Wire) (hC : C ∈ cancelAt) (hle : C ≤ start) :
    respond config cancelAt start wire =
      (Task.begin (Responder.party config) wire start).finish start (.error .cancelled) := by
  have hallows : ¬ (config.limits cancelAt start).allows start = true := by
    rw [config.allows_limits_iff]
    exact fun h ↦ Nat.not_lt_of_le hle (h.1 C hC)
  have hdeadline : C ≤ start + config.timeout := Nat.le_trans hle (Nat.le_add_right _ _)
  have hcut := config.cut?_limits_of_le cancelAt start hC hdeadline
  rw [Nat.max_eq_left hle] at hcut
  exact Task.run_begin_of_not_allows hallows hcut

/-- **The discipline of a responder**, whatever the stream does and whenever it is cut off. Each
thing that happens adds one event to the log, so the moments of a run are the initial parts of
its log.

1. What has been written is at any moment an initial part of the reply.
2. When something is written, or tried to, the latest token read found the request; no read
   comes after it.
3. The answer ends, and the closing of the stream is the last event and the only one of its
   kind. The reply has been written if the outcome says so; if the token was rejected or the
   stream abandoned, nothing was.
4. A responder that is cancelled by the time it begins only closes the stream. -/
theorem respond_discipline (config : Config) (cancelAt : Option Nat) (start : Nat) (wire : Wire) :
    let answer := respond config cancelAt start wire
    (∀ before, before <+: answer.events →
      (Report.ofEvents before).written <+: Settings.handshakeReply) ∧
    (∀ before time result after, answer.events = before ++ (time, .wrote result) :: after →
      latestToken (before.map Prod.snd) = Settings.handshakeRequest ∧
      ∀ e ∈ after, e.2.room? = none) ∧
    (∃ time outcome before, answer.ending = some (time, outcome) ∧
      answer.events = before ++ [(time, .closed)] ∧ (∀ e ∈ before, e.2 ≠ .closed) ∧
      (outcome = .ok .responded →
        (Report.ofEvents before).written = Settings.handshakeReply) ∧
      (∀ bytes, outcome = .ok (.rejected bytes) → ∀ e ∈ before, e.2.isWrite = false) ∧
      (∀ n, outcome = .ok (.abandoned n) → ∀ e ∈ before, e.2.isWrite = false)) ∧
    (∀ C ∈ cancelAt, C ≤ start →
      answer.events = [(start, .closed)] ∧ answer.ending = some (start, .error .cancelled)) := by
  intro answer
  have hrecorded : answer.Recorded (Responder.party config) :=
    Task.recorded_runFor _ _ wire start _
  have hended : answer.ending.isSome := ending_respond_isSome config cancelAt start wire
  cases hrecorded with
  | working hending _ => rw [hending] at hended; cases hended
  | @ended time outcome before hending hevents htrace hdone =>
  refine ⟨?_, ?_, ⟨time, outcome, before, hending, hevents, ?_, ?_, ?_, ?_⟩, ?_⟩
  · intro early hearly
    exact Responder.written_prefix_of_ended hevents htrace hearly
  · intro early at' result after hwrote
    exact Responder.asked_of_wrote hevents htrace hwrote
  · intro e he hclosed
    exact htrace.closed_not_mem (hclosed ▸ List.mem_map_of_mem he)
  · rintro rfl
    rw [written_ofEvents]
    exact (Responder.account_of_verdict htrace (hdone _ rfl)).1 rfl
  · rintro bytes rfl e he
    exact (Responder.account_of_verdict htrace (hdone _ rfl)).2.1 bytes rfl e.2
      (List.mem_map_of_mem he)
  · rintro n rfl e he
    exact (Responder.account_of_verdict htrace (hdone _ rfl)).2.2 n rfl e.2
      (List.mem_map_of_mem he)
  · intro C hC hle
    have heq : answer = _ := respond_of_cancelled config wire hC hle
    rw [heq]
    exact ⟨rfl, rfl⟩

/-- A responder that is cut off while it replies has written a part of the reply. -/
example : (Report.ofEvents (respond ⟨5, 1000, 9⟩ none 0
    ⟨[.data Settings.handshakeRequest], [.accept 2, .pending], .after 0 (.ok ())⟩).events).written =
    [0x50, 0x4F] := by decide

end Overlay.Handshake
