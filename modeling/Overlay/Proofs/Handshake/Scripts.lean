import Overlay.Proofs.Handshake.Course
import Overlay.Proofs.Handshake.Dialogue
import Overlay.Proofs.Handshake.Race

/-!
# Scripts for traces

Every run of a party on a wire follows a trace (`Task.recorded_runFor`). Here is the other
direction: every trace is what happens on some wire. The script is written from the last event to
the first, one item for each read and each write. A wire has just one flush, so all flushes of a
trace must come to the same result; they do, because a party flushes only once.

A dialogue lets two parties take their steps without any task. `Dialogue.Run.tasks` says that
nothing is lost by this: what happened at a side that came to its end is what happens in
`request`, or in a responder on its own, on the wire of that script.
-/

namespace Overlay.Handshake

variable {σ ω : Type}

/-- All flushes came to the same result. -/
def FlushesTo (f : Except Failure Unit) (events : List Event) : Prop :=
  ∀ result, .flushed result ∈ events → result = f

/-- **A script for one answer**: an item in front of whatever script is left. -/
theorem Answered.exists_course {party : Party σ ω} {s q : σ} {e : Event} {f : Except Failure Unit}
    {wire' : Wire} (h : Answered (party.step s) e q) (hf : FlushesTo f [e])
    (hflush : wire'.flush = .after 0 f) :
    ∃ wire : Wire, wire.flush = .after 0 f ∧ party.Course s wire [e] q wire' := by
  generalize hstep : party.step s = step at h
  cases h with
  | @read room next result hroom =>
    cases result with
    | error kind =>
      exact ⟨{ wire' with reads := .fail kind :: wire'.reads }, hflush,
        .read hstep rfl (.refl _ _)⟩
    | ok bytes =>
      have hread : Wire.readFrom room (.data bytes :: wire'.reads) =
          .after 0 (.ok bytes, wire'.reads) := by
        rw [Wire.readFrom, if_pos (hroom bytes rfl)]
      exact ⟨{ wire' with reads := .data bytes :: wire'.reads }, hflush,
        .read hstep hread (.refl _ _)⟩
  | pause => exact ⟨wire', hflush, .pause hstep (.refl _ _)⟩
  | @write bytes next result hcount =>
    cases result with
    | error kind =>
      exact ⟨{ wire' with writes := .fail kind :: wire'.writes }, hflush,
        .write hstep rfl (.refl _ _)⟩
    | ok count =>
      have hwrite : Wire.writeTo bytes.length (.accept count :: wire'.writes) =
          .after 0 (.ok count, wire'.writes) := by
        rw [Wire.writeTo, Nat.min_eq_left (hcount count rfl)]
      exact ⟨{ wire' with writes := .accept count :: wire'.writes }, hflush,
        .write hstep hwrite (.refl _ _)⟩
  | @flush next result =>
    have hresult : result = f := hf result List.mem_cons_self
    exact ⟨wire', hflush, .flush hstep (hresult ▸ hflush) (.refl _ _)⟩

/-- **Every trace has a script.** -/
theorem Party.Trace.exists_course {party : Party σ ω} {events : List Event} {s : σ}
    {f : Except Failure Unit} {wire' : Wire} (h : party.Trace events s) (hf : FlushesTo f events)
    (hflush : wire'.flush = .after 0 f) :
    ∃ wire : Wire, party.Course party.start wire events s wire' := by
  induction h generalizing wire' with
  | start => exact ⟨wire', .refl _ _⟩
  | answer _ hanswer ih =>
    -- the script of the earlier answers goes in front of that of the last one
    obtain ⟨wire, hflush, hlast⟩ := hanswer.exists_course
      (fun result hmem ↦ hf result (List.mem_append_right _ hmem)) hflush
    obtain ⟨wire, hcourse⟩ := ih (fun result hmem ↦ hf result (List.mem_append_left _ hmem)) hflush
    exact ⟨wire, hcourse.trans hlast⟩

/-! ### Both parties flush once -/

theorem FlushesTo.snoc {f : Except Failure Unit} {events : List Event} {e : Event}
    (h : FlushesTo f events) (he : e.isFlush = false) : FlushesTo f (events ++ [e]) := by
  intro result hmem
  rcases List.mem_append.1 hmem with hmem | hmem
  · exact h result hmem
  · rw [← List.mem_singleton.1 hmem] at he
    cases he

theorem FlushesTo.snoc_flushed {f : Except Failure Unit} {events : List Event}
    (h : FlushesTo f events) : FlushesTo f (events ++ [.flushed f]) := by
  intro result hmem
  rcases List.mem_append.1 hmem with hmem | hmem
  · exact h result hmem
  · cases List.mem_singleton.1 hmem
    rfl

namespace Initiator

/-- How often an initiator has flushed: not before it has written the request, and once after
that. -/
def Flushes : State → List Event → Prop
  | .requesting _, events | .flushing, events => ∀ f, FlushesTo f events
  | .awaiting _, events | .finished _, events => ∃ f, FlushesTo f events

theorem flushes_of_trace {events : List Event} {s : State} (h : party.Trace events s) :
    Flushes s events := by
  induction h with
  | start => exact fun f ↦ nofun
  | @answer events s q e _ hanswer ih =>
    have h : Transition s e q := transition_of_answered hanswer
    cases h with
    | wroteSome | wroteAll => exact fun f ↦ (ih f).snoc rfl
    | stalled | writeFailed => exact ⟨.ok (), (ih _).snoc rfl⟩
    | flushed | flushFailed => exact ⟨_, (ih _).snoc_flushed⟩
    | readFailed | more | accepted | rejected =>
      obtain ⟨f, hf⟩ := ih
      exact ⟨f, hf.snoc rfl⟩

theorem exists_flushesTo {events : List Event} {s : State} (h : party.Trace events s) :
    ∃ f, FlushesTo f events := by
  have hflushes := flushes_of_trace h
  cases s with
  | requesting | flushing => exact ⟨.ok (), hflushes _⟩
  | awaiting | finished => exact hflushes

end Initiator

namespace Responder

variable {config : Config}

/-- How often a responder has flushed: not before it ends. -/
def Flushes : State → List Event → Prop
  | .finished _, events => ∃ f, FlushesTo f events
  | .awaiting _ _, events | .backingOff _, events | .replying _, events | .flushing, events =>
    ∀ f, FlushesTo f events

theorem flushes_of_trace {events : List Event} {s : State}
    (h : (party config).Trace events s) : Flushes s events := by
  induction h with
  | start => exact fun f ↦ nofun
  | @answer events s q e _ hanswer ih =>
    have h : Transition config s e q := transition_of_answered hanswer
    cases h with
    | more | accepted | backedOff | rested | wroteSome | wroteAll =>
      exact fun f ↦ (ih f).snoc rfl
    | readFailed | rejected | gaveUp | stalled | writeFailed =>
      exact ⟨.ok (), (ih _).snoc rfl⟩
    | flushed | flushFailed => exact ⟨_, (ih _).snoc_flushed⟩

theorem exists_flushesTo {events : List Event} {s : State} (h : (party config).Trace events s) :
    ∃ f, FlushesTo f events := by
  have hflushes := flushes_of_trace h
  cases s with
  | finished => exact hflushes
  | awaiting | backingOff | replying | flushing => exact ⟨.ok (), hflushes _⟩

end Responder

/-! ### The tasks of a dialogue -/

/-- A side that came to its end has a script on which its task, without limits, does just the
same. -/
theorem Side.Recorded.exists_wire {party : Party σ ω} {Valid : σ → Prop} {side : Side σ ω} {v : ω}
    {f : Except Failure Unit} (hb : party.Bounded Valid) (hside : side.Recorded party)
    (hf : FlushesTo f side.events) (hended : side.outcome = some (.ok v)) :
    ∃ wire : Wire, ∀ now,
      (∃ time, ((Task.begin party wire now).run party .unlimited).ending =
        some (time, .ok v)) ∧
      ((Task.begin party wire now).run party .unlimited).history = side.events ++ [.closed] := by
  have hflush : (⟨[], [], .after 0 f⟩ : Wire).flush = .after 0 f := rfl
  obtain ⟨wire, hcourse⟩ := hside.trace.exists_course hf hflush
  exact ⟨wire, fun now ↦ Task.run_of_course hb hcourse (hside.done v hended)⟩

/-- **The sides of a dialogue are tasks**: a side that came to its end did what its task does on
some wire. -/
theorem Dialogue.Run.tasks {config : Config} {causes : List Cause} {d : Dialogue}
    (h : Run config causes d) :
    (∀ v, d.initiator.outcome = some (.ok v) → ∃ wire, ∀ start,
      (∃ time, (request none start wire).ending = some (time, .ok v)) ∧
      (request none start wire).history = d.initiator.events ++ [.closed]) ∧
    (∀ v, d.responder.outcome = some (.ok v) → ∃ wire, ∀ start,
      (∃ time, (answerAlone config start wire).ending = some (time, .ok v)) ∧
      (answerAlone config start wire).history = d.responder.events ++ [.closed]) := by
  have hsound := h.sound
  refine ⟨fun v hended ↦ ?_, fun v hended ↦ ?_⟩
  · obtain ⟨f, hf⟩ := Initiator.exists_flushesTo hsound.initiator.trace
    exact hsound.initiator.exists_wire Initiator.bounded hf hended
  · obtain ⟨f, hf⟩ := Responder.exists_flushesTo hsound.responder.trace
    exact hsound.responder.exists_wire (Responder.bounded config) hf hended

end Overlay.Handshake
