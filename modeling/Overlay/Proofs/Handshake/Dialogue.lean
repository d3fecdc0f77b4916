import Overlay.Proofs.Handshake.Account

/-!
# Two parties on one stream

A dialogue is an initiator and a responder at the two ends of a stream. The stream is two
channels of bytes, one in each direction. The parties are the machines that tasks run, and the
order in which they take their steps is free.

What is fixed is what the stream may bring a party, and `Carries` lists it: a read finds some of
the bytes on their way, or the end of the stream when none are left and the other side has
closed it. A write puts what it takes on its way. Anything may fail, and either side may be
cut off. The one thing a stream may get wrong without failing is the end that a responder finds
before the first byte.

## What every run keeps

The sides are recorded: a trace of the party is behind what happened at each end
(`Side.Recorded`). The channels neither lose nor invent a byte nor change their order
(`Dialogue.InOrder`): what one side sent is what the other has received and what is on its way.
Runs are bounded (`Dialogue.Run.length_le`), because each step is an answer to a party or the end of
a side.
-/

namespace Overlay.Handshake

variable {σ ω : Type}

/-- What brings about a step of a dialogue. -/
inductive Cause where
  | regular
  /-- A read finds the end of a stream that has not ended. -/
  | spuriousEnd
  /-- The stream fails, or a side is cut off by a deadline or a cancellation. -/
  | fault
deriving DecidableEq, Repr

/-- A failure of the stream. A write that takes nothing is one as well. -/
def Event.Failed : Event → Prop
  | .read _ (.error _) | .wrote (.error _) | .flushed (.error _) | .wrote (.ok []) => True
  | _ => False

/-- One end of a stream, and the party there. -/
structure Side (σ ω : Type) where
  state : σ
  /-- What happened at this end so far, the first thing first. -/
  events : List Event
  /-- How this side ended. It closes its end then. -/
  outcome : Option (Except Interrupted ω)
deriving DecidableEq

/-- `Carries closed early inbox cause e inbox' out`: the stream brings a side the event `e`, where
`inbox` is on its way to that side, `closed` says whether the other side has closed the stream
and `early` whether no byte has arrived yet. Afterwards `inbox'` is on its way to it, and `out`
is on its way from it. -/
inductive Carries (closed early : Prop) :
    List UInt8 → Cause → Event → List UInt8 → List UInt8 → Prop where
  | bytes {room : Nat} {chunk rest : List UInt8} (hchunk : chunk ≠ []) :
      Carries closed early (chunk ++ rest) .regular (.read room (.ok chunk)) rest []
  | ended {room : Nat} (hclosed : closed) :
      Carries closed early [] .regular (.read room (.ok [])) [] []
  | spuriousEnd {room : Nat} {inbox : List UInt8} (hearly : early) :
      Carries closed early inbox .spuriousEnd (.read room (.ok [])) inbox []
  | rested {inbox : List UInt8} : Carries closed early inbox .regular .rested inbox []
  | wrote {inbox taken : List UInt8} (htaken : taken ≠ []) :
      Carries closed early inbox .regular (.wrote (.ok taken)) inbox taken
  | flushed {inbox : List UInt8} : Carries closed early inbox .regular (.flushed (.ok ())) inbox []
  | failed {inbox : List UInt8} {e : Event} (hfailed : e.Failed) :
      Carries closed early inbox .fault e inbox []

theorem Carries.found {closed early : Prop} {inbox inbox' out : List UInt8} {cause : Cause}
    {e : Event} (h : Carries closed early inbox cause e inbox' out) :
    inbox = e.found ++ inbox' := by
  cases h with
  | failed hfailed =>
    rcases e with ⟨room, kind | bytes⟩ | - | ⟨kind | bytes⟩ | result | -
    · rfl
    · cases hfailed
    all_goals rfl
  | bytes | ended | spuriousEnd | rested | wrote | flushed => rfl

theorem Carries.written {closed early : Prop} {inbox inbox' out : List UInt8} {cause : Cause}
    {e : Event} (h : Carries closed early inbox cause e inbox' out) : e.written = out := by
  cases h with
  | failed hfailed =>
    rcases e with ⟨room, result⟩ | - | ⟨kind | ⟨- | ⟨b, bytes⟩⟩⟩ | result | -
    · rfl
    · rfl
    · rfl
    · rfl
    · cases hfailed
    all_goals rfl
  | bytes | ended | spuriousEnd | rested | wrote | flushed => rfl

namespace Side

/-- A side before anything happens. -/
def begin (party : Party σ ω) : Side σ ω := ⟨party.start, [], none⟩

/-- The side after an answer to its party. -/
def hear (side : Side σ ω) (e : Event) (q : σ) : Side σ ω :=
  { side with state := q, events := side.events ++ [e] }

/-- The side after its end. -/
def finish (side : Side σ ω) (outcome : Except Interrupted ω) : Side σ ω :=
  { side with outcome := some outcome }

/-- `Move party closed inbox side cause side' inbox' out`: a side that has not ended goes on. An
answer reaches its party, as the stream brings it; its party is done; or the side is cut off. -/
inductive Move (party : Party σ ω) (closed : Prop) (inbox : List UInt8) (side : Side σ ω) :
    Cause → Side σ ω → List UInt8 → List UInt8 → Prop where
  | answer {cause : Cause} {e : Event} {q : σ} {inbox' out : List UInt8}
      (hanswer : Answered (party.step side.state) e q)
      (hcarries : Carries closed (received side.events = []) inbox cause e inbox' out) :
      Move party closed inbox side cause (side.hear e q) inbox' out
  | done {v : ω} (hstep : party.step side.state = .done v) :
      Move party closed inbox side .regular (side.finish (.ok v)) inbox []
  | cut (why : Interrupted) :
      Move party closed inbox side .fault (side.finish (.error why)) inbox []

/-- A trace of the party is behind a side, and the side has an outcome of the party only when the
party is done. -/
structure Recorded (party : Party σ ω) (side : Side σ ω) : Prop where
  trace : party.Trace side.events side.state
  done : ∀ v, side.outcome = some (.ok v) → party.step side.state = .done v

/-- How many things happened at a side, its end among them. -/
def age (side : Side σ ω) : Nat := side.events.length + if side.outcome.isSome then 1 else 0

section Moves

variable {party : Party σ ω} {closed : Prop} {side side' : Side σ ω} {cause : Cause}
  {inbox inbox' out : List UInt8}

theorem recorded_begin (party : Party σ ω) : (begin party).Recorded party where
  trace := .start
  done := nofun

theorem Move.recorded (hopen : side.outcome = none)
    (h : side.Move party closed inbox cause side' inbox' out) (hside : side.Recorded party) :
    side'.Recorded party := by
  cases h with
  | answer hanswer _ =>
    exact ⟨hside.trace.answer hanswer, fun v hv ↦ by rw [hear, hopen] at hv; cases hv⟩
  | done hstep => exact ⟨hside.trace, fun v hv ↦ by cases hv; exact hstep⟩
  | cut why => exact ⟨hside.trace, fun v hv ↦ by cases hv⟩

/-- What was received and what is on its way are the same as before. -/
theorem Move.received (h : side.Move party closed inbox cause side' inbox' out) :
    received side'.events ++ inbox' = received side.events ++ inbox := by
  cases h with
  | answer _ hcarries =>
    rw [hear, received_append, received_singleton, hcarries.found, List.append_assoc]
  | done _ => rfl
  | cut _ => rfl

theorem Move.sent (h : side.Move party closed inbox cause side' inbox' out) :
    sent side'.events = sent side.events ++ out := by
  cases h with
  | answer _ hcarries => rw [hear, sent_append, sent_singleton, hcarries.written]
  | done _ => exact (List.append_nil _).symm
  | cut _ => exact (List.append_nil _).symm

theorem Move.age (hopen : side.outcome = none)
    (h : side.Move party closed inbox cause side' inbox' out) : side'.age = side.age + 1 := by
  cases h with
  | answer _ _ => simp [Side.age, hear, hopen]
  | done _ => simp [Side.age, finish, hopen]
  | cut _ => simp [Side.age, finish, hopen]

/-- A side gets no older than the bound of its party allows. -/
theorem Recorded.age_le {Valid : σ → Prop} (hb : party.Bounded Valid)
    (hside : side.Recorded party) : side.age ≤ party.remaining party.start + 1 := by
  have hle := hb.length_add_remaining_le hside.trace
  rw [Side.age]
  split <;> omega

end Moves

end Side

/-- An initiator and a responder on one stream. -/
structure Dialogue where
  initiator : Side Initiator.State Initiator.Verdict
  responder : Side Responder.State Verdict
  /-- The bytes on their way to the responder. -/
  toResponder : List UInt8
  /-- The bytes on their way to the initiator. -/
  toInitiator : List UInt8
deriving DecidableEq

namespace Dialogue

variable {config : Config}

/-- A dialogue before its first step. -/
def begin (config : Config) : Dialogue :=
  ⟨.begin Initiator.party, .begin (Responder.party config), [], []⟩

/-- One side goes on. Only a responder finds an end too early. -/
inductive Step (config : Config) (d : Dialogue) : Cause → Dialogue → Prop where
  | initiator {cause : Cause} {side : Side Initiator.State Initiator.Verdict}
      {inbox out : List UInt8} (hopen : d.initiator.outcome = none) (hcause : cause ≠ .spuriousEnd)
      (hmove : d.initiator.Move Initiator.party (d.responder.outcome ≠ none) d.toInitiator cause
        side inbox out) :
      Step config d cause
        { d with initiator := side, toInitiator := inbox, toResponder := d.toResponder ++ out }
  | responder {cause : Cause} {side : Side Responder.State Verdict} {inbox out : List UInt8}
      (hopen : d.responder.outcome = none)
      (hmove : d.responder.Move (Responder.party config) (d.initiator.outcome ≠ none)
        d.toResponder cause side inbox out) :
      Step config d cause
        { d with responder := side, toResponder := inbox, toInitiator := d.toInitiator ++ out }

/-- The dialogues that are reached from the beginning, and the causes of the steps. -/
inductive Run (config : Config) : List Cause → Dialogue → Prop where
  | start : Run config [] (begin config)
  | step {causes : List Cause} {d d' : Dialogue} {cause : Cause} :
      Run config causes d → Step config d cause d' → Run config (causes ++ [cause]) d'

/-- What one side sent is what the other has received and what is on its way to it. -/
structure InOrder (d : Dialogue) : Prop where
  toResponder : sent d.initiator.events = received d.responder.events ++ d.toResponder
  toInitiator : sent d.responder.events = received d.initiator.events ++ d.toInitiator

/-- What holds of every dialogue that is reached. -/
structure Sound (config : Config) (d : Dialogue) : Prop where
  initiator : d.initiator.Recorded Initiator.party
  responder : d.responder.Recorded (Responder.party config)
  inOrder : d.InOrder

theorem InOrder.step {d d' : Dialogue} {cause : Cause} (hd : d.InOrder)
    (h : d.Step config cause d') : d'.InOrder := by
  cases h with
  | initiator _ _ hmove =>
    refine ⟨?_, ?_⟩
    · rw [hmove.sent, hd.toResponder, List.append_assoc]
    · rw [hmove.received, hd.toInitiator]
  | responder _ hmove =>
    refine ⟨?_, ?_⟩
    · rw [hmove.received, hd.toResponder]
    · rw [hmove.sent, hd.toInitiator, List.append_assoc]

theorem sound_begin (config : Config) : (begin config).Sound config where
  initiator := Side.recorded_begin _
  responder := Side.recorded_begin _
  inOrder := ⟨rfl, rfl⟩

theorem Sound.step {d d' : Dialogue} {cause : Cause} (hd : d.Sound config)
    (h : d.Step config cause d') : d'.Sound config := by
  have hinOrder := hd.inOrder.step h
  cases h with
  | initiator hopen _ hmove => exact ⟨hmove.recorded hopen hd.initiator, hd.responder, hinOrder⟩
  | responder hopen hmove => exact ⟨hd.initiator, hmove.recorded hopen hd.responder, hinOrder⟩

/-- **Every dialogue that is reached is sound**, whatever the order of the steps and whatever
fails. -/
theorem Run.sound {causes : List Cause} {d : Dialogue} (h : Run config causes d) :
    d.Sound config := by
  induction h with
  | start => exact sound_begin config
  | step _ hstep ih => exact ih.step hstep

/-- Every step makes one of the sides older. -/
theorem Run.length_eq {causes : List Cause} {d : Dialogue} (h : Run config causes d) :
    causes.length = d.initiator.age + d.responder.age := by
  induction h with
  | start => rfl
  | step _ hstep ih =>
    rw [List.length_append, List.length_singleton, ih]
    cases hstep with
    | initiator hopen _ hmove => rw [hmove.age hopen, Nat.add_right_comm]
    | responder hopen hmove => rw [hmove.age hopen, Nat.add_assoc]

/-- **Dialogues end**: no run has more steps than the parties need answers and ends. -/
theorem Run.length_le {causes : List Cause} {d : Dialogue} (h : Run config causes d) :
    causes.length ≤ Initiator.party.remaining Initiator.party.start +
      (Responder.party config).remaining (Responder.party config).start + 2 := by
  have hinitiator := h.sound.initiator.age_le Initiator.bounded
  have hresponder := h.sound.responder.age_le (Responder.bounded config)
  rw [h.length_eq]
  omega

end Dialogue

end Overlay.Handshake
