import Overlay.Proofs.Handshake.Trace

/-!
# The course of a party on a wire

Without limits the clock decides nothing. `Party.Course` is a run of a party on a wire that
knows no moments: from a state and a wire to a later state and what is left of the wire, with
the events in between. A course ends where the party is done, or where it is `Blocked` because
the wire never answers; `run_of_course` and `run_of_course_blocked` say that a task without
limits ends there too.

The courses of the responder over a token, over a reply and over any number of empty streams are
in `Overlay.Proofs.Handshake.Attempts`.
-/

namespace Overlay.Handshake

variable {σ ω : Type}

/-- `Course party s wire events q wire'`: in state `s` on `wire` the party gets to `q`, and
`wire'` is left. -/
inductive Party.Course (party : Party σ ω) : σ → Wire → List Event → σ → Wire → Prop where
  | refl (s : σ) (wire : Wire) : Course party s wire [] s wire
  | read {s q : σ} {wire wire' : Wire} {events : List Event} {room delay : Nat}
      {next : Except Failure (List UInt8) → σ} {result : Except Failure (List UInt8)}
      {left : List Reading} (hstep : party.step s = .read room next)
      (hread : Wire.readFrom room wire.reads = .after delay (result, left))
      (h : Course party (next result) { wire with reads := left } events q wire') :
      Course party s wire (.read room result :: events) q wire'
  | pause {s next q : σ} {wire wire' : Wire} {events : List Event} {delay : Nat}
      (hstep : party.step s = .pause delay next) (h : Course party next wire events q wire') :
      Course party s wire (.rested :: events) q wire'
  | write {s q : σ} {wire wire' : Wire} {events : List Event} {bytes : List UInt8} {delay : Nat}
      {next : Except Failure Nat → σ} {result : Except Failure Nat} {left : List Writing}
      (hstep : party.step s = .write bytes next)
      (hwrite : Wire.writeTo bytes.length wire.writes = .after delay (result, left))
      (h : Course party (next result) { wire with writes := left } events q wire') :
      Course party s wire (.wrote (Task.taken bytes result) :: events) q wire'
  | flush {s q : σ} {wire wire' : Wire} {events : List Event} {delay : Nat}
      {next : Except Failure Unit → σ} {result : Except Failure Unit}
      (hstep : party.step s = .flush next) (hflush : wire.flush = .after delay result)
      (h : Course party (next result) wire events q wire') :
      Course party s wire (.flushed result :: events) q wire'

/-- The wire never answers what the party asks for. -/
def Party.Blocked (party : Party σ ω) (s : σ) (wire : Wire) : Prop :=
  match party.step s with
  | .read room _ => Wire.readFrom room wire.reads = .never
  | .write bytes _ => Wire.writeTo bytes.length wire.writes = .never
  | .flush _ => wire.flush = .never
  | .pause _ _ | .done _ => False

namespace Party.Course

variable {party : Party σ ω}

theorem trans {s q r : σ} {wire wire' wire'' : Wire} {events more : List Event}
    (h : party.Course s wire events q wire') (h' : party.Course q wire' more r wire'') :
    party.Course s wire (events ++ more) r wire'' := by
  induction h with
  | refl => exact h'
  | read hstep hread _ ih => exact .read hstep hread (ih h')
  | pause hstep _ ih => exact .pause hstep (ih h')
  | write hstep hwrite _ ih => exact .write hstep hwrite (ih h')
  | flush hstep hflush _ ih => exact .flush hstep hflush (ih h')

/-- A course goes on with the trace that led to its first state. -/
theorem trace {s q : σ} {wire wire' : Wire} {events : List Event}
    (h : party.Course s wire events q wire') {before : List Event}
    (hbefore : party.Trace before s) : party.Trace (before ++ events) q := by
  induction h generalizing before with
  | refl =>
    rw [List.append_nil]
    exact hbefore
  | @read s q wire wire' events room delay next result left hstep hread _ ih =>
    have hanswer : Answered (party.step s) (.read room result) (next result) := by
      rw [hstep]
      exact .read fun bytes hbytes ↦ Wire.length_le_of_readFrom (hbytes ▸ hread)
    have htrace := ih (hbefore.answer hanswer)
    rwa [List.append_assoc] at htrace
  | @pause s next q wire wire' events delay hstep _ ih =>
    have hanswer : Answered (party.step s) .rested next := by
      rw [hstep]
      exact .pause
    have htrace := ih (hbefore.answer hanswer)
    rwa [List.append_assoc] at htrace
  | @write s q wire wire' events bytes delay next result left hstep hwrite _ ih =>
    have hanswer : Answered (party.step s) (.wrote (Task.taken bytes result)) (next result) := by
      rw [hstep]
      exact .write fun count hcount ↦ Wire.le_of_writeTo (hcount ▸ hwrite)
    have htrace := ih (hbefore.answer hanswer)
    rwa [List.append_assoc] at htrace
  | @flush s q wire wire' events delay next result hstep hflush _ ih =>
    have hanswer : Answered (party.step s) (.flushed result) (next result) := by
      rw [hstep]
      exact .flush
    have htrace := ih (hbefore.answer hanswer)
    rwa [List.append_assoc] at htrace

end Party.Course

namespace Task

variable {party : Party σ ω} {Valid : σ → Prop}

/-- What a task without limits does next, by what its party asks for. -/
theorem next?_unlimited {t : Task σ ω} (hending : t.ending = none) :
    t.next? party .unlimited =
      match party.step t.state with
      | .done outcome => some (t.now, t.finish t.now (.ok outcome))
      | .pause delay next => t.receive .unlimited delay .rested next t.wire
      | .read room next =>
        match Wire.readFrom room t.wire.reads with
        | .never => none
        | .after delay (result, reads) =>
          t.receive .unlimited delay (.read room result) (next result) { t.wire with reads }
      | .write bytes next =>
        match Wire.writeTo bytes.length t.wire.writes with
        | .never => none
        | .after delay (result, writes) =>
          t.receive .unlimited delay (.wrote (taken bytes result)) (next result)
            { t.wire with writes }
      | .flush next =>
        match t.wire.flush with
        | .never => none
        | .after delay result =>
          t.receive .unlimited delay (.flushed result) (next result) t.wire := by
  rw [next?, hending]
  rfl

/-- Without limits a task gets to the state `q`, with `wire` left, as `events` happen. -/
def Gets (party : Party σ ω) (t : Task σ ω) (events : List Event) (q : σ) (wire : Wire) : Prop :=
  ∃ u, t.runFor party .unlimited events.length = u ∧ u.state = q ∧ u.wire = wire ∧
    u.ending = none ∧ u.history = t.history ++ events

theorem Gets.cons {t : Task σ ω} {s q : σ} {wire wire' : Wire} {events : List Event}
    {delay : Nat} {e : Event} (hending : t.ending = none)
    (hnext : t.next? party .unlimited = t.receive .unlimited delay e s wire)
    (h : ∀ {t : Task σ ω}, t.state = s → t.wire = wire → t.ending = none →
      t.Gets party events q wire') :
    t.Gets party (e :: events) q wire' := by
  rw [receive_unlimited] at hnext
  obtain ⟨u, hu, hstate, hwire, hended, hhistory⟩ := h (t := { t with
    state := s, wire, now := t.now + delay, log := (t.now + delay, e) :: t.log }) rfl rfl hending
  refine ⟨u, ?_, hstate, hwire, hended, ?_⟩
  · rw [List.length_cons, runFor_succ_of_some hnext, hu]
  · rw [hhistory, history_cons rfl, List.append_assoc]
    rfl

/-- **A task without limits follows the course of its party.** -/
theorem gets_of_course {s q : σ} {wire wire' : Wire} {events : List Event}
    (h : party.Course s wire events q wire') :
    ∀ {t : Task σ ω}, t.state = s → t.wire = wire → t.ending = none →
      t.Gets party events q wire' := by
  induction h with
  | refl s wire =>
    intro t hs hwire hending
    exact ⟨t, rfl, hs, hwire, hending, (List.append_nil _).symm⟩
  | read hstep hread _ ih =>
    rintro t rfl rfl hending
    have hnext : t.next? party .unlimited = _ := next?_unlimited hending
    rw [hstep] at hnext
    simp only [hread] at hnext
    exact .cons hending hnext ih
  | pause hstep _ ih =>
    rintro t rfl rfl hending
    have hnext : t.next? party .unlimited = _ := next?_unlimited hending
    rw [hstep] at hnext
    exact .cons hending hnext ih
  | write hstep hwrite _ ih =>
    rintro t rfl rfl hending
    have hnext : t.next? party .unlimited = _ := next?_unlimited hending
    rw [hstep] at hnext
    simp only [hwrite] at hnext
    exact .cons hending hnext ih
  | flush hstep hflush _ ih =>
    rintro t rfl rfl hending
    have hnext : t.next? party .unlimited = _ := next?_unlimited hending
    rw [hstep] at hnext
    simp only [hflush] at hnext
    exact .cons hending hnext ih

/-- Where nothing happens any more, the run is over. -/
theorem run_eq_of_next? (hb : party.Bounded Valid) {wire : Wire} {now n : Nat}
    {limits : Limits} {u : Task σ ω} (hu : (begin party wire now).runFor party limits n = u)
    (hquiet : u.next? party limits = none) : (begin party wire now).run party limits = u := by
  have hrun : ((begin party wire now).run party limits).next? party limits = none :=
    next?_run hb wire now
  calc (begin party wire now).run party limits
      = ((begin party wire now).run party limits).runFor party limits n :=
        (runFor_of_none hrun n).symm
    _ = ((begin party wire now).runFor party limits n).runFor party limits
          ((begin party wire now).budget party) := by
        rw [run, ← runFor_add, Nat.add_comm, runFor_add]
    _ = u := by rw [hu, runFor_of_none hquiet]

/-- A course that reaches an outcome ends the task without limits, on what is left of the wire. -/
theorem run_eq_finish_of_course (hb : party.Bounded Valid) {wire wire' : Wire} (now : Nat)
    {events : List Event} {q : σ} {v : ω} (h : party.Course party.start wire events q wire')
    (hdone : party.step q = .done v) :
    ∃ u : Task σ ω, (begin party wire now).run party .unlimited = u.finish u.now (.ok v) ∧
      u.wire = wire' ∧ u.history = events := by
  obtain ⟨u, hu, rfl, hwire, hending, hhistory⟩ :=
    gets_of_course h (t := begin party wire now) rfl rfl rfl
  have hnext : u.next? party .unlimited = some (u.now, u.finish u.now (.ok v)) := by
    rw [next?_unlimited hending, hdone]
  have hend : (begin party wire now).runFor party .unlimited (events.length + 1) =
      u.finish u.now (.ok v) := by
    rw [runFor_add, hu, runFor_succ_of_some hnext]
    rfl
  exact ⟨u, run_eq_of_next? hb hend (next?_finish _ _ _), hwire, hhistory⟩

/-- **A course that reaches an outcome** is the run of the task without limits. -/
theorem run_of_course (hb : party.Bounded Valid) {wire wire' : Wire} {now : Nat}
    {events : List Event} {q : σ} {v : ω} (h : party.Course party.start wire events q wire')
    (hdone : party.step q = .done v) :
    (∃ time, ((begin party wire now).run party .unlimited).ending = some (time, .ok v)) ∧
      ((begin party wire now).run party .unlimited).history = events ++ [.closed] := by
  obtain ⟨u, hrun, -, hhistory⟩ := run_eq_finish_of_course hb now h hdone
  rw [hrun]
  refine ⟨⟨u.now, rfl⟩, ?_⟩
  rw [show (u.finish u.now (.ok v)).history = u.history ++ [.closed] from history_cons rfl,
    hhistory]

/-- **A course that is blocked** is the run of the task without limits, which waits forever. -/
theorem run_of_course_blocked (hb : party.Bounded Valid) {wire wire' : Wire} {now : Nat}
    {events : List Event} {q : σ} (h : party.Course party.start wire events q wire')
    (hblocked : party.Blocked q wire') :
    ((begin party wire now).run party .unlimited).ending = none ∧
      ((begin party wire now).run party .unlimited).history = events := by
  obtain ⟨u, hu, rfl, rfl, hending, hhistory⟩ :=
    gets_of_course h (t := begin party wire now) rfl rfl rfl
  have hquiet : u.next? party .unlimited = none := by
    rw [next?_unlimited hending]
    rw [Party.Blocked] at hblocked
    split at hblocked <;> simp_all only
  rw [run_eq_of_next? hb hu hquiet]
  exact ⟨hending, hhistory⟩

end Task

end Overlay.Handshake
