import Overlay.Handshake.Task

/-!
# Traces of a party

What a party does depends only on what it is told. `Answered` lists every answer that a step
can get, and `Party.Trace` the states to which a list of answers leads. Nothing here mentions
a script, a clock or limits, so an invariant that is proved along traces holds of every run:
of a task on a wire, cut off or not, and of two parties that talk to each other.

## Tasks

`Task.move_of_next?` says once what the next thing of a task can be: an answer, the end of the
party, or the end that the limits set. `Task.Recorded` relates a task to the trace behind
it, and `recorded_runFor` finds every task of a run recorded.

## Ends

`Party.Bounded` is what makes `Party.remaining` a bound, and `next?_run` rests on it: a run
comes to its end, so nothing happens after it. With a deadline that end is the end of the
task (`ending_run_isSome`), and without one the task may also wait forever.
-/

namespace Overlay.Handshake

variable {σ ω : Type}

/-- `Answered s e q`: the event `e` answers what the step `s` asks for, and the party goes on
in the state `q`. No read finds more than there is room for, and no write takes more than it
was offered. -/
inductive Answered : Step σ ω → Event → σ → Prop where
  | read {room : Nat} {next : Except Failure (List UInt8) → σ}
      {result : Except Failure (List UInt8)}
      (hroom : ∀ bytes, result = .ok bytes → bytes.length ≤ room) :
      Answered (.read room next) (.read room result) (next result)
  | pause {delay : Nat} {next : σ} : Answered (.pause delay next) .rested next
  | write {bytes : List UInt8} {next : Except Failure Nat → σ} {result : Except Failure Nat}
      (hcount : ∀ count, result = .ok count → count ≤ bytes.length) :
      Answered (.write bytes next) (.wrote (Task.taken bytes result)) (next result)
  | flush {next : Except Failure Unit → σ} {result : Except Failure Unit} :
      Answered (.flush next) (.flushed result) (next result)

theorem Answered.read_ok {room : Nat} {next : Except Failure (List UInt8) → σ} {bytes : List UInt8}
    (h : bytes.length ≤ room) :
    Answered (.read room next : Step σ ω) (.read room (.ok bytes)) (next (.ok bytes)) :=
  .read fun _ heq ↦ by cases heq; exact h

theorem Answered.write_ok {bytes : List UInt8} {next : Except Failure Nat → σ} {count : Nat}
    (h : count ≤ bytes.length) :
    Answered (.write bytes next : Step σ ω) (.wrote (.ok (bytes.take count)))
      (next (.ok count)) := by
  have hanswer : Answered (.write bytes next : Step σ ω)
      (.wrote (Task.taken bytes (.ok count))) (next (.ok count)) :=
    .write fun _ heq ↦ by cases heq; exact h
  exact hanswer

theorem Answered.ne_closed {s : Step σ ω} {e : Event} {q : σ} (h : Answered s e q) :
    e ≠ .closed := by
  cases h <;> nofun

/-- The states to which answers lead a party, the first answer first. -/
inductive Party.Trace (party : Party σ ω) : List Event → σ → Prop where
  | start : Trace party [] party.start
  | answer {events : List Event} {s q : σ} {e : Event} :
      Trace party events s → Answered (party.step s) e q → Trace party (events ++ [e]) q

/-- `Valid` holds of every state a party gets into, and every answer to a party in such a state
lowers the bound on the answers it still needs. -/
structure Party.Bounded (party : Party σ ω) (Valid : σ → Prop) : Prop where
  start : Valid party.start
  answer : ∀ {s : σ} {e : Event} {q : σ}, Valid s → Answered (party.step s) e q →
    Valid q ∧ party.remaining q < party.remaining s

namespace Party

variable {party : Party σ ω} {Valid : σ → Prop}

/-- No answer closes the stream. -/
theorem Trace.closed_not_mem {events : List Event} {s : σ} (h : party.Trace events s) :
    Event.closed ∉ events := by
  induction h with
  | start => exact List.not_mem_nil
  | answer _ hanswer ih =>
    simpa using ⟨ih, hanswer.ne_closed.symm⟩

/-- Every event of a trace answered the party in the state to which the events before it led. -/
theorem Trace.exists_answered {before after : List Event} {e : Event} {s : σ}
    (h : party.Trace (before ++ e :: after) s) :
    ∃ q r, party.Trace before q ∧ Answered (party.step q) e r := by
  generalize hevents : before ++ e :: after = events at h
  induction h generalizing after with
  | start => simp at hevents
  | @answer events q r last htrace hanswer ih =>
    rcases List.eq_nil_or_concat after with rfl | ⟨early, last', rfl⟩
    · obtain ⟨rfl, hlast⟩ := List.append_inj' hevents rfl
      cases hlast
      exact ⟨q, r, htrace, hanswer⟩
    · rw [List.concat_eq_append, ← List.cons_append, ← List.append_assoc] at hevents
      exact ih (List.append_inj' hevents rfl).1

theorem Bounded.valid_of_trace (hb : party.Bounded Valid) {events : List Event} {s : σ}
    (h : party.Trace events s) : Valid s := by
  induction h with
  | start => exact hb.start
  | answer _ hanswer ih => exact (hb.answer ih hanswer).1

/-- A party gets no more answers than its bound allows. -/
theorem Bounded.length_add_remaining_le (hb : party.Bounded Valid) {events : List Event} {s : σ}
    (h : party.Trace events s) :
    events.length + party.remaining s ≤ party.remaining party.start := by
  induction h with
  | start => simp
  | answer htrace hanswer ih =>
    have hlt := (hb.answer (hb.valid_of_trace htrace) hanswer).2
    rw [List.length_append, List.length_singleton]
    omega

end Party

/-! ### What a wire can answer -/

namespace Wire

theorem length_le_of_readFrom {room : Nat} {reads : List Reading} :
    ∀ {delay : Nat} {bytes : List UInt8} {left : List Reading},
      readFrom room reads = .after delay (.ok bytes, left) → bytes.length ≤ room := by
  induction reads with
  | nil =>
    intro delay bytes left h
    cases h
    exact Nat.zero_le room
  | cons reading rest ih =>
    intro delay bytes left h
    cases reading with
    | data chunk =>
      rw [readFrom] at h
      split at h
      · next hle => cases h; exact hle
      · cases h; exact List.length_take_le room chunk
    | eof => cases h; exact Nat.zero_le room
    | fail kind => cases h
    | wait wait =>
      rw [readFrom] at h
      rcases hrest : readFrom room rest with - | ⟨d, value⟩
      · rw [hrest] at h; cases h
      · rw [hrest] at h; cases h; exact ih hrest
    | pending => cases h

theorem le_of_writeTo {offered : Nat} {writes : List Writing} :
    ∀ {delay count : Nat} {left : List Writing},
      writeTo offered writes = .after delay (.ok count, left) → count ≤ offered := by
  induction writes with
  | nil => intro delay count left h; cases h; exact Nat.le_refl offered
  | cons writing rest ih =>
    intro delay count left h
    cases writing with
    | accept limit => cases h; exact Nat.min_le_right limit offered
    | fail kind => cases h
    | wait wait =>
      rw [writeTo] at h
      rcases hrest : writeTo offered rest with - | ⟨d, value⟩
      · rw [hrest] at h; cases h
      · rw [hrest] at h; cases h; exact ih hrest
    | pending => cases h

end Wire

namespace Task

variable {party : Party σ ω} {limits : Limits}

/-- What happened, without the moments. -/
def history (t : Task σ ω) : List Event := t.events.map Prod.snd

theorem history_cons {t t' : Task σ ω} {time : Nat} {e : Event}
    (h : t'.log = (time, e) :: t.log) : t'.history = t.history ++ [e] := by
  rw [history, events, h, List.reverse_cons, List.map_append]
  rfl

/-! ### The next thing that happens -/

/-- The ways in which a task goes on: an answer reaches the party, the party is done, or the
limits cut it off. -/
inductive Move (party : Party σ ω) (limits : Limits) (t : Task σ ω) : Nat → Task σ ω → Prop where
  | answer {time : Nat} {e : Event} {q : σ} {wire : Wire}
      (hanswer : Answered (party.step t.state) e q) (hnow : t.now ≤ time)
      (hallows : limits.allows time = true) :
      Move party limits t time
        { t with state := q, wire, now := time, log := (time, e) :: t.log }
  | done {outcome : ω} (hstep : party.step t.state = .done outcome)
      (hallows : limits.allows t.now = true) :
      Move party limits t t.now (t.finish t.now (.ok outcome))
  | cut {time : Nat} {why : Interrupted} (hcut : limits.cut? t.now = some (time, why)) :
      Move party limits t time (t.finish time (.error why))

theorem receive_unlimited (t : Task σ ω) (delay : Nat) (e : Event) (q : σ) (wire : Wire) :
    t.receive .unlimited delay e q wire = some (t.now + delay, { t with
      state := q, wire, now := t.now + delay, log := (t.now + delay, e) :: t.log }) := by
  rw [receive, if_pos (Limits.allows_unlimited _)]

theorem move_of_interrupt {t t' : Task σ ω} {time : Nat}
    (h : t.interrupt limits = some (time, t')) : t.Move party limits time t' := by
  obtain ⟨⟨time, why⟩, hcut, heq⟩ := Option.map_eq_some_iff.1 h
  cases heq
  exact .cut hcut

theorem move_of_receive {t t' : Task σ ω} {time delay : Nat} {e : Event} {q : σ} {wire : Wire}
    (hanswer : Answered (party.step t.state) e q)
    (h : t.receive limits delay e q wire = some (time, t')) : t.Move party limits time t' := by
  rw [receive] at h
  split at h
  · next hallows => cases h; exact .answer hanswer (Nat.le_add_right t.now delay) hallows
  · exact move_of_interrupt h

/-- **Inversion**: a task goes on only while it has not ended, and in one of the three ways. -/
theorem move_of_next? {t t' : Task σ ω} {time : Nat}
    (h : t.next? party limits = some (time, t')) :
    t.ending = none ∧ t.Move party limits time t' := by
  unfold next? at h
  split at h
  · cases h
  next hending =>
  refine ⟨by simpa using hending, ?_⟩
  split at h
  · next hallows =>
    -- what the party asks for decides which answers there can be
    split at h
    · next outcome hstep => cases h; exact .done hstep hallows
    · next delay next hstep => exact move_of_receive (hstep ▸ .pause) h
    · next room next hstep =>
      split at h
      · exact move_of_interrupt h
      · next delay result reads hread =>
        refine move_of_receive (hstep ▸ .read fun bytes hbytes ↦ ?_) h
        subst hbytes
        exact Wire.length_le_of_readFrom hread
    · next bytes next hstep =>
      split at h
      · exact move_of_interrupt h
      · next delay result writes hwrite =>
        refine move_of_receive (hstep ▸ .write fun count hcount ↦ ?_) h
        subst hcount
        exact Wire.le_of_writeTo hwrite
    · next next hstep =>
      split at h
      · exact move_of_interrupt h
      · next delay result hflush => exact move_of_receive (hstep ▸ .flush) h
  · exact move_of_interrupt h

/-- A task on which nothing happens has ended, or its limits never cut it off. -/
theorem cut?_eq_none_of_next? {t : Task σ ω} (h : t.next? party limits = none)
    (hending : t.ending = none) : limits.cut? t.now = none := by
  have hcut : t.interrupt limits = none → limits.cut? t.now = none := Option.map_eq_none_iff.1
  have hreceive : ∀ {delay : Nat} {e : Event} {q : σ} {wire : Wire},
      t.receive limits delay e q wire = none → limits.cut? t.now = none := by
    intro delay e q wire h
    rw [receive] at h
    split at h
    · cases h
    · exact hcut h
  unfold next? at h
  rw [hending] at h
  simp only [Option.isSome_none, Bool.false_eq_true, if_false] at h
  split at h
  · split at h
    · cases h
    · exact hreceive h
    · split at h
      · exact hcut h
      · exact hreceive h
    · split at h
      · exact hcut h
      · exact hreceive h
    · split at h
      · exact hcut h
      · exact hreceive h
  · exact hcut h

/-- A task at a moment that its limits forbid is cut off. -/
theorem next?_of_not_allows {t : Task σ ω} (hending : t.ending = none)
    (h : ¬ limits.allows t.now = true) : t.next? party limits = t.interrupt limits := by
  simp only [next?, hending, Option.isSome_none, Bool.false_eq_true, if_false, h]

/-- Nothing happens after the end. -/
theorem next?_finish (t : Task σ ω) (time : Nat) (outcome : Except Interrupted ω) :
    (t.finish time outcome).next? party limits = none := by
  rw [next?, if_pos (show (t.finish time outcome).ending.isSome from rfl)]

/-! ### Runs -/

theorem runFor_succ_of_some {t t' : Task σ ω} {time n : Nat}
    (h : t.next? party limits = some (time, t')) :
    t.runFor party limits (n + 1) = t'.runFor party limits n := by
  rw [runFor, h]

theorem runFor_of_none {t : Task σ ω} (h : t.next? party limits = none) :
    ∀ n, t.runFor party limits n = t
  | 0 => rfl
  | n + 1 => by rw [runFor, h]

theorem runFor_add {limits : Limits} (m n : Nat) (t : Task σ ω) :
    t.runFor party limits (m + n) = (t.runFor party limits m).runFor party limits n := by
  induction m generalizing t with
  | zero => rw [Nat.zero_add]; rfl
  | succ m ih =>
    rcases hnext : t.next? party limits with - | ⟨time, t'⟩
    · rw [runFor_of_none hnext, runFor_of_none hnext, runFor_of_none hnext]
    · rw [Nat.add_right_comm, runFor_succ_of_some hnext, runFor_succ_of_some hnext, ih]

/-- A task that its limits forbid to begin is closed at once. -/
theorem run_begin_of_not_allows {wire : Wire} {now time : Nat} {why : Interrupted}
    (h : ¬ limits.allows now = true) (hcut : limits.cut? now = some (time, why)) :
    (begin party wire now).run party limits = (begin party wire now).finish time (.error why) := by
  have hnext : (begin party wire now).next? party limits =
      some (time, (begin party wire now).finish time (.error why)) := by
    have hcut : limits.cut? (begin party wire now).now = some (time, why) := hcut
    rw [next?_of_not_allows rfl h, interrupt, hcut]
    rfl
  rw [run, budget, runFor_succ_of_some hnext, runFor_of_none (next?_finish _ _ _)]

/-- What holds of a task and survives everything that happens holds at the end of a run. -/
theorem runFor_induction {P : Task σ ω → Prop}
    (hmove : ∀ {t t' : Task σ ω} {time : Nat}, t.ending = none → t.Move party limits time t' →
      P t → P t') :
    ∀ (n : Nat) {t : Task σ ω}, P t → P (t.runFor party limits n)
  | 0, _, ht => ht
  | n + 1, t, ht => by
    rcases hnext : t.next? party limits with - | ⟨time, t'⟩
    · rw [runFor_of_none hnext]; exact ht
    · rw [runFor_succ_of_some hnext]
      obtain ⟨hending, h⟩ := move_of_next? hnext
      exact runFor_induction hmove n (hmove hending h ht)

/-- The log of a task records a trace of its party. When the task has ended, the closing of
the stream is the last thing in the log, and a task that ended with an outcome ended because
its party did. -/
inductive Recorded (party : Party σ ω) (t : Task σ ω) : Prop where
  | working (hending : t.ending = none) (htrace : party.Trace t.history t.state)
  | ended {time : Nat} {outcome : Except Interrupted ω} {before : List (Nat × Event)}
      (hending : t.ending = some (time, outcome))
      (hevents : t.events = before ++ [(time, .closed)])
      (htrace : party.Trace (before.map Prod.snd) t.state)
      (hdone : ∀ v, outcome = .ok v → party.step t.state = .done v)

theorem Recorded.exists_trace {t : Task σ ω} (ht : t.Recorded party) :
    ∃ events, party.Trace events t.state := by
  cases ht with
  | working _ htrace => exact ⟨_, htrace⟩
  | ended _ _ htrace _ => exact ⟨_, htrace⟩

/-- Up to the closing of the stream, the history of a task is a trace. -/
theorem Recorded.trace_history {t : Task σ ω} (ht : t.Recorded party) :
    ∃ events, party.Trace events t.state ∧
      (t.history = events ∨ t.history = events ++ [.closed]) := by
  cases ht with
  | working _ htrace => exact ⟨_, htrace, .inl rfl⟩
  | ended _ hevents htrace _ =>
    refine ⟨_, htrace, .inr ?_⟩
    rw [history, hevents, List.map_append]
    rfl

/-- Nothing that is traced closes the stream. -/
theorem closes_eq_nil_of_trace {events : List (Nat × Event)} {s : σ}
    (h : party.Trace (events.map Prod.snd) s) : (Report.ofEvents events).closes = [] := by
  refine List.filterMap_eq_nil_iff.2 fun e he ↦ if_neg fun hclosed ↦ ?_
  exact h.closed_not_mem (hclosed ▸ List.mem_map_of_mem he)

/-- **A task that has ended has closed its stream once**, when it ended. -/
theorem Recorded.closes_eq {t : Task σ ω} (ht : t.Recorded party) {time : Nat}
    {outcome : Except Interrupted ω} (h : t.ending = some (time, outcome)) :
    (Report.ofEvents t.events).closes = [time] := by
  cases ht with
  | working hending _ => rw [hending] at h; cases h
  | @ended _ _ before hending hevents htrace _ =>
    cases hending.symm.trans h
    have hopen : (before.filterMap fun e ↦ if e.2 = .closed then some e.1 else none) = [] :=
      closes_eq_nil_of_trace htrace
    rw [hevents]
    show List.filterMap _ _ = _
    rw [List.filterMap_append, hopen]
    rfl

/-- A task that has not ended has not closed its stream. -/
theorem Recorded.closes_eq_nil {t : Task σ ω} (ht : t.Recorded party) (h : t.ending = none) :
    (Report.ofEvents t.events).closes = [] := by
  cases ht with
  | working _ htrace => exact closes_eq_nil_of_trace htrace
  | ended hending _ _ _ => rw [hending] at h; cases h

theorem recorded_begin (party : Party σ ω) (wire : Wire) (now : Nat) :
    (begin party wire now).Recorded party :=
  .working rfl .start

theorem Recorded.move {t t' : Task σ ω} {time : Nat} (hending : t.ending = none)
    (h : t.Move party limits time t') (ht : t.Recorded party) : t'.Recorded party := by
  have htrace : party.Trace t.history t.state := by
    cases ht with
    | working _ htrace => exact htrace
    | ended hended => rw [hending] at hended; cases hended
  cases h with
  | answer hanswer _ _ =>
    refine .working hending ?_
    have h := Party.Trace.answer htrace hanswer
    simpa [history, events] using h
  | done hstep _ =>
    exact .ended rfl (by simp [finish, events]) htrace fun v hv ↦ by cases hv; exact hstep
  | cut _ => exact .ended rfl (by simp [finish, events]) htrace nofun

/-- **Every task of a run is recorded**, whatever its wire and its limits. -/
theorem recorded_runFor (party : Party σ ω) (limits : Limits) (wire : Wire) (now n : Nat) :
    ((begin party wire now).runFor party limits n).Recorded party :=
  runFor_induction (P := Recorded party) (fun hending h ht ↦ ht.move hending h) n
    (recorded_begin party wire now)

/-! ### Ends of runs -/

variable {Valid : σ → Prop}

/-- How many more things can happen to a task, of which nothing is left at its end. -/
def left (party : Party σ ω) (t : Task σ ω) : Nat :=
  if t.ending.isSome then 0 else t.budget party

theorem left_le_budget (party : Party σ ω) (t : Task σ ω) : t.left party ≤ t.budget party := by
  rw [left]
  split
  · exact Nat.zero_le _
  · exact Nat.le_refl _

/-- Whatever happens to a task uses up something. -/
theorem left_lt_of_next? (hb : party.Bounded Valid) {t t' : Task σ ω} {time : Nat}
    (ht : Valid t.state) (h : t.next? party limits = some (time, t')) :
    Valid t'.state ∧ t'.left party < t.left party := by
  obtain ⟨hending, hmove⟩ := move_of_next? h
  have hleft : t.left party = party.remaining t.state + 1 := by
    rw [left, hending]
    rfl
  rw [hleft]
  cases hmove with
  | answer hanswer _ _ =>
    obtain ⟨hvalid, hlt⟩ := hb.answer ht hanswer
    exact ⟨hvalid, Nat.lt_of_le_of_lt (left_le_budget party _) (Nat.succ_lt_succ hlt)⟩
  | done _ _ => exact ⟨ht, Nat.succ_pos _⟩
  | cut _ => exact ⟨ht, Nat.succ_pos _⟩

/-- **A run comes to its end**: nothing happens after it. -/
theorem next?_runFor (hb : party.Bounded Valid) :
    ∀ {n : Nat} {t : Task σ ω}, Valid t.state → t.left party ≤ n →
      (t.runFor party limits n).next? party limits = none
  | n, t, ht, hn => by
    rcases hnext : t.next? party limits with - | ⟨time, t'⟩
    · rw [runFor_of_none hnext]; exact hnext
    · obtain ⟨hvalid, hlt⟩ := left_lt_of_next? hb ht hnext
      cases n with
      | zero => omega
      | succ n =>
        rw [runFor_succ_of_some hnext]
        exact next?_runFor hb hvalid (by omega)

theorem next?_run (hb : party.Bounded Valid) (wire : Wire) (now : Nat) :
    ((begin party wire now).run party limits).next? party limits = none :=
  next?_runFor hb hb.start (left_le_budget party _)

/-- **A task with a deadline ends.** -/
theorem ending_run_isSome (hb : party.Bounded Valid) (wire : Wire) (now : Nat)
    (hcut : ∀ time, (limits.cut? time).isSome) :
    ((begin party wire now).run party limits).ending.isSome := by
  rcases hending : ((begin party wire now).run party limits).ending with - | ending
  · have hnone := cut?_eq_none_of_next? (next?_run hb wire now) hending
    have hsome := hcut ((begin party wire now).run party limits).now
    rw [hnone] at hsome
    exact hsome
  · rfl

end Task

end Overlay.Handshake
