import Overlay.Handshake.Server
import Overlay.Proofs.Handshake.Course
import Overlay.Proofs.Handshake.Race

/-!
# Serving is answering each stream on its own

A server answers many streams over one clock, and what happens next is whatever comes first.
Still no stream has anything to do with another: a task is changed by its own steps alone
(`Server.move_of_next?`), so after any number of moves each task is as far as some number of its
own steps lead it. `Serving` says so, and `Serving.move` that every move keeps it.

A task that is cut short by the end of the run would not be answered, so the run has to reach a
point where nothing happens any more. It does because each move uses up something
(`Server.left_lt_of_move`): a stream to come, a step of a task, or the accept loop itself. There
each task has come to the end of its own run, and `serve_pointwise` reads off the rest.
-/

namespace Overlay.Handshake

/-! ### What a server does next -/

theorem Server.mem_of_earliest {α : Type} {moves : List (Nat × α)} {move : Nat × α}
    (h : earliest moves = some move) : move ∈ moves := by
  induction moves generalizing move with
  | nil => cases h
  | cons first rest ih =>
    rw [earliest] at h
    split at h
    · cases h
      exact List.mem_cons_self
    · next other hother =>
      split at h
      · cases h
        exact List.mem_cons_of_mem _ (ih hother)
      · cases h
        exact List.mem_cons_self

theorem Server.earliest_eq_none_iff {α : Type} {moves : List (Nat × α)} :
    earliest moves = none ↔ moves = [] := by
  constructor
  · intro h
    cases moves with
    | nil => rfl
    | cons first rest =>
      rw [earliest] at h
      split at h
      · cases h
      · split at h <;> cases h
  · rintro rfl
    rfl

/-- Whether a stream arrives before the cancellation. -/
def Inbound.inTime (cancelAt : Option Nat) (stream : Inbound) : Bool :=
  cancelAt.all fun C ↦ stream.arrival < C

/-- The accept loop has come to the end of its streams: there is none left, or the next is too
late. -/
def Source.Exhausted (cancelAt : Option Nat) (source : Source) : Prop :=
  ∀ stream ∈ source.coming.head?, stream.inTime cancelAt = false

theorem Source.exhausted_of_nil {cancelAt : Option Nat} {source : Source}
    (h : source.coming = []) : source.Exhausted cancelAt := by
  rw [Exhausted, h]
  nofun

namespace Server

variable {config : Config} {cancelAt : Option Nat}

/-- The ways in which a server goes on: it takes the next stream, or its accept loop ends with
the source or with the cancellation, or one of its tasks goes on. -/
inductive Move (config : Config) (cancelAt : Option Nat) (s : Server) : Server → Prop where
  | take {stream : Inbound} {rest : List Inbound} (hloop : s.endedAt = none)
      (hcoming : s.source.coming = stream :: rest) (htime : stream.inTime cancelAt = true) :
      Move config cancelAt s (s.take config stream rest)
  | drained (hloop : s.endedAt = none) (hcoming : s.source.coming = [])
      (hends : s.source.keepOpen = false) :
      Move config cancelAt s (s.stop s.now)
  | cancelled {C : Nat} (hloop : s.endedAt = none) (hC : C ∈ cancelAt)
      (hsource : s.source.Exhausted cancelAt)
      (hopen : s.source.coming = [] → s.source.keepOpen = true) :
      Move config cancelAt s (s.stop (max s.now C))
  | task {before after : List Served} {x : Served} {time : Nat} {t : ResponderTask}
      (hserved : s.served = before ++ x :: after)
      (hnext : x.task.next? (Responder.party config) (config.limits cancelAt x.arrival) =
        some (time, t)) :
      Move config cancelAt s { s with served := before ++ { x with task := t } :: after }

theorem move_of_loop? {s s' : Server} {time : Nat}
    (h : s.loop? config cancelAt = some (time, s')) : s.Move config cancelAt s' := by
  unfold loop? at h
  split at h
  · cases h
  next hended =>
  have hloop : s.endedAt = none := by simpa using hended
  split at h
  · next hcoming =>
    split at h
    · next hopen =>
      obtain ⟨C, hC, heq⟩ := Option.map_eq_some_iff.1 h
      cases heq
      exact .cancelled hloop hC (Source.exhausted_of_nil hcoming) fun _ ↦ hopen
    · next hends =>
      cases h
      exact .drained hloop hcoming (by simpa using hends)
  · next stream rest hcoming =>
    split at h
    · next htime =>
      cases h
      exact .take hloop hcoming htime
    · next hlate =>
      obtain ⟨C, hC, heq⟩ := Option.map_eq_some_iff.1 h
      cases heq
      refine .cancelled hloop hC ?_ fun hnil ↦ by rw [hcoming] at hnil; cases hnil
      rw [Source.Exhausted, hcoming]
      rintro _ ⟨⟩
      exact Bool.eq_false_iff.2 hlate

theorem move_of_mem_taskMoves {s s' : Server} {time : Nat} {before after : List Served}
    (hserved : s.served = before ++ after)
    (h : (time, s') ∈ s.taskMoves config cancelAt before after) : s.Move config cancelAt s' := by
  induction after generalizing before with
  | nil => cases h
  | cons x after ih =>
    have hothers : (time, s') ∈ s.taskMoves config cancelAt (before ++ [x]) after →
        s.Move config cancelAt s' :=
      ih (by rw [hserved, List.append_assoc, List.singleton_append])
    rw [taskMoves] at h
    split at h
    · exact hothers h
    · next t hnext =>
      rcases List.mem_cons.1 h with heq | h
      · cases heq
        exact .task hserved hnext
      · exact hothers h

/-- **Inversion**: a server goes on in one of the four ways. -/
theorem move_of_next? {s s' : Server} {time : Nat}
    (h : s.next? config cancelAt = some (time, s')) : s.Move config cancelAt s' := by
  rcases List.mem_append.1 (mem_of_earliest h) with hloop | htask
  · exact move_of_loop? (Option.mem_toList.1 hloop)
  · have hserved : s.served = [] ++ s.served := rfl
    exact move_of_mem_taskMoves hserved htask

/-- An accept loop that has not ended waits for ever only if the source stays open and no
cancellation comes. -/
theorem waiting_of_loop? {s : Server} (hloop : s.endedAt = none)
    (h : s.loop? config cancelAt = none) :
    s.source.coming = [] ∧ s.source.keepOpen = true ∧ cancelAt = none := by
  unfold loop? at h
  simp only [hloop, Option.isSome_none, Bool.false_eq_true, if_false] at h
  split at h
  · next hcoming =>
    split at h
    · next hopen => exact ⟨hcoming, hopen, Option.map_eq_none_iff.1 h⟩
    · cases h
  · split at h
    · cases h
    · next hlate =>
      -- without a cancellation no stream is late
      rw [Option.map_eq_none_iff.1 h] at hlate
      exact absurd rfl hlate

/-- Where no task has a move, nothing happens to any of them. -/
theorem quiet_of_taskMoves {s : Server} {before after : List Served}
    (h : s.taskMoves config cancelAt before after = []) :
    ∀ x ∈ after,
      x.task.next? (Responder.party config) (config.limits cancelAt x.arrival) = none := by
  induction after generalizing before with
  | nil => exact List.forall_mem_nil _
  | cons x after ih =>
    rw [taskMoves] at h
    split at h
    · next hquiet => exact List.forall_mem_cons.2 ⟨hquiet, ih h⟩
    · cases h

theorem quiet_of_next? {s : Server} (h : s.next? config cancelAt = none) :
    s.loop? config cancelAt = none ∧ ∀ x ∈ s.served,
      x.task.next? (Responder.party config) (config.limits cancelAt x.arrival) = none := by
  obtain ⟨hloop, htasks⟩ := List.append_eq_nil_iff.1 (earliest_eq_none_iff.1 h)
  exact ⟨Option.toList_eq_nil_iff.1 hloop, quiet_of_taskMoves htasks⟩

end Server

/-! ### What is kept -/

/-- A stream that was taken, after some steps of its task. -/
def Inbound.served (config : Config) (cancelAt : Option Nat) (stream : Inbound) (steps : Nat) :
    Served :=
  ⟨stream.index, stream.arrival,
    (Task.begin (Responder.party config) stream.wire stream.arrival).runFor
      (Responder.party config) (config.limits cancelAt stream.arrival) steps⟩

theorem Inbound.served_succ {config : Config} {cancelAt : Option Nat} {stream : Inbound}
    {steps time : Nat} {t : ResponderTask}
    (h : (stream.served config cancelAt steps).task.next? (Responder.party config)
      (config.limits cancelAt stream.arrival) = some (time, t)) :
    stream.served config cancelAt (steps + 1) =
      { stream.served config cancelAt steps with task := t } := by
  have hstep : (stream.served config cancelAt (steps + 1)).task = t := by
    have hlast := Task.runFor_succ_of_some (n := 0) h
    rw [served] at hlast ⊢
    rw [Task.runFor_add, hlast]
    rfl
  rw [← hstep]
  rfl

/-- The moment of the last of some streams. -/
def lastArrival (streams : List Inbound) : Nat := (streams.getLast?.map Inbound.arrival).getD 0

/-- A server at work on a source: `progress` lists the streams that it has taken, and how many
steps the task of each has made so far, each on its own. -/
structure Serving (config : Config) (cancelAt : Option Nat) (source : Source)
    (progress : List (Inbound × Nat)) (s : Server) : Prop where
  /-- The streams are taken in order. -/
  coming : progress.map Prod.fst ++ s.source.coming = source.coming
  keepOpen : s.source.keepOpen = source.keepOpen
  served : s.served = progress.map fun p ↦ p.1.served config cancelAt p.2
  inTime : ∀ p ∈ progress, p.1.inTime cancelAt = true
  now : s.now = lastArrival (progress.map Prod.fst)
  /-- The accept loop ended with the source or with the cancellation. -/
  ended : ∀ time ∈ s.endedAt,
    (s.source.coming = [] ∧ s.source.keepOpen = false ∧ time = s.now) ∨
      (time ∈ cancelAt ∧ s.source.Exhausted cancelAt ∧
        (s.source.coming = [] → s.source.keepOpen = true))

namespace Serving

variable {config : Config} {cancelAt : Option Nat} {source : Source}
  {progress : List (Inbound × Nat)} {s s' : Server}

theorem begin (config : Config) (cancelAt : Option Nat) (source : Source) :
    Serving config cancelAt source [] (.begin source) where
  coming := rfl
  keepOpen := rfl
  served := rfl
  inTime := List.forall_mem_nil _
  now := rfl
  ended := nofun

/-- All that was taken so far was taken before the cancellation. -/
theorem max_now (h : Serving config cancelAt source progress s) {C : Nat} (hC : C ∈ cancelAt) :
    max s.now C = C := by
  rw [h.now, lastArrival]
  rcases hlast : (progress.map Prod.fst).getLast? with - | stream
  · exact Nat.max_eq_right (Nat.zero_le C)
  · obtain ⟨p, hp, rfl⟩ := List.mem_map.1 (List.mem_of_getLast? hlast)
    have htime := h.inTime p hp
    cases hC
    exact Nat.max_eq_right (Nat.le_of_lt (of_decide_eq_true htime))

/-- **One move** takes one more stream, or one more step of one task, or ends the accept loop. -/
theorem move (h : Serving config cancelAt source progress s) (hmove : s.Move config cancelAt s') :
    ∃ progress', Serving config cancelAt source progress' s' := by
  cases hmove with
  | @take stream rest hloop hcoming htime =>
    refine ⟨progress ++ [(stream, 0)], ?_, h.keepOpen, ?_, ?_, ?_, ?_⟩
    · rw [← h.coming, hcoming, List.map_append, List.append_assoc]
      rfl
    · rw [List.map_append, ← h.served]
      rfl
    · exact List.forall_mem_append.2 ⟨h.inTime, List.forall_mem_singleton.2 htime⟩
    · rw [List.map_append, lastArrival, List.map_singleton, List.getLast?_concat]
      rfl
    · show ∀ time ∈ s.endedAt, _
      rw [hloop]
      nofun
  | drained hloop hcoming hends =>
    refine ⟨progress, h.coming, h.keepOpen, h.served, h.inTime, h.now, ?_⟩
    rintro _ ⟨⟩
    exact .inl ⟨hcoming, hends, rfl⟩
  | @cancelled C hloop hC hsource hopen =>
    refine ⟨progress, h.coming, h.keepOpen, h.served, h.inTime, h.now, ?_⟩
    rintro _ ⟨⟩
    rw [h.max_now hC]
    exact .inr ⟨hC, hsource, hopen⟩
  | @task before after x time t hserved hnext =>
    -- the task that moves is one of those in `progress`, which has made one step more
    have hprogress := h.served.symm.trans hserved
    obtain ⟨early, rest, rfl, hearly, hrest⟩ := List.map_eq_append_iff.1 hprogress
    obtain ⟨⟨stream, steps⟩, late, rfl, rfl, rfl⟩ := List.map_eq_cons_iff.1 hrest
    refine ⟨early ++ (stream, steps + 1) :: late, ?_, h.keepOpen, ?_, ?_, ?_, h.ended⟩
    · rw [← h.coming]
      simp only [List.map_append, List.map_cons]
    · simp only [List.map_append, List.map_cons, hearly, Inbound.served_succ hnext]
    · have htime := h.inTime
      simp only [List.forall_mem_append, List.forall_mem_cons] at htime ⊢
      exact htime
    · show s.now = _
      rw [h.now]
      simp only [List.map_append, List.map_cons]

/-- What is kept by every move is kept by every run. -/
theorem runFor (h : Serving config cancelAt source progress s) (n : Nat) :
    ∃ progress', Serving config cancelAt source progress' (s.runFor config cancelAt n) := by
  induction n generalizing s progress with
  | zero => exact ⟨progress, h⟩
  | succ n ih =>
    rw [Server.runFor]
    split
    · exact ⟨progress, h⟩
    · next hnext =>
      obtain ⟨_, h'⟩ := h.move (Server.move_of_next? hnext)
      exact ih h'

/-! ### The end of a run -/

theorem valid_of_mem (h : Serving config cancelAt source progress s) :
    ∀ x ∈ s.served, Responder.Valid config x.task.state := by
  rw [h.served]
  intro x hx
  obtain ⟨⟨stream, steps⟩, -, rfl⟩ := List.mem_map.1 hx
  obtain ⟨events, htrace⟩ :=
    (Task.recorded_runFor (Responder.party config) (config.limits cancelAt stream.arrival)
      stream.wire stream.arrival steps).exists_trace
  exact (Responder.bounded config).valid_of_trace htrace

end Serving

namespace Server

variable {config : Config} {cancelAt : Option Nat}

/-- How many more things can happen to the tasks of a server. -/
def tasksLeft (config : Config) (served : List Served) : Nat :=
  served.foldr (fun x n ↦ x.task.left (Responder.party config) + n) 0

/-- How many more things can happen to a server. -/
def left (config : Config) (s : Server) : Nat :=
  (if s.endedAt.isSome then 0 else 1) +
    s.source.coming.length *
      ((Responder.party config).remaining (Responder.party config).start + 2) +
    tasksLeft config s.served

@[simp] theorem tasksLeft_cons (config : Config) (x : Served) (xs : List Served) :
    tasksLeft config (x :: xs) =
      x.task.left (Responder.party config) + tasksLeft config xs := rfl

@[simp] theorem tasksLeft_append (config : Config) (xs ys : List Served) :
    tasksLeft config (xs ++ ys) = tasksLeft config xs + tasksLeft config ys := by
  induction xs with
  | nil => exact (Nat.zero_add _).symm
  | cons x xs ih => rw [List.cons_append, tasksLeft_cons, tasksLeft_cons, ih, Nat.add_assoc]

theorem left_le_budget (config : Config) (s : Server) : s.left config ≤ s.budget config := by
  have hfold : ∀ (xs : List Served) (n : Nat), n + tasksLeft config xs ≤
      xs.foldl (fun n x ↦ n + x.task.budget (Responder.party config)) n := by
    intro xs
    induction xs with
    | nil => exact fun n ↦ Nat.le_refl n
    | cons x xs ih =>
      intro n
      have hx := Task.left_le_budget (Responder.party config) x.task
      have hxs := ih (n + x.task.budget (Responder.party config))
      rw [tasksLeft_cons, List.foldl_cons]
      omega
  have htasks := hfold s.served 0
  have hloop : (if s.endedAt.isSome then 0 else 1) ≤ 1 := by split <;> decide
  rw [left, budget]
  omega

theorem left_stop {s : Server} (hloop : s.endedAt = none) (time : Nat) :
    s.left config = (s.stop time).left config + 1 := by
  simp only [left, stop, hloop, Option.isSome_none, Option.isSome_some, Bool.false_eq_true,
    if_false, if_true]
  omega

/-- **Each move uses up something**: a stream to come, a step of a task, or the accept loop. -/
theorem left_lt_of_move {s s' : Server}
    (hvalid : ∀ x ∈ s.served, Responder.Valid config x.task.state)
    (h : s.Move config cancelAt s') : s'.left config < s.left config := by
  cases h with
  | @take stream rest hloop hcoming _ =>
    -- a stream to come counts for more than the task that it becomes
    have hbegin := Task.left_le_budget (Responder.party config)
      (.begin (Responder.party config) stream.wire stream.arrival)
    simp only [left, take, hloop, hcoming, tasksLeft_append, tasksLeft_cons, List.length_cons,
      Nat.succ_mul]
    simp only [tasksLeft, Task.budget, Task.begin, List.foldr_nil] at hbegin ⊢
    omega
  | drained hloop _ _ => exact Nat.lt_of_lt_of_eq (Nat.lt_succ_self _) (left_stop hloop _).symm
  | cancelled hloop _ _ _ =>
    exact Nat.lt_of_lt_of_eq (Nat.lt_succ_self _) (left_stop hloop _).symm
  | @task before after x time t hserved hnext =>
    have hx : x ∈ s.served := hserved ▸ List.mem_append_right _ List.mem_cons_self
    have hlt := (Task.left_lt_of_next? (Responder.bounded config) (hvalid x hx) hnext).2
    simp only [left, hserved, tasksLeft_append, tasksLeft_cons]
    omega

end Server

namespace Serving

variable {config : Config} {cancelAt : Option Nat} {source : Source}
  {progress : List (Inbound × Nat)} {s : Server}

/-- **A run comes to its end**: nothing happens after it. -/
theorem next?_runFor (h : Serving config cancelAt source progress s) {n : Nat}
    (hn : s.left config ≤ n) : (s.runFor config cancelAt n).next? config cancelAt = none := by
  induction n generalizing s progress with
  | zero =>
    rw [Server.runFor]
    rcases hnext : s.next? config cancelAt with - | ⟨time, s'⟩
    · rfl
    · have hlt := Server.left_lt_of_move h.valid_of_mem (Server.move_of_next? hnext)
      omega
  | succ n ih =>
    rw [Server.runFor]
    split
    · next hnext => exact hnext
    · next time s' hnext =>
      have hmove := Server.move_of_next? hnext
      have hlt := Server.left_lt_of_move h.valid_of_mem hmove
      obtain ⟨_, h'⟩ := h.move hmove
      exact ih h' (by omega)

/-- Where nothing happens any more, each task has come to the end of its own run. -/
theorem served_of_quiet (h : Serving config cancelAt source progress s)
    (hquiet : s.next? config cancelAt = none) :
    s.served = (progress.map Prod.fst).map fun stream ↦
      ⟨stream.index, stream.arrival, respond config cancelAt stream.arrival stream.wire⟩ := by
  obtain ⟨-, htasks⟩ := Server.quiet_of_next? hquiet
  rw [h.served] at htasks ⊢
  rw [List.map_map]
  refine List.map_congr_left fun p hp ↦ ?_
  have htask := htasks _ (List.mem_map_of_mem hp)
  have hrun : respond config cancelAt p.1.arrival p.1.wire =
      (p.1.served config cancelAt p.2).task :=
    Task.run_eq_of_next? (Responder.bounded config) rfl htask
  rw [Function.comp_apply, hrun]
  rfl

/-- Where nothing happens any more, the accept loop has ended with the source, or it ends with
the cancellation, if one comes. -/
theorem ended_of_quiet (h : Serving config cancelAt source progress s)
    (hquiet : s.next? config cancelAt = none) :
    (s.source.coming = [] ∧ s.source.keepOpen = false ∧ s.endedAt = some s.now) ∨
      (s.endedAt = cancelAt ∧ s.source.Exhausted cancelAt ∧
        (s.source.coming = [] → s.source.keepOpen = true)) := by
  obtain ⟨hloop, -⟩ := Server.quiet_of_next? hquiet
  rcases hended : s.endedAt with - | time
  · obtain ⟨hcoming, hopen, hnever⟩ := Server.waiting_of_loop? hended hloop
    exact .inr ⟨hnever.symm, Source.exhausted_of_nil hcoming, fun _ ↦ hopen⟩
  · rcases h.ended time hended with ⟨hcoming, hends, rfl⟩ | ⟨htime, hsource, hopen⟩
    · exact .inl ⟨hcoming, hends, rfl⟩
    · exact .inr ⟨htime.symm, hsource, hopen⟩

end Serving

/-! ### Which streams are taken -/

theorem takeWhile_inTime {cancelAt : Option Nat} {taken coming : List Inbound}
    (htaken : ∀ stream ∈ taken, stream.inTime cancelAt = true)
    (hcoming : ∀ stream ∈ coming.head?, stream.inTime cancelAt = false) :
    (taken ++ coming).takeWhile (·.inTime cancelAt) = taken := by
  rw [List.takeWhile_append_of_pos htaken]
  cases coming with
  | nil => exact List.append_nil taken
  | cons stream rest =>
    rw [List.takeWhile_cons_of_neg (Bool.eq_false_iff.1 (hcoming stream rfl)), List.append_nil]

/-- A source hands its streams over in the order of their arrival. -/
def Source.InOrder (source : Source) : Prop :=
  source.coming.Pairwise fun earlier later ↦ earlier.arrival ≤ later.arrival

/-- In a source that is in order, whoever follows a late stream is late. -/
theorem Source.InOrder.takeWhile_eq {source : Source} (h : source.InOrder)
    (cancelAt : Option Nat) :
    source.coming.takeWhile (·.inTime cancelAt) = source.coming.filter (·.inTime cancelAt) := by
  rw [InOrder] at h
  generalize source.coming = coming at h ⊢
  induction coming with
  | nil => rfl
  | cons stream rest ih =>
    obtain ⟨hrest, hordered⟩ := List.pairwise_cons.1 h
    by_cases htime : stream.inTime cancelAt = true
    · rw [List.takeWhile_cons_of_pos htime, List.filter_cons_of_pos htime, ih hordered]
    · have hlate : ∀ later ∈ rest, ¬ later.inTime cancelAt = true := fun later hlater hin ↦ by
        have hle := hrest later hlater
        cases cancelAt with
        | none => exact htime rfl
        | some C =>
          have hlt : later.arrival < C := of_decide_eq_true hin
          exact htime (decide_eq_true (Nat.lt_of_le_of_lt hle hlt))
      rw [List.takeWhile_cons_of_neg htime, List.filter_cons_of_neg htime,
        List.filter_eq_nil_iff.2 hlate]

theorem Source.pairwise_queue (streams : List Inbound) (now : Nat) :
    (∀ stream ∈ queue now streams, now ≤ stream.arrival) ∧
      (queue now streams).Pairwise fun earlier later ↦ earlier.arrival ≤ later.arrival := by
  induction streams generalizing now with
  | nil => exact ⟨List.forall_mem_nil _, .nil⟩
  | cons stream rest ih =>
    obtain ⟨hafter, hordered⟩ := ih (max now stream.arrival)
    have hnow : now ≤ max now stream.arrival := Nat.le_max_left _ _
    rw [queue]
    refine ⟨List.forall_mem_cons.2 ⟨hnow, fun later hlater ↦ ?_⟩, .cons hafter hordered⟩
    exact Nat.le_trans hnow (hafter later hlater)

/-- Every plan makes a source that is in order. -/
theorem Source.inOrder_ofPlan (plan : List (Nat × Wire)) (keepOpen : Bool) :
    (ofPlan plan keepOpen).InOrder := by
  rw [ofPlan, InOrder]
  refine List.pairwise_append.2 ⟨?_, (pairwise_queue _ 0).2, ?_⟩
  · -- the streams that are there from the start all arrive at the same moment
    refine List.pairwise_iff_forall_sublist.2 fun hsub ↦ ?_
    have hfirst := (List.mem_filter.1 (hsub.subset List.mem_cons_self)).2
    rw [beq_iff_eq] at hfirst
    omega
  · intro stream hstream later _
    have hfirst := (List.mem_filter.1 hstream).2
    rw [beq_iff_eq] at hfirst
    omega

/-! ### The whole run -/

namespace Serving

variable {config : Config} {cancelAt : Option Nat} {source : Source}
  {progress : List (Inbound × Nat)} {s : Server}

/-- Where nothing happens any more, the streams in time have been taken. -/
theorem taken_of_quiet (h : Serving config cancelAt source progress s)
    (hquiet : s.next? config cancelAt = none) :
    progress.map Prod.fst = source.coming.takeWhile (·.inTime cancelAt) := by
  have hexhausted : s.source.Exhausted cancelAt := by
    rcases h.ended_of_quiet hquiet with ⟨hcoming, -, -⟩ | ⟨-, hsource, -⟩
    · exact Source.exhausted_of_nil hcoming
    · exact hsource
  have htaken : ∀ stream ∈ progress.map Prod.fst, stream.inTime cancelAt = true := by
    intro stream hstream
    obtain ⟨p, hp, rfl⟩ := List.mem_map.1 hstream
    exact h.inTime p hp
  rw [← h.coming, takeWhile_inTime htaken hexhausted]

/-- Where nothing happens any more, the accept loop has ended with the last stream, or it ends
with the cancellation. -/
theorem endedAt_of_quiet (h : Serving config cancelAt source progress s)
    (hquiet : s.next? config cancelAt = none) :
    s.endedAt =
      if source.coming.all (·.inTime cancelAt) && !source.keepOpen then
        some (lastArrival source.coming)
      else cancelAt := by
  rcases h.ended_of_quiet hquiet with ⟨hcoming, hends, hended⟩ | ⟨hended, hsource, hopen⟩
  · have hsame := h.coming
    rw [hcoming, List.append_nil] at hsame
    have hall : source.coming.all (·.inTime cancelAt) = true := by
      rw [← hsame, List.all_map]
      exact List.all_eq_true.2 h.inTime
    rw [← h.keepOpen, hends, hall, hended, h.now, hsame]
    rfl
  · -- either the source stays open, or its next stream is late
    rcases hcoming : s.source.coming with - | ⟨stream, rest⟩
    · rw [← h.keepOpen, hopen hcoming, hended, Bool.not_true, Bool.and_false]
      rfl
    · have hmem : stream ∈ source.coming := by
        rw [← h.coming, hcoming]
        exact List.mem_append_right _ List.mem_cons_self
      have hlate : stream.inTime cancelAt = false := hsource stream (by rw [hcoming]; rfl)
      have hall : source.coming.all (·.inTime cancelAt) = false :=
        List.all_eq_false.2 ⟨stream, hmem, Bool.eq_false_iff.1 hlate⟩
      rw [hall, hended]
      rfl

end Serving

theorem exists_serving_serve (config : Config) (cancelAt : Option Nat) (source : Source) :
    (serve config cancelAt source).next? config cancelAt = none ∧
      ∃ progress, Serving config cancelAt source progress (serve config cancelAt source) := by
  have hbegin := Serving.begin config cancelAt source
  exact ⟨hbegin.next?_runFor (Server.left_le_budget config _), hbegin.runFor _⟩

/-- The streams that a server has taken, each with its answer. -/
theorem served_serve (config : Config) (cancelAt : Option Nat) (source : Source) :
    (serve config cancelAt source).served =
      (source.coming.takeWhile (·.inTime cancelAt)).map fun stream ↦
        ⟨stream.index, stream.arrival, respond config cancelAt stream.arrival stream.wire⟩ := by
  obtain ⟨hquiet, progress, h⟩ := exists_serving_serve config cancelAt source
  rw [h.served_of_quiet hquiet, h.taken_of_quiet hquiet]

/-- Answering a stream closes it once. -/
theorem closes_respond (config : Config) (cancelAt : Option Nat) (start : Nat) (wire : Wire) :
    ∃ time outcome, (respond config cancelAt start wire).ending = some (time, outcome) ∧
      (Report.ofEvents (respond config cancelAt start wire).events).closes = [time] := by
  have hended := ending_respond_isSome config cancelAt start wire
  obtain ⟨⟨time, outcome⟩, hending⟩ := Option.isSome_iff_exists.1 hended
  have hrecorded : (respond config cancelAt start wire).Recorded (Responder.party config) :=
    Task.recorded_runFor _ _ wire start _
  exact ⟨time, outcome, hending, hrecorded.closes_eq hending⟩

/-- **Serving is answering each stream on its own.** Whatever streams come, in whatever way they
overlap, a server that is left to run until nothing happens any more

1. has taken the streams that arrive before its cancellation, and no other: those before the
   first that is late, and these are all that are in time if the source is in order, as that of
   any plan is (`Source.inOrder_ofPlan`);
2. has answered each of them just as `respond` answers this stream alone from its arrival on, with
   the same events at the same moments;
3. has closed each of them once, when its answer ended;
4. has ended its accept loop with the last stream, if it took them all and the source ends, and
   with the cancellation if not;
5. would have answered them all in the same way if the source had stayed open, or had ended. -/
theorem serve_pointwise (config : Config) (cancelAt : Option Nat) (source : Source) :
    let taken := source.coming.takeWhile (·.inTime cancelAt)
    let server := serve config cancelAt source
    (server.next? config cancelAt = none ∧ taken ++ server.source.coming = source.coming ∧
      (source.InOrder → taken = source.coming.filter (·.inTime cancelAt))) ∧
    (server.served = taken.map fun stream ↦
      ⟨stream.index, stream.arrival, respond config cancelAt stream.arrival stream.wire⟩) ∧
    (∀ x ∈ server.served, ∃ time outcome, x.task.ending = some (time, outcome) ∧
      (Report.ofEvents x.task.events).closes = [time]) ∧
    (server.endedAt =
      if source.coming.all (·.inTime cancelAt) && !source.keepOpen then
        some (lastArrival source.coming)
      else cancelAt) ∧
    ∀ keepOpen, (serve config cancelAt { source with keepOpen }).served = server.served := by
  intro taken server
  obtain ⟨hquiet, progress, h⟩ := exists_serving_serve config cancelAt source
  have hserved := served_serve config cancelAt source
  refine ⟨⟨hquiet, ?taken, fun horder ↦ horder.takeWhile_eq cancelAt⟩, hserved, ?closed,
    h.endedAt_of_quiet hquiet, ?ends⟩
  case taken =>
    have hcoming := h.coming
    rwa [h.taken_of_quiet hquiet] at hcoming
  case closed =>
    intro x hx
    obtain ⟨stream, -, rfl⟩ := List.mem_map.1 (hserved ▸ hx)
    exact closes_respond config cancelAt stream.arrival stream.wire
  case ends =>
    intro keepOpen
    rw [served_serve]
    exact hserved.symm

/-- A peer that stays silent holds up nobody: the second stream is answered when it arrives, long
before the first is given up. -/
example : (serve ⟨1, 0, 5⟩ none (.ofPlan
    [(0, .ofReads [.pending]), (1, .ofReads [.data Settings.handshakeRequest])] false)).served.map
      (·.task.ending) = [some (5, .error .timeout), some (1, .ok .responded)] := by decide

end Overlay.Handshake
