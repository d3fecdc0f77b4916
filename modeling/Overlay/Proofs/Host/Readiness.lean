import Overlay.Proofs.Host.Listeners
import Overlay.Proofs.Host.Opening

/-!
# Waiting for the listeners

Bring-up waits for reports until it is settled: a primary listener has failed, or every listener
that is left has an address. `Wait` says that it ends with the first reports that settle it, and
`BroughtUp` puts this together with the opening of the listeners.

How a wait is settled follows from what the reports tell of the listeners (`Launched`). A
failure is that of a primary listener which a report ends while it has no address
(`failure_of_wait`), and a wait that ends well has either heard from a listener that is still
there, or has seen them all end, the primary one while it was in use (`heard_or_ended`). The
second case is no accident: readiness is asked of the listeners that are left, and of no
listeners at all it holds. So bring-up of a role without a primary listener goes on even if
all its listeners fail (`bringUp_ready`).
-/

namespace Overlay.Host

/-! ### The wait -/

namespace Switchboard

variable {s : Switchboard}

theorem settled?_eq_none_iff :
    s.settled? = none ↔ s.lostPrimary = none ∧ s.isReady = false := by
  rw [settled?]
  split
  · next e hlost => simp [hlost]
  · next hlost => simp [hlost]

theorem settled?_eq_ok_iff {board : Switchboard} :
    s.settled? = some (.ok (), board) ↔
      s.lostPrimary = none ∧ s.isReady = true ∧ board = s := by
  rw [settled?]
  split
  · next e hlost => simp [hlost]
  · next hlost =>
    rw [hlost]
    constructor
    · intro h
      split at h
      · next hready =>
        cases h
        exact ⟨rfl, hready, rfl⟩
      · cases h
    · rintro ⟨-, hready, rfl⟩
      rw [if_pos hready]

theorem settled?_eq_error_iff {board : Switchboard} {e : BringUpError} :
    s.settled? = some (.error e, board) ↔
      s.lostPrimary = some e ∧ board = { s with lostPrimary := none } := by
  rw [settled?]
  split
  · next e' hlost =>
    rw [hlost]
    constructor
    · intro h
      cases h
      exact ⟨rfl, rfl⟩
    · rintro ⟨⟨⟩, rfl⟩
      rfl
  · next hlost => simp [hlost]

/-- The switchboard after some reports. -/
def after (s : Switchboard) (events : List Event) : Switchboard :=
  events.foldl (fun s e ↦ (s.onEvent e).1) s

theorem after_concat (s : Switchboard) (events : List Event) (e : Event) :
    s.after (events ++ [e]) = ((s.after events).onEvent e).1 := by
  rw [after, List.foldl_append]
  rfl

/-- All that a wait can come to: it is settled by the reports `seen`, and not by fewer, or time is
up before. -/
inductive Wait (s : Switchboard) :
    List Event → Except BringUpError Unit × Switchboard × List Event → Prop
  | settled {seen left : List Event} {result : Except BringUpError Unit} {board : Switchboard}
      (hbefore : ∀ early e late, seen = early ++ e :: late → (s.after early).settled? = none)
      (hsettled : (s.after seen).settled? = some (result, board)) :
      Wait s (seen ++ left) (result, board, left)
  | late {seen : List Event}
      (hbefore : ∀ early late, seen = early ++ late → (s.after early).settled? = none) :
      Wait s seen (.ok (), s.after seen, [])

/-- A wait that is not over yet goes on with the next report. -/
theorem Wait.cons {e : Event} {reports : List Event}
    {outcome : Except BringUpError Unit × Switchboard × List Event} (hnone : s.settled? = none)
    (h : Wait (s.onEvent e).1 reports outcome) : Wait s (e :: reports) outcome := by
  cases h with
  | @settled seen left result board hbefore hsettled =>
    rw [← List.cons_append]
    refine .settled (fun early x late hsplit ↦ ?_) hsettled
    cases early with
    | nil => exact hnone
    | cons y early =>
      cases hsplit
      exact hbefore early x late rfl
  | late hbefore =>
    refine .late fun early late hsplit ↦ ?_
    cases early with
    | nil => exact hnone
    | cons y early =>
      cases hsplit
      exact hbefore early late rfl

/-- A wait that ends well has not seen the primary listener fail, and was not ready before. -/
theorem Wait.of_ok {reports left : List Event} {board : Switchboard}
    (h : Wait s reports (.ok (), board, left)) :
    ∃ seen, reports = seen ++ left ∧ board = s.after seen ∧
      (∀ early late, seen = early ++ late → (s.after early).lostPrimary = none) ∧
      (∀ early e late, seen = early ++ e :: late → (s.after early).isReady = false) ∧
      (board.isReady = false → left = []) := by
  cases h with
  | @settled seen left _ board hbefore hsettled =>
    obtain ⟨hlost, hready, rfl⟩ := settled?_eq_ok_iff.1 hsettled
    refine ⟨seen, rfl, rfl, fun early late hsplit ↦ ?_, fun early e late hsplit ↦ ?_,
      fun hnot ↦ by rw [hready] at hnot; cases hnot⟩
    · cases late with
      | nil =>
        rw [List.append_nil] at hsplit
        exact hsplit ▸ hlost
      | cons e late => exact (settled?_eq_none_iff.1 (hbefore early e late hsplit)).1
    · exact (settled?_eq_none_iff.1 (hbefore early e late hsplit)).2
  | late hbefore =>
    refine ⟨_, (List.append_nil _).symm, rfl, fun early late hsplit ↦ ?_,
      fun early e late hsplit ↦ ?_, fun _ ↦ rfl⟩
    · exact (settled?_eq_none_iff.1 (hbefore early late hsplit)).1
    · exact (settled?_eq_none_iff.1 (hbefore early (e :: late) hsplit)).2

theorem Wait.now {left : List Event} {result : Except BringUpError Unit} {board : Switchboard}
    (h : s.settled? = some (result, board)) : Wait s left (result, board, left) := by
  have hnothing : ∀ early e late, [] = early ++ e :: late → (s.after early).settled? = none :=
    fun early _ _ hsplit ↦ absurd hsplit.symm (by simp)
  exact Wait.settled hnothing h

/-- **A wait** ends as soon as it is settled. -/
theorem wait (s : Switchboard) (reports : List Event) : Wait s reports (s.settle reports) := by
  induction reports generalizing s with
  | nil =>
    rw [settle]
    split
    · next h => exact .now h
    · next hnone =>
      refine .late fun early late hsplit ↦ ?_
      rw [(List.append_eq_nil_iff.1 hsplit.symm).1]
      exact hnone
  | cons e reports ih =>
    rw [settle]
    split
    · next h => exact .now h
    · next hnone => exact (ih (s.onEvent e).1).cons hnone

end Switchboard

/-! ### What a wait hears -/

/-- The first report that ends a listener finds it with an address. -/
def EndedInUse (id : Nat) (events : List Event) : Prop :=
  ∃ before e after, events = before ++ e :: after ∧ (∀ x ∈ before, x.ends id = false) ∧
    e.ends id = true ∧ standing id before ≠ []

/-- Every listener is ended by the reports, and none ever announces an address. -/
structure AllFailed (opened : List Listener) (reports : List Event) : Prop where
  ended : ∀ l ∈ opened, ∃ e ∈ reports, e.ends l.id = true
  silent : ∀ l ∈ opened, ∀ addr, .listening l.id addr ∉ reports

theorem exists_first_end {id : Nat} {events : List Event} (h : ∃ e ∈ events, e.ends id = true) :
    ∃ before e after, events = before ++ e :: after ∧ (∀ x ∈ before, x.ends id = false) ∧
      e.ends id = true := by
  obtain ⟨e, hfind⟩ := Option.isSome_iff_exists.1 (List.find?_isSome.2 h)
  obtain ⟨hends, before, after, rfl, hopen⟩ := List.find?_eq_some_iff_append.1 hfind
  exact ⟨before, e, after, rfl, fun x hx ↦ by simpa using hopen x hx, hends⟩

/-- **Reports on a switchboard where nothing is parked** keep what it shows in step, and park
nothing. -/
theorem Switchboard.shows_after {s : Switchboard} {dialable : Bool} {opened : List Listener}
    {events : List Event} (hopened : Numbered opened) (h : s.front.Shows dialable opened events)
    (hwaiting : s.waiting = .empty) (more : List Event) :
    (s.after more).front.Shows dialable opened (events ++ more) ∧
      (s.after more).waiting = .empty := by
  induction more generalizing s events with
  | nil =>
    rw [List.append_nil]
    exact ⟨h, hwaiting⟩
  | cons e more ih =>
    have hapart : ∀ l ∈ opened, Subject.listener l.id ∉ subjects s.waiting.places := by
      rw [hwaiting]
      exact fun l _ ↦ Waiting.notMem_subjects_empty _
    rw [List.append_cons]
    exact ih (shows_onEvent hopened h hapart e) (waiting_onEvent_of_empty hwaiting e)

/-- A switchboard whose listeners have just been opened. -/
structure Switchboard.Launched (s : Switchboard) (opened : List Listener) : Prop where
  numbered : Numbered opened
  shows : s.front.Shows s.dialable opened []
  waiting : s.waiting = .empty
  lostPrimary : s.lostPrimary = none

theorem Switchboard.launched_of_fresh (localId : PeerId) (dialable routes : Bool)
    {opened : List Listener} (hnumbered : Numbered opened)
    (hfresh : ∀ l ∈ opened, l.addresses = []) :
    { Switchboard.init localId dialable routes with listeners := opened }.Launched opened where
  numbered := hnumbered
  shows := Front.shows_opened hfresh _ _
  waiting := rfl
  lostPrimary := rfl

namespace Switchboard.Launched

variable {s : Switchboard} {opened : List Listener} (h : s.Launched opened)

include h

theorem shows_after (events : List Event) :
    (s.after events).front.Shows s.dialable opened events ∧ (s.after events).waiting = .empty :=
  Switchboard.shows_after h.numbered h.shows h.waiting events

theorem listeners_after (events : List Event) :
    (s.after events).listeners = tracked opened events :=
  (h.shows_after events).1.listeners

/-- What a report adds to the failure of the primary listener. -/
theorem lostPrimary_after_concat (events : List Event) (e : Event) :
    (s.after (events ++ [e])).lostPrimary =
      (e.failure? (tracked opened events)).or (s.after events).lostPrimary := by
  have hids : Numbered (s.after events).listeners :=
    h.listeners_after events ▸ h.numbered.tracked events
  have hapart : (s.after events).Apart := by
    rw [Apart, (h.shows_after events).2]
    exact fun l _ ↦ Waiting.notMem_subjects_empty _
  have hfront := front_onEvent hids hapart e
  rw [after_concat, ← h.listeners_after events]
  exact congrArg Front.lostPrimary hfront

/-- The wait is ready when every listener that has not ended has an address. -/
theorem isReady_after_iff (events : List Event) :
    (s.after events).isReady = true ↔
      ∀ l ∈ opened, (∀ e ∈ events, e.ends l.id = false) → standing l.id events ≠ [] := by
  rw [isReady, h.listeners_after, List.all_eq_true]
  constructor
  · intro hready l hl hopen
    simpa using hready _ (mem_tracked_iff.2 ⟨l, hl, hopen, rfl⟩)
  · intro hready l hl
    obtain ⟨o, ho, hopen, rfl⟩ := mem_tracked_iff.1 hl
    simpa using hready o ho hopen

/-- A primary listener that ends without a failure of bring-up was in use. -/
theorem endedInUse {seen : List Event}
    (hlost : ∀ early late, seen = early ++ late → (s.after early).lostPrimary = none)
    {l : Listener} (hl : l ∈ opened) (hprimary : l.primary = true)
    (hended : ∃ e ∈ seen, e.ends l.id = true) : EndedInUse l.id seen := by
  obtain ⟨before, e, after, rfl, hopen, hends⟩ := exists_first_end hended
  refine ⟨before, e, after, rfl, hopen, hends, ?_⟩
  have hnone := hlost (before ++ [e]) after (by simp)
  rw [h.lostPrimary_after_concat, Option.or_eq_none_iff] at hnone
  exact Event.failure?_eq_none_iff.1 hnone.1 _ (mem_tracked_iff.2 ⟨l, hl, hopen, rfl⟩) hends
    hprimary

/-- A failed wait was ended by the report that brought the failure about. -/
theorem failure_of_wait {reports left : List Event} {e : BringUpError} {board : Switchboard}
    (hwait : Wait s reports (.error e, board, left)) :
    ∃ before last, reports = before ++ last :: left ∧
      last.failure? (tracked opened before) = some e := by
  cases hwait with
  | @settled seen left _ board hbefore hsettled =>
    obtain ⟨hlost, -⟩ := settled?_eq_error_iff.1 hsettled
    rcases List.eq_nil_or_concat seen with rfl | ⟨before, last, rfl⟩
    · have hnone : (s.after []).lostPrimary = none := h.lostPrimary
      rw [hnone] at hlost
      cases hlost
    · rw [List.concat_eq_append] at hlost hbefore ⊢
      have hnone := (settled?_eq_none_iff.1 (hbefore before last [] rfl)).1
      rw [h.lostPrimary_after_concat, hnone, Option.or_none] at hlost
      exact ⟨before, last, by simp, hlost⟩

/-- **A wait that is ready** has heard from a listener, or all listeners have ended, the primary one
while it was in use. -/
theorem heard_or_ended {reports left : List Event} {board : Switchboard}
    (hwait : Wait s reports (.ok (), board, left)) (hready : board.isReady = true) :
    ∃ seen, reports = seen ++ left ∧
      ((∃ l ∈ board.listeners, l.addresses ≠ []) ∨
        board.listeners = [] ∧ ∀ l ∈ opened, (∃ e ∈ seen, e.ends l.id = true) ∧
          (l.primary = true → EndedInUse l.id seen)) := by
  obtain ⟨seen, hseen, rfl, hlost, -, -⟩ := hwait.of_ok
  refine ⟨seen, hseen, ?_⟩
  rcases hlisteners : (s.after seen).listeners with - | ⟨l, rest⟩
  · have hended := tracked_eq_nil_iff.1 ((h.listeners_after seen).symm.trans hlisteners)
    exact .inr ⟨rfl, fun l hl ↦ ⟨hended l hl, fun hprimary ↦
      h.endedInUse hlost hl hprimary (hended l hl)⟩⟩
  · refine .inl ⟨l, List.mem_cons_self, ?_⟩
    rw [isReady, hlisteners, List.all_cons, Bool.and_eq_true] at hready
    simpa using hready.1

/-- A wait for a single primary listener that is ready has heard from it: it ends at the first
address. -/
theorem listeners_ne_nil_of_single {l : Listener} (hopened : opened = [l])
    (hprimary : l.primary = true) {reports left : List Event} {board : Switchboard}
    (hwait : Wait s reports (.ok (), board, left)) : board.listeners ≠ [] := by
  intro hnil
  obtain ⟨seen, -, rfl, hlost, hunready, -⟩ := hwait.of_ok
  have hl : l ∈ opened := hopened ▸ List.mem_singleton_self l
  have hended := tracked_eq_nil_iff.1 ((h.listeners_after seen).symm.trans hnil) l hl
  obtain ⟨before, e, after, hsplit, -, -, hstanding⟩ := h.endedInUse hlost hl hprimary hended
  have hready : (s.after before).isReady = true := by
    rw [h.isReady_after_iff, hopened]
    rintro _ hmem -
    cases List.mem_singleton.1 hmem
    exact hstanding
  rw [hunready before e after hsplit] at hready
  cases hready

/-- **If all listeners fail** and a primary one is among them, a wait does not end well. -/
theorem not_wait_ok_of_allFailed {reports left : List Event} {board : Switchboard}
    (hfailed : AllFailed opened reports) {l : Listener} (hl : l ∈ opened)
    (hprimary : l.primary = true) : ¬ Wait s reports (.ok (), board, left) := by
  intro hwait
  obtain ⟨seen, rfl, rfl, hlost, -, hlate⟩ := hwait.of_ok
  have hsilent : ∀ addr, .listening l.id addr ∉ seen := fun addr hmem ↦
    hfailed.silent l hl addr (List.mem_append_left _ hmem)
  by_cases hended : ∃ e ∈ seen, e.ends l.id = true
  · obtain ⟨before, e, after, rfl, -, -, hstanding⟩ := h.endedInUse hlost hl hprimary hended
    exact hstanding (standing_eq_nil fun addr hmem ↦
      hsilent addr (List.mem_append_left _ hmem))
  · -- the listener is waited for in vain, so time is up, and it has ended by then
    have hunready : (s.after seen).isReady = false := by
      refine Bool.eq_false_iff.2 fun hready ↦ ?_
      have hopen : ∀ e ∈ seen, e.ends l.id = false := fun e he ↦
        Bool.eq_false_iff.2 fun h ↦ hended ⟨e, he, h⟩
      exact (h.isReady_after_iff seen).1 hready l hl hopen (standing_eq_nil hsilent)
    obtain ⟨e, he, hends⟩ := hfailed.ended l hl
    rw [hlate hunready, List.append_nil] at he
    exact hended ⟨e, he, hends⟩

/-- If all listeners fail and no primary one is among them, a wait is ready with no listener. -/
theorem wait_of_allFailed {reports : List Event}
    {outcome : Except BringUpError Unit × Switchboard × List Event}
    (hfailed : AllFailed opened reports) (hsecondary : ∀ l ∈ opened, l.primary = false)
    (hwait : Wait s reports outcome) :
    ∃ board left, outcome = (.ok (), board, left) ∧ board.isReady = true ∧
      board.listeners = [] := by
  obtain ⟨result, board, left⟩ := outcome
  cases result with
  | error e =>
    obtain ⟨before, last, -, hfailure⟩ := h.failure_of_wait hwait
    obtain ⟨l, hl, -, hprimary, -⟩ := Event.of_failure?_eq_some hfailure
    obtain ⟨o, ho, -, rfl⟩ := mem_tracked_iff.1 hl
    cases (hsecondary o ho).symm.trans hprimary
  | ok _ =>
    obtain ⟨seen, rfl, rfl, -, -, hlate⟩ := hwait.of_ok
    have hready : (s.after seen).isReady = true := by
      refine Bool.not_eq_false _ ▸ fun hunready ↦ ?_
      rw [hlate hunready, List.append_nil] at hfailed
      have hnil := tracked_eq_nil_iff.2 hfailed.ended
      rw [← h.listeners_after seen] at hnil
      rw [isReady, hnil] at hunready
      cases hunready
    refine ⟨_, left, rfl, hready, ?_⟩
    rw [h.listeners_after, tracked_eq_nil_iff]
    intro l hl
    refine Classical.byContradiction fun hnone ↦ ?_
    have hopen : ∀ e ∈ seen, e.ends l.id = false := fun e he ↦
      Bool.eq_false_iff.2 fun h ↦ hnone ⟨e, he, h⟩
    refine (h.isReady_after_iff seen).1 hready l hl hopen (standing_eq_nil fun addr hmem ↦ ?_)
    exact hfailed.silent l hl addr (List.mem_append_left _ hmem)

end Switchboard.Launched

/-! ### Bring-up -/

section BringUp

variable {role : Role} {localId : PeerId} {port : UInt16} {scope : ListenScope} {ground : Ground}
  {reports : List Event}

variable (role localId port scope ground) in
/-- The switchboard of a role when its listeners have been opened. -/
def Switchboard.launch : Switchboard :=
  { Switchboard.init localId (role.profile.reachability == .dialable) role.profile.routes with
    listeners := ground.opened port scope 0 role.profile.listen }

theorem Switchboard.launched_launch
    (hnumbered : Numbered (ground.opened port scope 0 role.profile.listen)) :
    (Switchboard.launch role localId port scope ground).Launched
      (ground.opened port scope 0 role.profile.listen) :=
  launched_of_fresh _ _ _ hnumbered fun _ hl ↦ (of_mem_opened hl).2

variable (role localId port scope ground reports) in
/-- All that bring-up can come to. -/
inductive BroughtUp : Except BringUpError (Switchboard × List Event) → Prop
  | refused {spec : ListenSpec} {reason : String} (hspec : spec ∈ role.profile.listen)
      (hprimary : spec.primary = true) :
      BroughtUp (.error (.transportBind (spec.address port scope).render reason))
  | silent (hlistens : role.profile.listens = false) :
      BroughtUp (.ok (.launch role localId port scope ground, reports))
  | nothing (hlistens : role.profile.listens = true)
      (hopened : ground.opened port scope 0 role.profile.listen = []) :
      BroughtUp (.error (.transportBind "*" "no listener could be opened"))
  | failed {e : BringUpError} {board : Switchboard} {left : List Event}
      (hopened : ground.opened port scope 0 role.profile.listen ≠ [])
      (hwait : (Switchboard.launch role localId port scope ground).Wait reports
        (.error e, board, left)) :
      BroughtUp (.error e)
  | waited {board : Switchboard} {left : List Event}
      (hopened : ground.opened port scope 0 role.profile.listen ≠ [])
      (hprimary : ∀ spec ∈ role.profile.listen, spec.primary = true →
        ∃ l ∈ ground.opened port scope 0 role.profile.listen, l.primary = true)
      (hwait : (Switchboard.launch role localId port scope ground).Wait reports
        (.ok (), board, left)) :
      BroughtUp (.ok (board, left))

theorem broughtUp : BroughtUp role localId port scope ground reports
    (bringUp role localId port scope ground reports) := by
  let board := Switchboard.init localId (role.profile.reachability == .dialable) role.profile.routes
  have hopening : board.Opening ground port scope 0 role.profile.listen _ := board.opening
  rw [bringUp]
  generalize Switchboard.openListeners ground port scope 0 role.profile.listen _ = result
    at hopening ⊢
  cases hopening with
  | refused hspec hprimary => exact .refused hspec hprimary
  | opened hprimary =>
    have hlaunch : { board with
        listeners := board.listeners ++ ground.opened port scope 0 role.profile.listen } =
          Switchboard.launch role localId port scope ground := rfl
    rw [hlaunch]
    dsimp only
    split
    · next hlistens =>
      split
      · next hopened => exact .nothing hlistens (List.isEmpty_iff.1 hopened)
      · next hopened =>
        have hwait := (Switchboard.launch role localId port scope ground).wait reports
        have hne := mt List.isEmpty_iff.2 hopened
        generalize Switchboard.settle _ reports = outcome at hwait ⊢
        obtain ⟨result, board, left⟩ := outcome
        cases result with
        | error e => exact .failed hne hwait
        | ok _ => exact .waited hne hprimary hwait
    · next hlistens => exact .silent (Bool.not_eq_true _ ▸ hlistens)

/-- A host with one listener does not go on before time is up without having heard from it. -/
theorem listeners_ne_nil_of_single {spec : ListenSpec} (hspec : role.profile.listen = [spec])
    (hprimary : spec.primary = true)
    (hnumbered : Numbered (ground.opened port scope 0 role.profile.listen))
    {board : Switchboard} {left : List Event}
    (h : bringUp role localId port scope ground reports = .ok (board, left)) :
    board.listeners ≠ [] := by
  have hresult : BroughtUp role localId port scope ground reports _ := broughtUp
  rw [h] at hresult
  cases hresult with
  | silent hsilent =>
    rw [Role.Profile.listens, hspec] at hsilent
    cases hsilent
  | waited hopened _ hwait =>
    have hlaunched : (Switchboard.launch role localId port scope ground).Launched _ :=
      Switchboard.launched_launch hnumbered
    rw [hspec] at hopened hlaunched
    obtain ⟨l, hl, hlprimary⟩ := exists_opened_single hopened
    exact hlaunched.listeners_ne_nil_of_single hl (hlprimary.trans hprimary) hwait

/-- A bring-up that goes on before time is up has heard from a listener, or all listeners have
ended, the primary one while it was in use. -/
theorem heard_or_ended_of_bringUp (hlistens : role.profile.listens = true)
    (hnumbered : Numbered (ground.opened port scope 0 role.profile.listen))
    {board : Switchboard} {left : List Event}
    (h : bringUp role localId port scope ground reports = .ok (board, left))
    (hready : board.isReady = true) :
    ∃ seen, reports = seen ++ left ∧
      ((∃ l ∈ board.listeners, l.addresses ≠ []) ∨
        board.listeners = [] ∧ ∀ l ∈ ground.opened port scope 0 role.profile.listen,
          (∃ e ∈ seen, e.ends l.id = true) ∧ (l.primary = true → EndedInUse l.id seen)) := by
  have hresult : BroughtUp role localId port scope ground reports _ := broughtUp
  rw [h] at hresult
  cases hresult with
  | silent hsilent => cases hlistens.symm.trans hsilent
  | waited _ _ hwait => exact (Switchboard.launched_launch hnumbered).heard_or_ended hwait hready

/-- **If all listeners fail**, bring-up fails, provided that one of them is primary or none was
opened. -/
theorem transportBind_of_allFailed (hlistens : role.profile.listens = true)
    (hnumbered : Numbered (ground.opened port scope 0 role.profile.listen))
    (hfailed : AllFailed (ground.opened port scope 0 role.profile.listen) reports)
    (hsome : ground.opened port scope 0 role.profile.listen = [] ∨
      ∃ spec ∈ role.profile.listen, spec.primary = true) :
    ∃ addr reason, bringUp role localId port scope ground reports =
      .error (.transportBind addr reason) := by
  have hlaunched : (Switchboard.launch role localId port scope ground).Launched _ :=
    Switchboard.launched_launch hnumbered
  have hresult : BroughtUp role localId port scope ground reports _ := broughtUp
  generalize bringUp role localId port scope ground reports = result at hresult ⊢
  cases hresult with
  | silent hsilent => cases hlistens.symm.trans hsilent
  | refused hspec hprimary => exact ⟨_, _, rfl⟩
  | nothing => exact ⟨_, _, rfl⟩
  | failed _ hwait =>
    obtain ⟨before, last, -, hfailure⟩ := hlaunched.failure_of_wait hwait
    obtain ⟨l, -, -, -, -, reason, rfl⟩ := Event.of_failure?_eq_some hfailure
    exact ⟨_, _, rfl⟩
  | waited hopened hprimary hwait =>
    obtain ⟨spec, hspec, hspecPrimary⟩ := hsome.resolve_left hopened
    obtain ⟨l, hl, hlprimary⟩ := hprimary spec hspec hspecPrimary
    exact (hlaunched.not_wait_ok_of_allFailed hfailed hl hlprimary hwait).elim

/-- **If all listeners fail** and none of them is primary, bring-up goes on without a listener. -/
theorem ready_of_allFailed (hlistens : role.profile.listens = true)
    (hnumbered : Numbered (ground.opened port scope 0 role.profile.listen))
    (hfailed : AllFailed (ground.opened port scope 0 role.profile.listen) reports)
    (hopened : ground.opened port scope 0 role.profile.listen ≠ [])
    (hnone : ∀ spec ∈ role.profile.listen, spec.primary = false) :
    ∃ board left, bringUp role localId port scope ground reports = .ok (board, left) ∧
      board.isReady = true ∧ board.listeners = [] := by
  have hlaunched : (Switchboard.launch role localId port scope ground).Launched _ :=
    Switchboard.launched_launch hnumbered
  have hsecondary : ∀ l ∈ ground.opened port scope 0 role.profile.listen, l.primary = false := by
    intro l hl
    obtain ⟨⟨spec, hspec, heq⟩, -⟩ := of_mem_opened hl
    exact heq.trans (hnone spec hspec)
  have hresult : BroughtUp role localId port scope ground reports _ := broughtUp
  generalize bringUp role localId port scope ground reports = result at hresult ⊢
  cases hresult with
  | silent hsilent => cases hlistens.symm.trans hsilent
  | refused hspec hprimary => cases (hnone _ hspec).symm.trans hprimary
  | nothing _ hnil => exact absurd hnil hopened
  | failed _ hwait =>
    obtain ⟨_, _, houtcome, -⟩ := hlaunched.wait_of_allFailed hfailed hsecondary hwait
    cases houtcome
  | waited _ _ hwait =>
    obtain ⟨_, _, houtcome, hready, hnil⟩ := hlaunched.wait_of_allFailed hfailed hsecondary hwait
    cases houtcome
    exact ⟨_, _, rfl, hready, hnil⟩

/-- **When bring-up is ready.** Let a role that listens be brought up, and let the network number
its listeners differently.

1. If bring-up goes on before time is up, one of its listeners has an address, or the reports
   that were read have ended all listeners, the primary one while it was in use. The latter does
   not happen to a bootstrap host.
2. If all listeners fail before they have an address, bring-up fails, provided that one of them is
   primary or none was opened.
3. Otherwise it goes on at once, without a listener. -/
theorem bringUp_ready (role : Role) (localId : PeerId) (port : UInt16) (scope : ListenScope)
    (ground : Ground) (reports : List Event) (hlistens : role.profile.listens = true)
    (hnumbered : Numbered (ground.opened port scope 0 role.profile.listen)) :
    let opened := ground.opened port scope 0 role.profile.listen
    let result := bringUp role localId port scope ground reports
    (∀ board left, result = .ok (board, left) → board.isReady = true →
      ∃ seen, reports = seen ++ left ∧
        ((∃ l ∈ board.listeners, l.addresses ≠ []) ∨
          role ≠ .bootstrap ∧ board.listeners = [] ∧
            ∀ l ∈ opened, (∃ e ∈ seen, e.ends l.id = true) ∧
              (l.primary = true → EndedInUse l.id seen))) ∧
      (AllFailed opened reports →
        (opened = [] ∨ ∃ spec ∈ role.profile.listen, spec.primary = true) →
          ∃ addr reason, result = .error (.transportBind addr reason)) ∧
      (AllFailed opened reports → opened ≠ [] →
        (∀ spec ∈ role.profile.listen, spec.primary = false) →
          ∃ board left, result = .ok (board, left) ∧ board.isReady = true ∧
            board.listeners = []) := by
  intro opened result
  refine ⟨fun board left hok hready ↦ ?_, transportBind_of_allFailed hlistens hnumbered,
    ready_of_allFailed hlistens hnumbered⟩
  obtain ⟨seen, hseen, hheard | ⟨hnil, hended⟩⟩ :=
    heard_or_ended_of_bringUp hlistens hnumbered hok hready
  · exact ⟨seen, hseen, .inl hheard⟩
  · have hrole : role ≠ .bootstrap := by
      rintro rfl
      exact listeners_ne_nil_of_single rfl rfl hnumbered hok hnil
    exact ⟨seen, hseen, .inr ⟨hrole, hnil, hended⟩⟩

/-- A relay whose primary listener gets a new address in place of one that expired, after its other
listener has failed; a last report is not read any more. -/
theorem bringUp_ready_of_relay :
    let ground : Ground := ⟨fun _ ↦ .ok (), fun n _ ↦ .ok n⟩
    let reports : List Event :=
      [.listening 0 [.memory 1], .expired 0 [.memory 1], .listenerFailed 1 "no route",
        .listening 0 [.memory 2], .listenerClosed 0 none]
    let opened := ground.opened 0 .loopback 0 Role.relay.profile.listen
    Role.relay.profile.listens = true ∧ Numbered opened ∧
      ∃ board left, bringUp .relay ⟨⟨0, [4]⟩, rfl⟩ 0 .loopback ground reports = .ok (board, left) ∧
        board.isReady = true ∧ left = [.listenerClosed 0 none] ∧
        ∃ l ∈ board.listeners, l.addresses ≠ [] := by
  intro ground reports opened
  have hnumbered : Numbered opened := by decide
  refine ⟨rfl, hnumbered, _, _, rfl, rfl, rfl, ?_⟩
  obtain ⟨hheard, -⟩ :=
    bringUp_ready .relay ⟨⟨0, [4]⟩, rfl⟩ 0 .loopback ground reports rfl hnumbered
  obtain ⟨_, -, hheard | ⟨-, hnil, -⟩⟩ := hheard _ _ rfl rfl
  · exact hheard
  · cases hnil

/-- **A host can come up without a listener**: a node runner whose four listeners all fail, and a
relay whose primary listener is closed after it had an address, and then the other one. -/
theorem comes_up_without_listener :
    let ground : Ground := ⟨fun _ ↦ .ok (), fun n _ ↦ .ok n⟩
    (∃ board left, bringUp .nodeRunner ⟨⟨0, [4]⟩, rfl⟩ 0 .loopback ground
        [.listenerFailed 0 "gone", .listenerClosed 1 none, .listenerFailed 2 "gone",
          .listenerClosed 3 none] = .ok (board, left) ∧
      board.isReady = true ∧ board.listeners = []) ∧
    ∃ board left, bringUp .relay ⟨⟨0, [4]⟩, rfl⟩ 0 .loopback ground
        [.listening 0 [.memory 1], .listenerClosed 0 none, .listenerClosed 1 none] =
          .ok (board, left) ∧
      board.isReady = true ∧ board.listeners = [] :=
  ⟨⟨_, _, rfl, rfl, rfl⟩, _, _, rfl, rfl, rfl⟩

end BringUp

end Overlay.Host
