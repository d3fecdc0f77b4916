import Mathlib.Data.List.Induction
import Overlay.Proofs.Host.Readiness

/-!
# What settles a wait

A wait for listeners goes by the reports alone. `Loses` says of one report that it ends a primary
listener which has no address at that time, `Lost` that some report has done so, and `Heard` that
every listener that no report has ended has an address. A wait that is settled by the fewest
reports after which one of the two holds (`Decisive`), and by nothing else, is what
`settle_outcome` is about.

The link to the switchboard is that its failure is empty as long as nothing is lost
(`lostPrimary_after_eq_none_iff`); so a loss is never older than the last report, and since the
failure is asked for before readiness is, it does not matter that the report that ends the primary
listener may leave only listeners that have been heard.
-/

namespace Overlay.Host

/-! ### A wait has one outcome -/

namespace Switchboard

variable {s : Switchboard}

theorem settle_of_settled {seen left : List Event} {result : Except BringUpError Unit}
    {board : Switchboard}
    (hbefore : ∀ early e late, seen = early ++ e :: late → (s.after early).settled? = none)
    (hsettled : (s.after seen).settled? = some (result, board)) :
    s.settle (seen ++ left) = (result, board, left) := by
  induction seen generalizing s with
  | nil =>
    have hnow : s.settled? = some (result, board) := hsettled
    cases left with
    | nil => rw [List.append_nil, settle, hnow]
    | cons e left => rw [List.nil_append, settle, hnow]
  | cons e seen ih =>
    have hnone : s.settled? = none := hbefore [] e seen rfl
    rw [List.cons_append, settle, hnone]
    exact ih (fun early x late hsplit ↦ hbefore (e :: early) x late (congrArg _ hsplit)) hsettled

theorem settle_of_late {seen : List Event}
    (hbefore : ∀ early late, seen = early ++ late → (s.after early).settled? = none) :
    s.settle seen = (.ok (), s.after seen, []) := by
  induction seen generalizing s with
  | nil =>
    have hnone : s.settled? = none := hbefore [] [] rfl
    rw [settle, hnone]
    rfl
  | cons e seen ih =>
    have hnone : s.settled? = none := hbefore [] (e :: seen) rfl
    rw [settle, hnone]
    exact ih fun early late hsplit ↦ hbefore (e :: early) late (congrArg _ hsplit)

end Switchboard

/-! ### What the reports decide -/

section

variable (opened : List Listener)

/-- After the reports `before`, a further one ends a primary listener which none of them has ended
and which they have left without an address. -/
def Loses (before : List Event) (e : Event) (error : BringUpError) : Prop :=
  ∃ l ∈ opened, l.primary = true ∧ (∀ x ∈ before, x.ends l.id = false) ∧
    standing l.id before = [] ∧
      ∃ reason, e.ending? = some (l.id, reason) ∧
        error = .transportBind l.requested.render reason

/-- A primary listener has ended while it had no address. -/
def Lost (reports : List Event) (error : BringUpError) : Prop :=
  ∃ before e after, reports = before ++ e :: after ∧ Loses opened before e error

/-- Every listener that no report has ended has an address. -/
def Heard (reports : List Event) : Prop :=
  ∀ l ∈ opened, (∀ e ∈ reports, e.ends l.id = false) → standing l.id reports ≠ []

/-- A primary listener is lost, or all that are left have been heard. -/
def Decided (reports : List Event) : Prop :=
  (∃ error, Lost opened reports error) ∨ Heard opened reports

/-- The reports decide, and fewer of them did not. -/
structure Decisive (reports : List Event) : Prop where
  decided : Decided opened reports
  shortest : ∀ early e late, reports = early ++ e :: late → ¬ Decided opened early

variable {opened}

theorem lost_concat_iff {reports : List Event} {e : Event} {error : BringUpError} :
    Lost opened (reports ++ [e]) error ↔
      Lost opened reports error ∨ Loses opened reports e error := by
  constructor
  · rintro ⟨before, x, after, hsplit, hloses⟩
    rcases List.eq_nil_or_concat after with rfl | ⟨after, last, rfl⟩
    · obtain ⟨rfl, hx⟩ := List.append_inj' hsplit rfl
      cases hx
      exact .inr hloses
    · rw [List.concat_eq_append, ← List.cons_append, ← List.append_assoc] at hsplit
      obtain ⟨rfl, -⟩ := List.append_inj' hsplit rfl
      exact .inl ⟨before, x, after, rfl, hloses⟩
  · rintro (⟨before, x, after, rfl, hloses⟩ | hloses)
    · exact ⟨before, x, after ++ [e], by simp, hloses⟩
    · exact ⟨reports, e, [], rfl, hloses⟩

theorem Numbered.eq_of_id_eq {listeners : List Listener} (hnumbered : Numbered listeners)
    {l o : Listener} (hl : l ∈ listeners) (ho : o ∈ listeners) (hid : l.id = o.id) : l = o := by
  obtain ⟨before, after, rfl, hothers⟩ := hnumbered.exists_split ho
  rcases List.mem_append.1 hl with hl | hl
  · exact absurd hid (hothers l (List.mem_append_left _ hl))
  · rcases List.mem_cons.1 hl with rfl | hl
    · rfl
    · exact absurd hid (hothers l (List.mem_append_right _ hl))

theorem lost?_of_mem {listeners : List Listener} (hnumbered : Numbered listeners) {l : Listener}
    (hl : l ∈ listeners) (hprimary : l.primary = true) (haddresses : l.addresses = [])
    (reason : String) :
    lost? listeners l.id reason = some (.transportBind l.requested.render reason) := by
  rw [lost?, Option.map_eq_some_iff]
  refine ⟨l, ?_, rfl⟩
  cases hfind : listeners.find? fun x ↦ x.id = l.id ∧ x.primary = true ∧ x.addresses = [] with
  | none =>
    have hnot := List.find?_eq_none.1 hfind l hl
    simp [hprimary, haddresses] at hnot
  | some x =>
    have hfound : x.id = l.id ∧ x.primary = true ∧ x.addresses = [] := by
      simpa using List.find?_some hfind
    rw [hnumbered.eq_of_id_eq (List.mem_of_find?_eq_some hfind) hl hfound.1]

/-- The failure that a report brings about is the loss of a primary listener. -/
theorem failure?_eq_some_iff_loses (hnumbered : Numbered opened) {before : List Event} {e : Event}
    {error : BringUpError} :
    e.failure? (tracked opened before) = some error ↔ Loses opened before e error := by
  rw [Event.failure?, Option.bind_eq_some_iff]
  constructor
  · rintro ⟨⟨id, reason⟩, hending, hlost⟩
    obtain ⟨l, hl, rfl, hprimary, haddresses, rfl⟩ := of_lost?_eq_some hlost
    obtain ⟨o, ho, hopen, rfl⟩ := mem_tracked_iff.1 hl
    exact ⟨o, ho, hprimary, hopen, haddresses, reason, hending, rfl⟩
  · rintro ⟨l, hl, hprimary, hopen, haddresses, reason, hending, rfl⟩
    have hmem := mem_tracked_iff.2 ⟨l, hl, hopen, rfl⟩
    exact ⟨(l.id, reason), hending,
      lost?_of_mem (hnumbered.tracked before) hmem hprimary haddresses reason⟩

/-- The report that loses a primary listener is about no other listener. -/
theorem Loses.of_ends (hnumbered : Numbered opened) {before : List Event} {e : Event}
    {error : BringUpError} (h : Loses opened before e error) {l : Listener} (hl : l ∈ opened)
    (hends : e.ends l.id = true) :
    l.primary = true ∧ standing l.id before = [] := by
  obtain ⟨o, ho, hprimary, -, haddresses, reason, hending, -⟩ := h
  obtain ⟨reason', hending'⟩ := Event.ends_eq_true_iff.1 hends
  have hid : o.id = l.id := (Prod.mk.inj (Option.some.inj (hending.symm.trans hending'))).1
  obtain rfl := hnumbered.eq_of_id_eq ho hl hid
  exact ⟨hprimary, haddresses⟩

/-! ### The switchboard is settled by what the reports decide -/

namespace Switchboard.Launched

variable {s : Switchboard} (h : s.Launched opened)

include h

/-- There is no failure as long as nothing is lost. -/
theorem lostPrimary_after_eq_none_iff (reports : List Event) :
    (s.after reports).lostPrimary = none ↔ ∀ error, ¬ Lost opened reports error := by
  induction reports using List.reverseRecOn with
  | nil =>
    refine ⟨fun _ error hlost ↦ ?_, fun _ ↦ h.lostPrimary⟩
    obtain ⟨before, e, after, hsplit, -⟩ := hlost
    simp at hsplit
  | append_singleton reports e ih =>
    have hfailure : e.failure? (tracked opened reports) = none ↔
        ∀ error, ¬ Loses opened reports e error := by
      rw [Option.eq_none_iff_forall_ne_some]
      exact forall_congr' fun error ↦ not_congr (failure?_eq_some_iff_loses h.numbered)
    rw [h.lostPrimary_after_concat, Option.or_eq_none_iff, hfailure, ih, ← forall_and]
    refine forall_congr' fun error ↦ ?_
    rw [lost_concat_iff, not_or, and_comm]

/-- The wait is settled exactly when the reports have decided. -/
theorem settled?_after_eq_none_iff (reports : List Event) :
    (s.after reports).settled? = none ↔ ¬ Decided opened reports := by
  rw [settled?_eq_none_iff, h.lostPrimary_after_eq_none_iff, ← Bool.not_eq_true,
    h.isReady_after_iff, Decided, not_or, not_exists, Heard]

/-- A loss that nothing has decided before is the failure of the wait. -/
theorem lostPrimary_after_of_lost {seen : List Event} {error : BringUpError}
    (hseen : Decisive opened seen) (hlost : Lost opened seen error) :
    (s.after seen).lostPrimary = some error := by
  obtain ⟨before, e, after, hsplit, hloses⟩ := hlost
  have hlast : after = [] := by
    cases after with
    | nil => rfl
    | cons x after =>
      -- otherwise fewer reports would have decided
      refine absurd (.inl ⟨error, before, e, [], rfl, hloses⟩)
        (hseen.shortest (before ++ [e]) x after ?_)
      simp [hsplit]
  subst hlast
  have hnone := (settled?_eq_none_iff.1 ((h.settled?_after_eq_none_iff before).2
    (hseen.shortest before e [] hsplit))).1
  rw [hsplit, h.lostPrimary_after_concat, hnone, Option.or_none]
  exact (failure?_eq_some_iff_loses h.numbered).2 hloses

theorem settle_of_lost {seen left : List Event} {error : BringUpError}
    (hseen : Decisive opened seen) (hlost : Lost opened seen error) :
    s.settle (seen ++ left) = (.error error, { s.after seen with lostPrimary := none }, left) := by
  refine settle_of_settled (fun early e late hsplit ↦ ?_)
    (settled?_eq_error_iff.2 ⟨h.lostPrimary_after_of_lost hseen hlost, rfl⟩)
  exact (h.settled?_after_eq_none_iff early).2 (hseen.shortest early e late hsplit)

theorem settle_of_heard {seen left : List Event} (hseen : Decisive opened seen)
    (hnone : ∀ error, ¬ Lost opened seen error) :
    s.settle (seen ++ left) = (.ok (), s.after seen, left) := by
  have hheard : Heard opened seen := hseen.decided.resolve_left (not_exists.2 hnone)
  refine settle_of_settled (fun early e late hsplit ↦ ?_)
    (settled?_eq_ok_iff.2 ⟨(h.lostPrimary_after_eq_none_iff seen).2 hnone,
      (h.isReady_after_iff seen).2 hheard, rfl⟩)
  exact (h.settled?_after_eq_none_iff early).2 (hseen.shortest early e late hsplit)

theorem settle_of_undecided {reports : List Event}
    (hundecided : ∀ early late, reports = early ++ late → ¬ Decided opened early) :
    s.settle reports = (.ok (), s.after reports, []) :=
  settle_of_late fun early late hsplit ↦
    (h.settled?_after_eq_none_iff early).2 (hundecided early late hsplit)

end Switchboard.Launched

/-- **Only the loss of a primary listener is fatal, and it always is.** Let listeners be opened that
the network numbers differently, and let a wait for them hear of some reports.

1. If the fewest reports that decide lose a primary listener, the wait ends with them, and its error
   names the address on which that listener was asked to listen. This holds even if all other
   listeners have been heard by then.
2. If the fewest reports that decide lose none, so that every listener that is left has been heard,
   the wait ends with them and all is well.
3. If the reports do not decide before time is up, all is well too.
4. An error is the work of the last report that was read: it ended a primary listener without an
   address, and no listener that is secondary or has an address. -/
theorem settle_outcome (localId : PeerId) (dialable routes : Bool) {opened : List Listener}
    (hnumbered : Numbered opened) (hfresh : ∀ l ∈ opened, l.addresses = [])
    (reports : List Event) :
    let board := { Switchboard.init localId dialable routes with listeners := opened }
    (∀ seen left error, reports = seen ++ left → Decisive opened seen → Lost opened seen error →
      board.settle reports =
        (.error error, { board.after seen with lostPrimary := none }, left)) ∧
      (∀ seen left, reports = seen ++ left → Decisive opened seen →
        (∀ error, ¬ Lost opened seen error) →
          Heard opened seen ∧ board.settle reports = (.ok (), board.after seen, left)) ∧
      ((∀ early late, reports = early ++ late → ¬ Decided opened early) →
        board.settle reports = (.ok (), board.after reports, [])) ∧
      ∀ error board' left, board.settle reports = (.error error, board', left) →
        ∃ before last, reports = before ++ last :: left ∧ Loses opened before last error ∧
          ∀ l ∈ opened, last.ends l.id = true →
            l.primary = true ∧ standing l.id before = [] := by
  intro board
  have hlaunched : board.Launched opened :=
    Switchboard.launched_of_fresh localId dialable routes hnumbered hfresh
  refine ⟨?_, ?_, hlaunched.settle_of_undecided, fun error board' left houtcome ↦ ?_⟩
  · rintro seen left error rfl hseen hlost
    exact hlaunched.settle_of_lost hseen hlost
  · rintro seen left rfl hseen hnone
    exact ⟨hseen.decided.resolve_left (not_exists.2 hnone), hlaunched.settle_of_heard hseen hnone⟩
  · obtain ⟨before, last, hsplit, hfailure⟩ :=
      hlaunched.failure_of_wait (houtcome ▸ board.wait reports)
    have hloses := (failure?_eq_some_iff_loses hnumbered).1 hfailure
    exact ⟨before, last, hsplit, hloses, fun l hl hends ↦ hloses.of_ends hnumbered hl hends⟩

/-- The primary listener of a relay is closed after its address has expired, when the other one has
been heard; a last report is not read any more. -/
theorem settle_outcome_of_relay :
    let opened : List Listener :=
      [⟨0, [.ip4 .loopback, .port .tcp 1240], true, []⟩,
        ⟨1, [.ip6 .loopback, .port .tcp 0], false, []⟩]
    let board :=
      { Switchboard.init ⟨⟨0, [4]⟩, rfl⟩ true true with listeners := opened }
    let seen : List Event :=
      [.listening 0 [.memory 1], .expired 0 [.memory 1], .listening 1 [.memory 2],
        .listenerClosed 0 none]
    let left : List Event := [.listening 0 [.memory 3]]
    let error : BringUpError := .transportBind "/ip4/127.0.0.1/tcp/1240" "listener closed"
    Numbered opened ∧ (∀ l ∈ opened, l.addresses = []) ∧ Decisive opened seen ∧
      Lost opened seen error ∧ Heard opened seen ∧
      board.settle (seen ++ left) =
        (.error error, { board.after seen with lostPrimary := none }, left) := by
  intro opened board seen left error
  have hnumbered : Numbered opened := by decide
  have hfresh : ∀ l ∈ opened, l.addresses = [] := by decide
  have hlaunched : board.Launched opened :=
    Switchboard.launched_of_fresh _ true true hnumbered hfresh
  have hlost : Lost opened seen error :=
    ⟨seen.take 3, .listenerClosed 0 none, [], rfl, _, List.mem_cons_self, rfl, by decide, by decide,
      _, rfl, rfl⟩
  have hunsettled : ∀ n < 4, (board.after (seen.take n)).settled?.isNone = true := by decide
  have hseen : Decisive opened seen := by
    refine ⟨.inl ⟨error, hlost⟩, fun early e late hsplit ↦ ?_⟩
    have hearly : early = seen.take early.length := by rw [hsplit, List.take_left]
    have hlength : early.length < 4 := by
      have hall : seen.length = 4 := rfl
      rw [hsplit, List.length_append, List.length_cons] at hall
      omega
    rw [hearly]
    exact (hlaunched.settled?_after_eq_none_iff _).1 (Option.isNone_iff_eq_none.1
      (hunsettled _ hlength))
  obtain ⟨hlosing, -⟩ := settle_outcome ⟨⟨0, [4]⟩, rfl⟩ true true hnumbered hfresh (seen ++ left)
  exact ⟨hnumbered, hfresh, hseen, hlost, by unfold Heard; decide,
    hlosing seen left error rfl hseen hlost⟩

end

end Overlay.Host
