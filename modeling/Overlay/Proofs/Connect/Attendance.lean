import Overlay.Connect.Plan
import Overlay.Proofs.Deadline

/-!
# Connecting to many peers at once

`Connect.all` is as good as its attempts are independent. `attempts_eq` says that they are:
each attempt is what `Attempt.ofWork` makes of the answer to its own peer, and the dialer is asked
once for each place of the list, in its order, or not at all. What an attempt comes to is then
decided by the race of `Overlay.Proofs.Deadline`.

The attendance is a fold over the attempts. For the peers that were connected it is a filter; for
the failures one step, `find?_record`, says what becomes of a peer's entry, and by induction
`find?_failures_iff` says that its last failure stays.
-/

namespace Overlay

variable {σ : Type}

/-- What a dialer answers to some peers that are asked for one after another, and its state
after that. -/
def Dialer.askAll (dial : Dialer σ) : List Contact → σ → List (Delayed Dialed) × σ
  | [], s => ([], s)
  | peer :: rest, s =>
    let (work, s) := dial peer s
    let (works, s) := askAll dial rest s
    (work :: works, s)

theorem Dialer.length_askAll (dial : Dialer σ) (peers : List Contact) (s : σ) :
    (dial.askAll peers s).1.length = peers.length := by
  induction peers generalizing s with
  | nil => rfl
  | cons peer rest ih => exact congrArg (· + 1) (ih _)

namespace Connect

/-! ### The attempts -/

variable (policy : Policy) (start : Nat)

/-- The attempts that follow from what the dialer would answer to each of the peers. -/
def ofWorks (peers : List Contact) (works : List (Delayed Dialed)) : List Attempt :=
  List.zipWith (fun peer work ↦ .ofWork policy start peer.id work) peers works

@[simp] theorem ofWorks_cons (peer : Contact) (rest : List Contact) (work : Delayed Dialed)
    (works : List (Delayed Dialed)) :
    ofWorks policy start (peer :: rest) (work :: works) =
      .ofWork policy start peer.id work :: ofWorks policy start rest works := rfl

/-- An attempt that may not begin is cancelled, whatever would have come of it. -/
theorem ofWork_of_not_admits (h : ¬ policy.admits start = true) (peer : PeerId)
    (work : Delayed Dialed) :
    Attempt.ofWork policy start peer work = ⟨peer, start, .error .cancelled⟩ := by
  rw [Attempt.ofWork, policy.bounded_of_not_admits start h]
  rfl

/-- **The attempts are independent.** -/
theorem attempts_eq (dial : Dialer σ) (peers : List Contact) (s : σ) :
    attempts policy dial start peers s =
      (ofWorks policy start peers (dial.askAll peers s).1,
        if policy.admits start then (dial.askAll peers s).2 else s) := by
  by_cases h : policy.admits start = true
  · rw [if_pos h]
    induction peers generalizing s with
    | nil => rfl
    | cons peer rest ih =>
      simp only [attempts, attempt, if_pos h, ih, Dialer.askAll, ofWorks_cons]
  · rw [if_neg h]
    -- Nobody is asked here, so the two recursions agree only in what they make of the answers.
    suffices hany : ∀ works : List (Delayed Dialed), works.length = peers.length →
        attempts policy dial start peers s = (ofWorks policy start peers works, s) from
      hany _ (dial.length_askAll peers s)
    intro works hlength
    induction peers generalizing works with
    | nil => rfl
    | cons peer rest ih =>
      cases works with
      | nil => cases hlength
      | cons work works =>
        have hrest := ih works (Nat.succ.inj hlength)
        simp only [attempts, attempt, if_neg h, hrest, ofWorks_cons,
          ofWork_of_not_admits policy start h]

/-- An attempt knows of nothing but the id of its peer and the answer to it. -/
theorem getElem?_ofWorks (peers : List Contact) (works : List (Delayed Dialed)) (i : Nat) :
    (ofWorks policy start peers works)[i]? =
      match (peers[i]?).map Contact.id, works[i]? with
      | some id, some work => some (.ofWork policy start id work)
      | _, _ => none := by
  rw [ofWorks, List.getElem?_zipWith]
  cases peers[i]? <;> cases works[i]? <;> rfl

/-! ### One attempt -/

variable (peer : PeerId)

theorem ended_ofWork (work : Delayed Dialed) :
    (Attempt.ofWork policy start peer work).ended = start + policy.span start work := by
  rw [← policy.bounded_fst start work, Attempt.ofWork]
  split <;> simp [*]

theorem peer_ofWork (work : Delayed Dialed) :
    (Attempt.ofWork policy start peer work).peer = peer := by
  rw [Attempt.ofWork]
  split <;> rfl

theorem ofWork_of_allows {delay : Nat} (result : Dialed)
    (hcancel : ∀ C ∈ policy.cancelAt, start + delay < C) (hdeadline : delay ≤ policy.timeout) :
    Attempt.ofWork policy start peer (.after delay result) = ⟨peer, start + delay, result⟩ := by
  have hallows : (policy.limits start).allows (start + delay) = true :=
    (policy.allows_limits_iff start _).2 ⟨hcancel, Nat.add_le_add_left hdeadline start⟩
  rw [Attempt.ofWork, policy.bounded_of_allows start result hallows]

theorem ofWork_of_cancelled {work : Delayed Dialed} {C : Nat} (hC : C ∈ policy.cancelAt)
    (hlate : ∀ delay result, work = .after delay result → C ≤ start + delay)
    (hle : C ≤ start + policy.timeout) :
    Attempt.ofWork policy start peer work = ⟨peer, max start C, .error .cancelled⟩ := by
  have hbounded := policy.bounded_of_late start fun delay result hwork hallows ↦
    Nat.not_lt_of_le (hlate delay result hwork)
      (((policy.allows_limits_iff start _).1 hallows).1 C hC)
  rw [Attempt.ofWork, hbounded, policy.cutoff_of_le start hC hle]
  rfl

theorem ofWork_of_timeout {work : Delayed Dialed}
    (hlate : ∀ delay result, work = .after delay result → policy.timeout < delay)
    (hcancel : ∀ C ∈ policy.cancelAt, start + policy.timeout < C) :
    Attempt.ofWork policy start peer work =
      ⟨peer, start + policy.timeout, .error .timeout⟩ := by
  have hbounded := policy.bounded_of_late start fun delay result hwork hallows ↦ by
    have hdeadline := ((policy.allows_limits_iff start _).1 hallows).2
    have hdelay := hlate delay result hwork
    omega
  rw [Attempt.ofWork, hbounded, policy.cutoff_of_lt start hcancel]
  rfl

end Connect

namespace Attendance

open Connect

/-! ### Who was connected -/

theorem succeeded_foldl (made : List Attempt) (a : Attendance) :
    (made.foldl record a).succeeded =
      a.succeeded ++ (made.filter fun attempt ↦ attempt.result = .ok ()).map Attempt.peer := by
  induction made generalizing a with
  | nil => simp
  | cons attempt rest ih =>
    rw [List.foldl_cons, ih, record]
    split <;> simp [*]

/-! ### Who failed -/

/-- The last failure of a peer among some attempts. -/
def LastFailure (made : List Attempt) (id : PeerId) (e : ConnectError) : Prop :=
  ∃ before time later, made = before ++ ⟨id, time, .error e⟩ :: later ∧
    ∀ attempt ∈ later, attempt.peer = id → attempt.result = .ok ()

theorem not_lastFailure_nil (id : PeerId) (e : ConnectError) : ¬ LastFailure [] id e := by
  rintro ⟨before, time, later, h, -⟩
  exact List.append_ne_nil_of_right_ne_nil _ (List.cons_ne_nil _ _) h.symm

/-- A failure counts if it is followed by no other of the same peer. -/
theorem lastFailure_cons {attempt : Attempt} {rest : List Attempt} {id : PeerId}
    {e : ConnectError} :
    LastFailure (attempt :: rest) id e ↔
      LastFailure rest id e ∨
        ((∀ other ∈ rest, other.peer = id → other.result = .ok ()) ∧
          attempt.peer = id ∧ attempt.result = .error e) := by
  constructor
  · rintro ⟨before, time, later, h, hlater⟩
    cases before with
    | nil =>
      cases h
      exact .inr ⟨hlater, rfl, rfl⟩
    | cons first before =>
      cases h
      exact .inl ⟨before, time, later, rfl, hlater⟩
  · rintro (⟨before, time, later, rfl, hlater⟩ | ⟨hrest, rfl, hresult⟩)
    · exact ⟨attempt :: before, time, later, rfl, hlater⟩
    · obtain ⟨peer, time, result⟩ := attempt
      cases hresult
      exact ⟨[], time, rest, rfl, hrest⟩

/-- Who failed has a last failure. -/
theorem exists_lastFailure_iff {made : List Attempt} {id : PeerId} :
    (∃ e, LastFailure made id e) ↔
      ∃ attempt ∈ made, attempt.peer = id ∧ attempt.result ≠ .ok () := by
  constructor
  · rintro ⟨e, before, time, later, rfl, -⟩
    exact ⟨_, List.mem_append_right _ (List.mem_cons_self ..), rfl, nofun⟩
  · intro h
    induction made with
    | nil =>
      obtain ⟨attempt, hmem, -⟩ := h
      cases hmem
    | cons first rest ih =>
      -- a failure later in the list goes before one here
      by_cases hrest : ∃ attempt ∈ rest, attempt.peer = id ∧ attempt.result ≠ .ok ()
      · obtain ⟨e, he⟩ := ih hrest
        exact ⟨e, lastFailure_cons.2 (.inl he)⟩
      · have hclean : ∀ other ∈ rest, other.peer = id → other.result = .ok () :=
          fun other hmem hpeer ↦ Classical.byContradiction fun hresult ↦
            hrest ⟨other, hmem, hpeer, hresult⟩
        obtain ⟨attempt, hmem, hpeer, hresult⟩ := h
        rcases List.mem_cons.1 hmem with rfl | hmem
        · cases hattempt : attempt.result with
          | ok u => exact absurd hattempt hresult
          | error e => exact ⟨e, lastFailure_cons.2 (.inr ⟨hclean, hpeer, hattempt⟩)⟩
        · exact absurd (hclean attempt hmem hpeer) hresult

/-- What one more attempt makes of a peer's entry. -/
theorem find?_record (a : Attendance) (attempt : Attempt) (id : PeerId) (e : ConnectError) :
    Keyed.find? id (a.record attempt).failures = some e ↔
      (attempt.peer = id ∧ attempt.result = .error e) ∨
        ((attempt.peer = id → attempt.result = .ok ()) ∧
          Keyed.find? id a.failures = some e) := by
  rw [record]
  split
  · next hresult => simp [hresult]
  · next e' hresult =>
    by_cases hpeer : attempt.peer = id
    · subst hpeer
      simp [hresult]
    · simp [hpeer, Keyed.find?_put_of_ne (Ne.symm hpeer)]

theorem find?_failures_foldl (made : List Attempt) (a : Attendance) (id : PeerId)
    (e : ConnectError) :
    Keyed.find? id (made.foldl record a).failures = some e ↔
      LastFailure made id e ∨
        ((∀ attempt ∈ made, attempt.peer = id → attempt.result = .ok ()) ∧
          Keyed.find? id a.failures = some e) := by
  induction made generalizing a with
  | nil => simp [not_lastFailure_nil]
  | cons attempt rest ih =>
    rw [List.foldl_cons, ih, find?_record, lastFailure_cons, List.forall_mem_cons]
    simp only [and_or_left, or_assoc, and_assoc, and_left_comm]

theorem find?_failures_iff (made : List Attempt) (id : PeerId) (e : ConnectError) :
    Keyed.find? id (ofAttempts made).failures = some e ↔ LastFailure made id e := by
  rw [ofAttempts, find?_failures_foldl]
  simp [empty, Keyed.find?]

theorem nodup_failures (made : List Attempt) :
    ((ofAttempts made).failures.map Prod.fst).Nodup := by
  have hempty : (empty.failures.map Prod.fst).Nodup := List.nodup_nil
  rw [ofAttempts]
  generalize empty = a at hempty
  induction made generalizing a with
  | nil => exact hempty
  | cons attempt rest ih =>
    refine ih _ ?_
    rw [record]
    split
    · exact hempty
    · exact Keyed.nodup_keys_put hempty _ _

end Attendance

namespace Connect

/-! ### When it is over -/

theorem foldl_ended_ofWorks (policy : Policy) (start : Nat) {peers : List Contact}
    {works : List (Delayed Dialed)} (hlength : works.length = peers.length) {t : Nat}
    (ht : start ≤ t) :
    (ofWorks policy start peers works).foldl (fun t attempt ↦ max t attempt.ended) t =
      max t (start + (works.map (policy.span start)).foldr max 0) := by
  induction peers generalizing works t with
  | nil =>
    rw [List.length_eq_zero_iff.1 hlength]
    exact (Nat.max_eq_left ht).symm
  | cons peer rest ih =>
    cases works with
    | nil => cases hlength
    | cons work works =>
      have hrest := ih (Nat.succ.inj hlength)
        (Nat.le_trans ht (Nat.le_max_left t (start + policy.span start work)))
      rw [ofWorks_cons, List.foldl_cons, ended_ofWork, hrest, List.map_cons, List.foldr_cons,
        Nat.max_assoc, Nat.add_max_add_left]

theorem map_peer_ofWorks (policy : Policy) (start : Nat) {peers : List Contact}
    {works : List (Delayed Dialed)} (hlength : works.length = peers.length) :
    (ofWorks policy start peers works).map Attempt.peer = peers.map Contact.id := by
  induction peers generalizing works with
  | nil => rfl
  | cons peer rest ih =>
    cases works with
    | nil => cases hlength
    | cons work works =>
      have hrest := ih (Nat.succ.inj hlength)
      rw [ofWorks_cons, List.map_cons, List.map_cons, peer_ofWork, hrest]

theorem foldr_span_le (policy : Policy) (start : Nat) (works : List (Delayed Dialed)) :
    (works.map (policy.span start)).foldr max 0 ≤ policy.timeout := by
  induction works with
  | nil => exact Nat.zero_le _
  | cons work works ih => exact Nat.max_le.2 ⟨policy.span_le_timeout start work, ih⟩

/-- What is made of the attempts, and when they are over. -/
theorem all_eq (policy : Policy) (dial : Dialer σ) (start : Nat) (peers : List Contact) (s : σ) :
    all policy dial start peers s =
      (.ofAttempts (attempts policy dial start peers s).1,
        start + ((dial.askAll peers s).1.map (policy.span start)).foldr max 0,
        if policy.admits start then (dial.askAll peers s).2 else s) := by
  show (Attendance.ofAttempts (attempts policy dial start peers s).1,
    (attempts policy dial start peers s).1.foldl (fun t attempt ↦ max t attempt.ended) start,
    (attempts policy dial start peers s).2) = _
  rw [attempts_eq,
    foldl_ended_ofWorks policy start (dial.length_askAll peers s) (Nat.le_refl start),
    Nat.max_eq_right (Nat.le_add_right _ _)]

/-- **Connecting to many peers is connecting to each of them.** Let the dialer answer the peers
of a list, in which a peer may stand more than once, with some results after some time or
never.

1. There is one attempt for each place of the list, all from the same start. The dialer is
   asked once for each place, in their order, or not at all if it is too late to begin.
2. An attempt has the dialer's own result if it comes before the cancellation and within the time
   of an attempt; it is cancelled if the cancellation comes neither after the result nor after
   that time; it is timed out if the time is up before the result and before the cancellation.
3. An attempt depends on its own peer and on the answer to it, and on nothing else.
4. The peers that were connected are listed in the order of the list, and each peer that failed
   has one entry, which is its last failure.
5. All is over with the attempt that takes longest: times do not add up. -/
theorem all_attendance (policy : Policy) (dial : Dialer σ) (start : Nat) (peers : List Contact)
    (s : σ) :
    let works := (dial.askAll peers s).1
    let made := (attempts policy dial start peers s).1
    let attendance := (all policy dial start peers s).1
    (made.map Attempt.peer = peers.map Contact.id ∧
      (all policy dial start peers s).2.2 =
        if policy.admits start then (dial.askAll peers s).2 else s) ∧
    (∀ (i : Nat) (peer : Contact) (work : Delayed Dialed),
      peers[i]? = some peer → works[i]? = some work →
        (∀ delay result, work = .after delay result →
          (∀ C ∈ policy.cancelAt, start + delay < C) → delay ≤ policy.timeout →
            made[i]? = some ⟨peer.id, start + delay, result⟩) ∧
        (∀ C ∈ policy.cancelAt,
          (∀ delay result, work = .after delay result → C ≤ start + delay) →
            C ≤ start + policy.timeout →
              made[i]? = some ⟨peer.id, max start C, .error .cancelled⟩) ∧
        ((∀ delay result, work = .after delay result → policy.timeout < delay) →
          (∀ C ∈ policy.cancelAt, start + policy.timeout < C) →
            made[i]? = some ⟨peer.id, start + policy.timeout, .error .timeout⟩)) ∧
    (∀ (τ : Type) (dial' : Dialer τ) (peers' : List Contact) (s' : τ) (i : Nat),
      (peers[i]?).map Contact.id = (peers'[i]?).map Contact.id →
        works[i]? = (dial'.askAll peers' s').1[i]? →
          made[i]? = (attempts policy dial' start peers' s').1[i]?) ∧
    (attendance.succeeded =
        (made.filter fun attempt ↦ attempt.result = .ok ()).map Attempt.peer ∧
      (attendance.failures.map Prod.fst).Nodup ∧
      (∀ id, id ∈ attendance.failures.map Prod.fst ↔
        ∃ attempt ∈ made, attempt.peer = id ∧ attempt.result ≠ .ok ()) ∧
      ∀ id e, (id, e) ∈ attendance.failures ↔
        ∃ before time later, made = before ++ ⟨id, time, .error e⟩ :: later ∧
          ∀ attempt ∈ later, attempt.peer = id → attempt.result = .ok ()) ∧
    (all policy dial start peers s).2.1 =
        start + (works.map (policy.span start)).foldr max 0 ∧
      (all policy dial start peers s).2.1 ≤ start + policy.timeout := by
  intro works made attendance
  have hlength : works.length = peers.length := dial.length_askAll peers s
  have hmade : made = ofWorks policy start peers works :=
    congrArg Prod.fst (attempts_eq policy start dial peers s)
  have hall := all_eq policy dial start peers s
  have hattendance : attendance = .ofAttempts made := congrArg Prod.fst hall
  have hended : (all policy dial start peers s).2.1 =
      start + (works.map (policy.span start)).foldr max 0 := congrArg (·.2.1) hall
  refine ⟨⟨?peers, congrArg (·.2.2) hall⟩, ?results, ?alone,
    ⟨?connected, ?nodup, ?keys, ?last⟩, hended, ?bound⟩
  case peers => rw [hmade, map_peer_ofWorks policy start hlength]
  case results =>
    intro i peer work hpeer hwork
    have hget : made[i]? = some (.ofWork policy start peer.id work) := by
      rw [hmade, getElem?_ofWorks, hpeer, hwork]
      rfl
    rw [hget]
    refine ⟨?own, fun C hC hlate hle ↦ ?cancelled, fun hlate hcancel ↦ ?timedOut⟩
    case own =>
      rintro delay result rfl hcancel hdeadline
      rw [ofWork_of_allows policy start peer.id result hcancel hdeadline]
    case cancelled => rw [ofWork_of_cancelled policy start peer.id hC hlate hle]
    case timedOut => rw [ofWork_of_timeout policy start peer.id hlate hcancel]
  case alone =>
    intro τ dial' peers' s' i hpeer hwork
    rw [hmade, attempts_eq policy start dial' peers' s', getElem?_ofWorks, getElem?_ofWorks, hpeer,
      hwork]
  case connected =>
    rw [hattendance, Attendance.ofAttempts, Attendance.succeeded_foldl]
    rfl
  case nodup =>
    rw [hattendance]
    exact Attendance.nodup_failures made
  case keys =>
    intro id
    rw [hattendance, ← Keyed.isSome_find?_iff, Option.isSome_iff_exists,
      ← Attendance.exists_lastFailure_iff]
    exact exists_congr (Attendance.find?_failures_iff made id)
  case last =>
    intro id e
    rw [hattendance, ← Keyed.find?_eq_some_iff_mem (Attendance.nodup_failures made)]
    exact Attendance.find?_failures_iff made id e
  case bound =>
    rw [hended]
    exact Nat.add_le_add_left (foldr_span_le policy start works) start

/-- A peer that stands in the list twice and fails twice: the later failure stays, and the two
attempts run side by side. -/
example :
    let peer : Contact := .bare ⟨⟨0, [1]⟩, rfl⟩
    let plan := Plan.start [.after 2 (.error .hostClosed), .never]
    let run := all ⟨5, none⟩ Plan.dial 0 [peer, peer] plan
    run.1 = ⟨[], [(peer.id, .timeout)]⟩ ∧ run.2.1 = 5 := by decide

end Connect

end Overlay
