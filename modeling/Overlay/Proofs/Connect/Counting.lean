import Mathlib.Data.List.Dedup
import Overlay.Proofs.Connect.Attendance

/-!
# How many attempts an attendance counts

`Attendance.attempted` adds the peers that were connected to the failures on record. The first are
counted by their places in the list, so a peer that was connected twice counts twice; the failures
are kept by peer, so one that failed twice counts once (`perm_keys_failures`).

What is counted therefore falls short of the attempts by the failures that repeat a peer, and by
nothing else (`attempted_add_length`). It is their number if no peer failed twice, and in no other
case.
-/

namespace Overlay

namespace Attendance

open Connect

/-- The peers of the attempts that failed, in the order of the attempts. -/
def failing (made : List Attempt) : List PeerId :=
  (made.filter fun attempt ↦ attempt.result ≠ .ok ()).map Attempt.peer

theorem mem_failing_iff {made : List Attempt} {id : PeerId} :
    id ∈ failing made ↔ ∃ attempt ∈ made, attempt.peer = id ∧ attempt.result ≠ .ok () := by
  simp only [failing, List.mem_map, List.mem_filter, decide_eq_true_eq]
  constructor
  · rintro ⟨attempt, ⟨hmem, hresult⟩, hpeer⟩
    exact ⟨attempt, hmem, hpeer, hresult⟩
  · rintro ⟨attempt, hmem, hpeer, hresult⟩
    exact ⟨attempt, ⟨hmem, hresult⟩, hpeer⟩

theorem mem_keys_failures_iff (made : List Attempt) (id : PeerId) :
    id ∈ (ofAttempts made).failures.map Prod.fst ↔ id ∈ failing made := by
  rw [← Keyed.isSome_find?_iff, Option.isSome_iff_exists, mem_failing_iff,
    ← exists_lastFailure_iff]
  exact exists_congr (find?_failures_iff made id)

/-- **Each peer that failed is on record once.** -/
theorem perm_keys_failures (made : List Attempt) :
    ((ofAttempts made).failures.map Prod.fst).Perm (failing made).dedup := by
  refine (List.perm_ext_iff_of_nodup (nodup_failures made) (List.nodup_dedup _)).2 fun id ↦ ?_
  rw [mem_keys_failures_iff, List.mem_dedup]

/-- Every attempt succeeds or fails. -/
theorem length_eq_add_failing (made : List Attempt) :
    made.length =
      (made.filter fun attempt ↦ attempt.result = .ok ()).length + (failing made).length := by
  have hsplit := List.length_eq_length_filter_add
    (l := made) fun attempt ↦ decide (attempt.result = .ok ())
  rw [hsplit, failing, List.length_map]
  simp only [ne_eq, decide_not]

theorem attempted_ofAttempts (made : List Attempt) :
    (ofAttempts made).attempted =
      (made.filter fun attempt ↦ attempt.result = .ok ()).length +
        (failing made).dedup.length := by
  have hsucceeded : (ofAttempts made).succeeded.length =
      (made.filter fun attempt ↦ attempt.result = .ok ()).length := by
    rw [ofAttempts, succeeded_foldl, List.length_append, List.length_map]
    exact Nat.zero_add _
  have hfailures : (ofAttempts made).failures.length = (failing made).dedup.length := by
    rw [← (perm_keys_failures made).length_eq, List.length_map]
  rw [attempted, hsucceeded, hfailures]

/-- **What is missing** are the failures that repeat a peer. -/
theorem attempted_add_length (made : List Attempt) :
    (ofAttempts made).attempted + (failing made).length =
      made.length + (failing made).dedup.length := by
  rw [attempted_ofAttempts, length_eq_add_failing made]
  omega

/-- A list is as long as without repetitions exactly if there are none. -/
theorem length_dedup_eq_iff {α : Type} [DecidableEq α] {xs : List α} :
    xs.dedup.length = xs.length ↔ xs.Nodup := by
  rw [← List.dedup_eq_self]
  exact ⟨(List.dedup_sublist xs).eq_of_length, congrArg List.length⟩

end Attendance

namespace Connect

open Attendance (failing)

variable {σ : Type}

/-- **What an attendance counts.** Let a dialer answer the peers of a list, in which a peer may
stand more than once, in any way.

1. The attendance counts every attempt that succeeded, and every peer once of which an attempt
   failed.
2. So it falls short of the peers in the list by the failures that repeat a peer, and it never
   counts more than there are.
3. It counts every peer of the list exactly if no peer failed twice.
4. So it does if no peer stands in the list twice. -/
theorem attempted_account (policy : Policy) (dial : Dialer σ) (start : Nat)
    (peers : List Contact) (s : σ) :
    let made := (attempts policy dial start peers s).1
    let attendance := (all policy dial start peers s).1
    attendance.attempted =
        (made.filter fun attempt ↦ attempt.result = .ok ()).length +
          (failing made).dedup.length ∧
      (attendance.attempted + (failing made).length =
          peers.length + (failing made).dedup.length ∧
        attendance.attempted ≤ peers.length) ∧
      (attendance.attempted = peers.length ↔ (failing made).Nodup) ∧
      ((peers.map Contact.id).Nodup → attendance.attempted = peers.length) := by
  intro made attendance
  have hattendance : attendance = .ofAttempts made :=
    congrArg Prod.fst (all_eq policy dial start peers s)
  have hpeers : made.map Attempt.peer = peers.map Contact.id := by
    have hmade : made = ofWorks policy start peers (dial.askAll peers s).1 :=
      congrArg Prod.fst (attempts_eq policy start dial peers s)
    rw [hmade, map_peer_ofWorks policy start (dial.length_askAll peers s)]
  have hlength : made.length = peers.length := by
    have hmap := congrArg List.length hpeers
    rwa [List.length_map, List.length_map] at hmap
  have hshort : attendance.attempted + (failing made).length =
      peers.length + (failing made).dedup.length := by
    rw [hattendance, Attendance.attempted_add_length, hlength]
  have hle : (failing made).dedup.length ≤ (failing made).length :=
    (List.dedup_sublist _).length_le
  have hexact : attendance.attempted = peers.length ↔ (failing made).Nodup := by
    rw [← Attendance.length_dedup_eq_iff]
    omega
  refine ⟨?count, ⟨hshort, by omega⟩, hexact, fun hnodup ↦ hexact.2 ?once⟩
  case count => rw [hattendance, Attendance.attempted_ofAttempts]
  case once =>
    rw [← hpeers] at hnodup
    exact hnodup.sublist (List.filter_sublist.map _)

/-- A list that names one peer twice: two refusals are counted as one attempt, two connections as
two, and so are a refusal and a connection. -/
theorem attempted_of_repeated_peer :
    let peer : Contact := .bare ⟨⟨0, [1]⟩, rfl⟩
    let refused : Delayed Dialed := .after 0 (.error (.unreachable "connection refused"))
    let connected : Delayed Dialed := .after 0 (.ok ())
    let counted (first second : Delayed Dialed) : Nat :=
      (all ⟨20000, none⟩ Plan.dial 0 [peer, peer] (.start [first, second])).1.attempted
    counted refused refused = 1 ∧ counted refused refused ≠ [peer, peer].length ∧
      counted connected connected = 2 ∧ counted refused connected = 2 := by decide

end Connect

end Overlay
