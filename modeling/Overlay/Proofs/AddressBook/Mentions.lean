import Mathlib.Data.List.Induction
import Overlay.Proofs.AddressBook.History
import Overlay.Proofs.AddressBook.Routing

/-!
# Mentions of the peer at the end of a known address

An address of a peer may end in the peer's id, and more than once. Every address is a base that
does not, with a number of mentions behind it (`Multiaddr.exists_withMentions`), and learning takes
one mention away if there is one (`Multiaddr.withoutPeer_withMentions`).

So an address is stored without the peer's id at its end if it was told with one mention or with
none, and only then. Whether what is known of a peer is free of mentions at the end is therefore a
matter of what was told (`NamedOnce`), and with it whether each place is known in one spelling, and
whether a circuit through the peer names it once. A book that was told of an address with two
mentions fails in all of this (`known_with_mention`).
-/

namespace Overlay

namespace Multiaddr

/-- An address with a number of mentions of a peer behind it. -/
def withMentions (base : Multiaddr) (id : PeerId) (n : Nat) : Multiaddr :=
  base ++ List.replicate n (.peer id)

variable (base : Multiaddr) (id : PeerId)

theorem withMentions_zero : base.withMentions id 0 = base := List.append_nil base

theorem withMentions_succ (n : Nat) :
    base.withMentions id (n + 1) = base.withMentions id n ++ [.peer id] := by
  rw [withMentions, List.replicate_succ', ← List.append_assoc, withMentions]

theorem endsInPeer?_withMentions_succ (n : Nat) :
    (base.withMentions id (n + 1)).endsInPeer? = some id := by
  rw [withMentions_succ, endsInPeer?, List.getLast?_concat]

/-- One of the mentions is taken away. -/
theorem withoutPeer_withMentions_succ (n : Nat) :
    (base.withMentions id (n + 1)).withoutPeer id = base.withMentions id n := by
  rw [withoutPeer, if_pos (endsInPeer?_withMentions_succ base id n), withMentions_succ,
    List.dropLast_concat]

theorem isCircuit_withMentions (n : Nat) :
    (base.withMentions id n).isCircuit = base.isCircuit := by
  have hmentions : isCircuit (List.replicate n (.peer id)) = false :=
    isCircuit_eq_false_iff.2 fun h ↦ by cases List.eq_of_mem_replicate h
  rw [withMentions, isCircuit_append, hmentions, Bool.or_false]

variable {base id}

/-- **At most one mention is taken away.** -/
theorem withoutPeer_withMentions (h : base.endsInPeer? ≠ some id) (n : Nat) :
    (base.withMentions id n).withoutPeer id = base.withMentions id (n - 1) := by
  cases n with
  | zero => rw [Nat.zero_sub, withMentions_zero, withoutPeer, if_neg h]
  | succ n => exact withoutPeer_withMentions_succ base id n

theorem eq_withMentions_one {addr : Multiaddr} (h : addr.endsInPeer? = some id) :
    addr = withMentions addr.dropLast id 1 :=
  eq_dropLast_append h

variable (id) in
/-- Every address is a base that does not end in the peer, with some mentions behind it. -/
theorem exists_withMentions (addr : Multiaddr) :
    ∃ (base : Multiaddr) (n : Nat), base.endsInPeer? ≠ some id ∧
      addr = base.withMentions id n := by
  induction addr using List.reverseRecOn with
  | nil => exact ⟨[], 0, (fun h ↦ by cases h), rfl⟩
  | append_singleton addr last ih =>
    by_cases hlast : last = .peer id
    · obtain ⟨base, n, hbase, rfl⟩ := ih
      exact ⟨base, n + 1, hbase, by rw [hlast, withMentions_succ]⟩
    · refine ⟨addr ++ [last], 0, fun h ↦ hlast ?_, (withMentions_zero _ id).symm⟩
      have hends := eq_dropLast_append h
      rw [List.dropLast_concat] at hends
      exact List.singleton_inj.1 (List.append_cancel_left hends)

end Multiaddr

namespace AddressBook

open Multiaddr (withMentions)

/-- No direct address that some lessons tell of a peer ends in the peer's id twice. -/
def NamedOnce (peer : PeerId) (lessons : List Lesson) : Prop :=
  ∀ base : Multiaddr, base.isCircuit = false → base.withMentions peer 2 ∉ told peer lessons

variable {lessons : List Lesson} {peer : PeerId}

theorem mem_known_iff {location : Multiaddr} :
    location ∈ (ofLessons lessons).known peer ↔
      ∃ addr ∈ told peer lessons, addr.isCircuit = false ∧ addr.withoutPeer peer = location ∧
        location ≠ [] := by
  rw [known_ofLessons, List.mem_eraseDups, mem_locations]

/-- **What is known**: what was told, with one mention of the peer less if there is one. -/
theorem mem_known_iff_exists_withMentions {location : Multiaddr} :
    location ∈ (ofLessons lessons).known peer ↔
      location ≠ [] ∧ ∃ (base : Multiaddr) (n : Nat), base.endsInPeer? ≠ some peer ∧
        base.isCircuit = false ∧ base.withMentions peer n ∈ told peer lessons ∧
          location = base.withMentions peer (n - 1) := by
  rw [mem_known_iff]
  constructor
  · rintro ⟨addr, htold, hdirect, rfl, hne⟩
    obtain ⟨base, n, hbase, rfl⟩ := Multiaddr.exists_withMentions peer addr
    rw [Multiaddr.isCircuit_withMentions] at hdirect
    exact ⟨hne, base, n, hbase, hdirect, htold, Multiaddr.withoutPeer_withMentions hbase n⟩
  · rintro ⟨hne, base, n, hbase, hdirect, htold, rfl⟩
    rw [← base.isCircuit_withMentions peer n] at hdirect
    exact ⟨_, htold, hdirect, Multiaddr.withoutPeer_withMentions hbase n, hne⟩

/-- An address with a mention of the peer at its end is known exactly if it was told with one
more. -/
theorem withMentions_mem_known_iff (base : Multiaddr) :
    base.withMentions peer 1 ∈ (ofLessons lessons).known peer ↔
      base.isCircuit = false ∧ base.withMentions peer 2 ∈ told peer lessons := by
  rw [mem_known_iff, ← base.isCircuit_withMentions peer 2]
  constructor
  · rintro ⟨addr, htold, hdirect, hlocation, -⟩
    -- an address without a mention would have been stored as it is
    have hends : addr.endsInPeer? = some peer := by
      refine Classical.byContradiction fun hnot ↦ ?_
      rw [Multiaddr.withoutPeer, if_neg hnot] at hlocation
      exact hnot (hlocation ▸ base.endsInPeer?_withMentions_succ peer 0)
    have haddr : addr = base.withMentions peer 2 := by
      rw [Multiaddr.withMentions_succ, ← hlocation, ← Multiaddr.withPeer_eq,
        Multiaddr.withPeer, if_pos hends]
    exact haddr ▸ ⟨hdirect, htold⟩
  · rintro ⟨hdirect, htold⟩
    exact ⟨_, htold, hdirect, base.withoutPeer_withMentions_succ peer 1,
      List.append_ne_nil_of_right_ne_nil _ (List.cons_ne_nil _ _)⟩

/-- No known address ends in the peer exactly if none was told with two mentions. -/
theorem forall_known_iff_namedOnce :
    (∀ location ∈ (ofLessons lessons).known peer, location.endsInPeer? ≠ some peer) ↔
      NamedOnce peer lessons := by
  constructor
  · intro h base hdirect htold
    exact h _ ((withMentions_mem_known_iff base).2 ⟨hdirect, htold⟩)
      (base.endsInPeer?_withMentions_succ peer 0)
  · intro h location hknown hends
    rw [Multiaddr.eq_withMentions_one hends] at hknown
    obtain ⟨hdirect, htold⟩ := (withMentions_mem_known_iff _).1 hknown
    exact h _ hdirect htold

/-- **One spelling**: then no two known addresses differ only in mentions at their ends. -/
theorem NamedOnce.eq_zero (h : NamedOnce peer lessons) {base : Multiaddr} {n : Nat}
    (hknown : base.withMentions peer n ∈ (ofLessons lessons).known peer) : n = 0 := by
  cases n with
  | zero => rfl
  | succ n =>
    exact absurd (base.endsInPeer?_withMentions_succ peer n)
      (forall_known_iff_namedOnce.2 h _ hknown)

/-- What was told in some spelling is known in the one without a mention. -/
theorem NamedOnce.mem_known (h : NamedOnce peer lessons) {base : Multiaddr} (hne : base ≠ [])
    (hbase : base.endsInPeer? ≠ some peer) (hdirect : base.isCircuit = false) {n : Nat}
    (htold : base.withMentions peer n ∈ told peer lessons) :
    base ∈ (ofLessons lessons).known peer := by
  have hlocation : base.withMentions peer (n - 1) ∈ (ofLessons lessons).known peer :=
    mem_known_iff_exists_withMentions.2
      ⟨List.append_ne_nil_of_left_ne_nil hne _, base, n, hbase, hdirect, htold, rfl⟩
  rw [h.eq_zero hlocation, Multiaddr.withMentions_zero] at hlocation
  exact hlocation

/-- A canonical circuit names the peer once more than the address over which it is led. -/
theorem mention_suffix_iff (location : Multiaddr) (peer target : PeerId) :
    .peer peer :: Circuit.canonical peer target <:+
        location ++ Circuit.canonical peer target ↔
      location.endsInPeer? = some peer := by
  constructor
  · rintro ⟨before, hbefore⟩
    rw [List.append_cons] at hbefore
    rw [← List.append_cancel_right hbefore]
    exact Multiaddr.endsInPeer?_withMentions_succ before peer 0
  · intro hends
    rw [Multiaddr.eq_dropLast_append hends, List.append_assoc]
    exact List.suffix_append _ _

/-- **Mentions of the peer in what is known.** After any lessons, and for every peer,

1. the known addresses are the direct ones that were told, each with one mention of the peer less at
   its end if there is one, as far as anything is left of them;
2. so no known address ends in the peer exactly if no direct one was told that ends in it twice;
3. then whatever was told of one base, in spellings that differ in mentions at the end only, is
   known as the base and in no other spelling;
4. and then, and only then, a canonical circuit through the peer is led over no address in which
   the peer is named a second time right before the circuit. -/
theorem known_mentions (lessons : List Lesson) (peer : PeerId) :
    (∀ location, location ∈ (ofLessons lessons).known peer ↔
      location ≠ [] ∧ ∃ (base : Multiaddr) (n : Nat), base.endsInPeer? ≠ some peer ∧
        base.isCircuit = false ∧ base.withMentions peer n ∈ told peer lessons ∧
          location = base.withMentions peer (n - 1)) ∧
    ((∀ location ∈ (ofLessons lessons).known peer, location.endsInPeer? ≠ some peer) ↔
      NamedOnce peer lessons) ∧
    (NamedOnce peer lessons → ∀ (base : Multiaddr) (n : Nat), base ≠ [] →
      base.endsInPeer? ≠ some peer → base.isCircuit = false →
        base.withMentions peer n ∈ told peer lessons →
          ∀ k, base.withMentions peer k ∈ (ofLessons lessons).known peer ↔ k = 0) ∧
    ∀ target, (∀ resolved ∈ (ofLessons lessons).resolve (Circuit.canonical peer target),
      ¬ .peer peer :: Circuit.canonical peer target <:+ resolved) ↔
        NamedOnce peer lessons := by
  refine ⟨fun _ ↦ mem_known_iff_exists_withMentions, forall_known_iff_namedOnce, ?spelling,
    fun target ↦ ?circuit⟩
  case spelling =>
    intro h base n hne hbase hdirect htold k
    refine ⟨h.eq_zero, ?_⟩
    rintro rfl
    rw [Multiaddr.withMentions_zero]
    exact h.mem_known hne hbase hdirect htold
  case circuit =>
    rw [← forall_known_iff_namedOnce, resolve_canonical, List.forall_mem_map]
    exact forall₂_congr fun location _ ↦ not_congr (mention_suffix_iff location peer target)

/-- A place told in two spellings, with one mention of the peer and with none: it is known once, and
a circuit through the peer names it once. -/
theorem known_mentions_of_spellings :
    let p : PeerId := ⟨⟨0, [1]⟩, rfl⟩
    let t : PeerId := ⟨⟨0, [2]⟩, rfl⟩
    let lessons : List Lesson := [.contact ⟨p, [[.memory 7, .peer p]]⟩, .address p [.memory 7]]
    NamedOnce p lessons ∧
      (∀ k, withMentions [.memory 7] p k ∈ (ofLessons lessons).known p ↔ k = 0) ∧
      ∀ resolved ∈ (ofLessons lessons).resolve (Circuit.canonical p t),
        ¬ .peer p :: Circuit.canonical p t <:+ resolved := by
  intro p t lessons
  obtain ⟨-, hnormal, hspelling, hcircuit⟩ := known_mentions lessons p
  have hnamed : NamedOnce p lessons := hnormal.1 (by decide)
  refine ⟨hnamed, ?_, (hcircuit t).2 hnamed⟩
  exact hspelling hnamed [.memory 7] 1 (by decide) (by decide) (by decide) (by decide)

/-- An address told with two mentions of the peer is known with one, beside the same address
without, and the peer's id told twice is known as an address; a circuit through the peer is led over
all of them. -/
theorem known_with_mention :
    let p : PeerId := ⟨⟨0, [1]⟩, rfl⟩
    let t : PeerId := ⟨⟨0, [2]⟩, rfl⟩
    let book := ofLessons [.contact ⟨p, [[.memory 7, .peer p, .peer p]]⟩,
      .address p [.memory 7], .address p [.peer p, .peer p]]
    book.known p = [[.memory 7, .peer p], [.memory 7], [.peer p]] ∧
      Multiaddr.endsInPeer? [.memory 7, .peer p] = some p ∧
      book.resolve (Circuit.canonical p t) =
        [[.memory 7, .peer p, .peer p, .circuit, .peer t], [.memory 7, .peer p, .circuit, .peer t],
          [.peer p, .peer p, .circuit, .peer t]] := by decide

end AddressBook

end Overlay
