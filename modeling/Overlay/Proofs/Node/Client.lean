import Overlay.Proofs.AddressBook.Routing
import Overlay.Proofs.Handshake.Requesting
import Overlay.Proofs.Node.Leg

/-!
# The discipline of a mobile client

A client that may reach its target has a plan of four steps: connect to the relay, connect to the
target through it, open a stream to the target, run a handshake on it. `Cleared` says for each
step what has to be done before it is begun, and a client keeps to it: it has begun the first
steps of its plan, and a step exactly if it is cleared (`client_discipline`).

Every step but the last is a bounded step, so a journey is followed by `Leg.step_next`: either the
step succeeds and the next one is cleared, or nothing more is begun (`Kept.of_stop`). The last
step is the handshake, and `requestWithin_eq_ok_iff` tells when it succeeds.
-/

namespace Overlay.Node.Mission

variable {σ : Type}

/-! ### The two legs that are no bounded steps -/

/-- The error of a client whose relay was not connected. -/
def relayError : StepError ConnectError → NodeError
  | .interrupted why => .relay (.ofInterrupted why)
  | .failed e => .relay e

/-- Connecting to a relay is a bounded step. -/
theorem dialRelay_eq_step (f : Facilities σ) (policy : Policy) (relay : Contact) :
    dialRelay f policy relay =
      Leg.step policy (.connect relay) relayError (f.connect relay) := by
  funext j
  rw [dialRelay, Leg.step, Connect.attempt, Leg.bounded]
  by_cases hadmits : policy.admits j.now = true
  · simp only [if_pos hadmits, Connect.Attempt.ofWork]
    rcases policy.bounded j.now (f.connect relay j.world).1 with ⟨time, result⟩
    rcases result with why | (e | _) <;> rfl
  · simp only [if_neg hadmits]
    rfl

/-- **The last step** is begun unless it is cancelled before, and it succeeds exactly if the reply
comes in time. -/
theorem request_spec (policy : Policy) (peer : PeerId) (wire : Handshake.Wire) (j : Journey σ) :
    ((request policy peer wire j).1 = .ok () ↔
      ∃ D, Handshake.Initiator.RepliedAt j.now wire Settings.handshakeReply D ∧
        D ≤ j.now + policy.timeout ∧ ∀ C ∈ policy.cancelAt, D < C) ∧
    (request policy peer wire j).2.actions = Leg.begun policy (.request peer) j := by
  have hreply := Handshake.requestWithin_eq_ok_iff policy j.now wire
  rw [request]
  rcases hrun : Handshake.requestWithin policy policy.cancelAt j.now wire with
    ⟨task, time, result⟩
  rw [hrun] at hreply
  simp only [← hreply, Prod.mk.injEq, exists_eq_left']
  rcases result with why | (e | _)
  · exact ⟨⟨fun h ↦ (by cases h), fun h ↦ by cases h⟩, rfl⟩
  · exact ⟨⟨fun h ↦ (by cases h), fun h ↦ by cases h⟩, rfl⟩
  · exact ⟨⟨fun _ ↦ rfl, fun _ ↦ rfl⟩, rfl⟩

/-! ### The plan -/

section Plan

variable (f : Facilities σ) (policy : Policy) (relay target : Contact) (j : Journey σ)

/-- The steps of a client, in order. -/
def plan : List Action :=
  [.connect relay, .connect ⟨target.id, [Circuit.canonical relay.id target.id]⟩,
    .openStream target.id, .request target.id]

/-- The relay is connected in time, and the journey goes on at `j₁`. -/
def RelayReached (j₁ : Journey σ) : Prop :=
  Leg.Succeeds policy (.connect relay) (f.connect relay) j () j₁

/-- A circuit can be assembled, and the target is connected through it in time. -/
def TargetReached (j₂ : Journey σ) : Prop :=
  ∃ j₁ routed, RelayReached f policy relay j j₁ ∧ Circuit.assemble relay target = .ok routed ∧
    Leg.Succeeds policy (.connect routed) (f.connect routed) j₁ () j₂

/-- The target gives a stream in time. -/
def StreamOpened (wire : Handshake.Wire) (j₃ : Journey σ) : Prop :=
  ∃ j₂, TargetReached f policy relay target j j₂ ∧
    Leg.Succeeds policy (.openStream target.id) (f.openStream target.id) j₂ wire j₃

/-- The reply comes over the stream in time. -/
def ReplyCame : Prop :=
  ∃ wire j₃ D, StreamOpened f policy relay target j wire j₃ ∧
    Handshake.Initiator.RepliedAt j₃.now wire Settings.handshakeReply D ∧
    D ≤ j₃.now + policy.timeout ∧ ∀ C ∈ policy.cancelAt, D < C

/-- What has to be done before each step of the plan, counted from zero: the first one is only not
to be cancelled, and there is none behind the last. -/
def Cleared : Nat → Prop
  | 0 => policy.admits j.now = true
  | 1 => (∃ j₁, RelayReached f policy relay j j₁) ∧
      ∃ routed, Circuit.assemble relay target = .ok routed
  | 2 => ∃ j₂, TargetReached f policy relay target j j₂
  | 3 => ∃ wire j₃, StreamOpened f policy relay target j wire j₃
  | _ => False

variable {f policy relay target j}

/-! The world answers in one way only, so there is one journey to each of these stages. -/

theorem TargetReached.unique {j₂ j₂' : Journey σ} (h : TargetReached f policy relay target j j₂)
    (h' : TargetReached f policy relay target j j₂') : j₂ = j₂' := by
  obtain ⟨j₁, routed, hrelay, hassemble, hcircuit⟩ := h
  obtain ⟨j₁', routed', hrelay', hassemble', hcircuit'⟩ := h'
  obtain ⟨-, rfl⟩ := hrelay.unique hrelay'
  cases hassemble.symm.trans hassemble'
  exact (hcircuit.unique hcircuit').2

theorem StreamOpened.unique {wire wire' : Handshake.Wire} {j₃ j₃' : Journey σ}
    (h : StreamOpened f policy relay target j wire j₃)
    (h' : StreamOpened f policy relay target j wire' j₃') : wire = wire' ∧ j₃ = j₃' := by
  obtain ⟨j₂, htarget, hopen⟩ := h
  obtain ⟨j₂', htarget', hopen'⟩ := h'
  obtain rfl := htarget.unique htarget'
  exact hopen.unique hopen'

theorem StreamOpened.replyCame_iff {wire : Handshake.Wire} {j₃ : Journey σ}
    (h : StreamOpened f policy relay target j wire j₃) :
    ReplyCame f policy relay target j ↔
      ∃ D, Handshake.Initiator.RepliedAt j₃.now wire Settings.handshakeReply D ∧
        D ≤ j₃.now + policy.timeout ∧ ∀ C ∈ policy.cancelAt, D < C := by
  constructor
  · rintro ⟨wire', j₃', D, hstream, hreply⟩
    obtain ⟨rfl, rfl⟩ := h.unique hstream
    exact ⟨D, hreply⟩
  · rintro ⟨D, hreply⟩
    exact ⟨wire, j₃, D, h, hreply⟩

theorem Cleared.of_succ {k : Nat} (h : Cleared f policy relay target j (k + 1)) :
    Cleared f policy relay target j k := by
  match k with
  | 0 =>
    obtain ⟨⟨j₁, hrelay⟩, -⟩ := h
    exact hrelay.admits
  | 1 =>
    obtain ⟨j₂, j₁, routed, hrelay, hassemble, -⟩ := h
    exact ⟨⟨j₁, hrelay⟩, routed, hassemble⟩
  | 2 =>
    obtain ⟨wire, j₃, j₂, htarget, -⟩ := h
    exact ⟨j₂, htarget⟩
  | _ + 3 => exact h.elim

theorem Cleared.of_le {k n : Nat} (hle : k ≤ n) (h : Cleared f policy relay target j n) :
    Cleared f policy relay target j k := by
  induction hle with
  | refl => exact h
  | step _ ih => exact ih h.of_succ

/-- A client keeps to its plan if it has begun the first `n` steps, those that are cleared, and
if it is content exactly when the reply came. -/
structure Kept (f : Facilities σ) (policy : Policy) (relay target : Contact) (j : Journey σ)
    (run : Except NodeError Unit × Journey σ) (n : Nat) : Prop where
  cleared : ∀ k, k < n ↔ Cleared f policy relay target j k
  actions : run.2.actions = ((plan relay target).take n).reverse ++ j.actions
  result : run.1 = .ok () ↔ ReplyCame f policy relay target j

/-- **A client that stops** at a step that is not cleared keeps to its plan. -/
theorem Kept.of_stop {n : Nat} {e : NodeError} {j' : Journey σ}
    (hlast : ∀ k < n, Cleared f policy relay target j k)
    (hstop : ¬ Cleared f policy relay target j n) (hn : n ≤ 3)
    (hactions : j'.actions = ((plan relay target).take n).reverse ++ j.actions) :
    Kept f policy relay target j (.error e, j') n where
  cleared k := by
    refine ⟨hlast k, fun h ↦ Nat.lt_of_not_le fun hle ↦ hstop (h.of_le hle)⟩
  actions := hactions
  result := by
    refine ⟨fun h ↦ (by cases h), fun ⟨wire, j₃, D, hstream, _⟩ ↦ ?_⟩
    have hlast : Cleared f policy relay target j 3 := ⟨wire, j₃, hstream⟩
    exact absurd (hlast.of_le hn) hstop

/-- A step that is cleared and fails is the last one that was begun. -/
theorem Kept.of_failed {n : Nat} {e : NodeError} {j₀ j' : Journey σ} {action : Action}
    (hcleared : Cleared f policy relay target j n)
    (hstop : ¬ Cleared f policy relay target j (n + 1)) (hn : n ≤ 2)
    (hadmits : policy.admits j₀.now = true)
    (haction : (plan relay target).take (n + 1) = (plan relay target).take n ++ [action])
    (hbefore : j₀.actions = ((plan relay target).take n).reverse ++ j.actions)
    (hactions : j'.actions = Leg.begun policy action j₀) :
    Kept f policy relay target j (.error e, j') (n + 1) := by
  refine .of_stop (fun k hk ↦ hcleared.of_le (Nat.le_of_lt_succ hk)) hstop (by omega) ?_
  rw [hactions, Leg.begun, if_pos hadmits, hbefore, haction, List.reverse_append]
  rfl

/-! The stages from the last one backwards. A client that has come to a stage keeps to its plan
from there on. -/

theorem Kept.of_streamOpened {wire : Handshake.Wire} {j₃ : Journey σ}
    (h : StreamOpened f policy relay target j wire j₃) (hadmits : policy.admits j₃.now = true)
    (hactions : j₃.actions = ((plan relay target).take 3).reverse ++ j.actions) :
    Kept f policy relay target j (request policy target.id wire j₃) 4 := by
  have hcleared : Cleared f policy relay target j 3 := ⟨wire, j₃, h⟩
  obtain ⟨hresult, hbegun⟩ := request_spec policy target.id wire j₃
  refine ⟨fun k ↦ ⟨fun hk ↦ hcleared.of_le (by omega), fun hk ↦ ?_⟩, ?_,
    hresult.trans h.replyCame_iff.symm⟩
  · exact Nat.lt_of_not_le fun hle ↦ hk.of_le hle
  · rw [hbegun, Leg.begun, if_pos hadmits, hactions]
    rfl

theorem exists_kept_of_targetReached {j₂ : Journey σ}
    (h : TargetReached f policy relay target j j₂) (hadmits : policy.admits j₂.now = true)
    (hactions : j₂.actions = ((plan relay target).take 2).reverse ++ j.actions) :
    ∃ n ≤ 4, Kept f policy relay target j
      ((Leg.step policy (.openStream target.id) .stream (f.openStream target.id)).next
        (fun wire ↦ request policy target.id wire) j₂) n := by
  rcases Leg.step_next policy (.openStream target.id) .stream (f.openStream target.id)
    (fun wire ↦ request policy target.id wire) j₂ with
    ⟨wire, j₃, hopen, hrun⟩ | ⟨hfails, e, j', hrun, hbegun⟩
  · rw [hrun]
    refine ⟨4, Nat.le_refl 4, .of_streamOpened ⟨j₂, h, hopen⟩ hopen.admits_next ?_⟩
    rw [hopen.actions, hactions]
    rfl
  · rw [hrun]
    refine ⟨3, by decide, .of_failed ⟨j₂, h⟩ ?_ (by decide) hadmits rfl hactions hbegun⟩
    rintro ⟨wire, j₃, j₂', htarget, hopen⟩
    obtain rfl := h.unique htarget
    exact hfails wire j₃ hopen

theorem exists_kept_of_relayReached {j₁ : Journey σ} (h : RelayReached f policy relay j j₁)
    {routed : Contact} (hassemble : Circuit.assemble relay target = .ok routed)
    (hadmits : policy.admits j₁.now = true)
    (hactions : j₁.actions = ((plan relay target).take 1).reverse ++ j.actions) :
    ∃ n ≤ 4, Kept f policy relay target j
      ((Leg.step policy (.connect routed) .circuit (f.connect routed)).next
        (fun _ ↦ (Leg.step policy (.openStream target.id) .stream (f.openStream target.id)).next
          fun wire ↦ request policy target.id wire) j₁) n := by
  have hrouted := Circuit.eq_of_assemble hassemble
  rcases Leg.step_next policy (.connect routed) .circuit (f.connect routed)
    (fun _ ↦ (Leg.step policy (.openStream target.id) .stream (f.openStream target.id)).next
      fun wire ↦ request policy target.id wire) j₁ with
    ⟨_, j₂, hcircuit, hrun⟩ | ⟨hfails, e, j', hrun, hbegun⟩
  · rw [hrun]
    refine exists_kept_of_targetReached ⟨j₁, routed, h, hassemble, hcircuit⟩
      hcircuit.admits_next ?_
    rw [hcircuit.actions, hactions, hrouted]
    rfl
  · rw [hrun]
    refine ⟨2, by decide, .of_failed ⟨⟨j₁, h⟩, routed, hassemble⟩ ?_ (by decide) hadmits rfl
      hactions (hrouted ▸ hbegun)⟩
    rintro ⟨j₂, j₁', routed', hrelay, hassemble', hcircuit⟩
    obtain ⟨-, rfl⟩ := h.unique hrelay
    cases hassemble.symm.trans hassemble'
    exact hfails () j₂ hcircuit

/-- **A client keeps to its plan** if it may reach its target. -/
theorem exists_kept {bootstrap : List Contact}
    (hallowed : Circuit.checkTarget target.id bootstrap [relay] = .ok ()) :
    ∃ n ≤ 4, Kept f policy relay target j (reach f policy bootstrap relay target j) n := by
  rw [reach, hallowed, dialRelay_eq_step]
  show ∃ n ≤ 4, Kept f policy relay target j ((Leg.step _ _ _ _).next _ j) n
  rcases Leg.step_next policy (.connect relay) relayError (f.connect relay) _ j with
    ⟨_, j₁, hrelay, hrun⟩ | ⟨hfails, e, j', hrun, hbegun⟩
  · rw [hrun]
    cases hassemble : Circuit.assemble relay target with
    | error e =>
      refine ⟨1, by decide, .of_stop ?_ ?_ (by decide) hrelay.actions⟩
      · rintro k hk
        obtain rfl : k = 0 := by omega
        exact hrelay.admits
      · rintro ⟨-, routed, hok⟩
        cases hassemble.symm.trans hok
    | ok routed =>
      exact exists_kept_of_relayReached hrelay hassemble hrelay.admits_next hrelay.actions
  · rw [hrun]
    by_cases hadmits : policy.admits j.now = true
    · refine ⟨1, by decide, .of_failed hadmits ?_ (by decide) hadmits rfl rfl hbegun⟩
      rintro ⟨⟨j₁, hrelay⟩, -⟩
      exact hfails () j₁ hrelay
    · rw [Leg.begun, if_neg hadmits] at hbegun
      exact ⟨0, by decide, .of_stop (fun k hk ↦ absurd hk (Nat.not_lt_zero k)) hadmits (by decide)
        hbegun⟩

end Plan

/-! ### Infrastructure peers -/

/-- A peer that others depend on: the relay or one of the bootstrap peers. -/
def Infrastructure (bootstrap : List Contact) (relay : Contact) (id : PeerId) : Prop :=
  id = relay.id ∨ ∃ peer ∈ bootstrap, id = peer.id

theorem any_id_iff (bootstrap : List Contact) (relay : Contact) (id : PeerId) :
    (bootstrap ++ [relay]).any (·.id == id) = true ↔ Infrastructure bootstrap relay id := by
  rw [List.any_append, Bool.or_eq_true, List.any_eq_true, or_comm, Infrastructure]
  simp only [List.any_cons, List.any_nil, Bool.or_false, beq_iff_eq, eq_comm (a := id)]

theorem checkTarget_of_infrastructure {bootstrap : List Contact} {relay : Contact} {id : PeerId}
    (h : Infrastructure bootstrap relay id) :
    Circuit.checkTarget id bootstrap [relay] = .error (.invalidTarget id) :=
  if_pos ((any_id_iff bootstrap relay id).2 h)

theorem checkTarget_of_not_infrastructure {bootstrap : List Contact} {relay : Contact}
    {id : PeerId} (h : ¬ Infrastructure bootstrap relay id) :
    Circuit.checkTarget id bootstrap [relay] = .ok () :=
  if_neg fun hany ↦ h ((any_id_iff bootstrap relay id).1 hany)

/-- **The discipline of a mobile client**, whatever the world answers and whenever it is cancelled.
Without a relay or without a target nothing is done and all is well. With both:

1. What is begun are the first steps of the plan.
2. If the target is the relay or a bootstrap peer, this is an error, and nothing at all is done.
3. Otherwise a step is begun exactly if it is cleared: all steps before it have succeeded in time.
4. If no circuit can be assembled, none is dialed.
5. A stream is opened to the target only, and the request is sent over it only; the target is then
   no infrastructure peer.
6. All is well exactly if the target is no infrastructure peer, every step has succeeded, and the
   reply came. -/
theorem client_discipline (f : Facilities σ) (policy : Policy) (config : Config)
    (j : Journey σ) :
    let run := clientBusiness f policy config j
    (config.relay = none ∨ config.target = none → run = (.ok (), j)) ∧
    ∀ relay ∈ config.relay, ∀ target ∈ config.target, ∃ begun,
      (run.2.actions = begun.reverse ++ j.actions ∧ begun <+: plan relay target) ∧
      (Infrastructure config.bootstrap relay target.id →
        run = (.error (.target (.invalidTarget target.id)), j) ∧ begun = []) ∧
      (¬ Infrastructure config.bootstrap relay target.id →
        ∀ k, k < begun.length ↔ Cleared f policy relay target j k) ∧
      (∀ e, Circuit.assemble relay target = .error e → begun <+: [.connect relay]) ∧
      (∀ peer, .openStream peer ∈ begun ∨ .request peer ∈ begun →
        peer = target.id ∧ ¬ Infrastructure config.bootstrap relay peer) ∧
      (run.1 = .ok () ↔ ¬ Infrastructure config.bootstrap relay target.id ∧
        ReplyCame f policy relay target j) := by
  intro run
  refine ⟨fun h ↦ ?missing, fun relay hrelay target htarget ↦ ?both⟩
  case missing =>
    show clientBusiness f policy config j = _
    rw [clientBusiness]
    rcases h with hnone | hnone
    · rw [hnone]
      rfl
    · rw [hnone]
      cases config.relay <;> rfl
  case both =>
    have hrun : run = reach f policy config.bootstrap relay target j := by
      show clientBusiness f policy config j = _
      rw [clientBusiness, Option.mem_def.1 hrelay, Option.mem_def.1 htarget]
    by_cases hinfra : Infrastructure config.bootstrap relay target.id
    · have herror : run = (.error (.target (.invalidTarget target.id)), j) := by
        rw [hrun, reach, checkTarget_of_infrastructure hinfra]
        rfl
      refine ⟨[], ⟨by rw [herror]; rfl, List.nil_prefix⟩, fun _ ↦ ⟨herror, rfl⟩,
        fun h ↦ absurd hinfra h, fun _ _ ↦ List.nil_prefix, fun peer h ↦ ?_, ?_⟩
      · rcases h with h | h <;> cases h
      · rw [herror]
        exact ⟨fun h ↦ (by cases h), fun h ↦ absurd hinfra h.1⟩
    · obtain ⟨n, hn, hcleared, hactions, hresult⟩ :=
        @exists_kept σ f policy relay target j config.bootstrap
          (checkTarget_of_not_infrastructure hinfra)
      have hlength : ((plan relay target).take n).length = n := List.length_take_of_le hn
      rw [hrun]
      refine ⟨(plan relay target).take n, ⟨hactions, List.take_prefix n _⟩,
        fun h ↦ absurd h hinfra, fun _ k ↦ hlength.symm ▸ hcleared k, fun e he ↦ ?_,
        fun peer h ↦ ?_, hresult.trans ⟨fun h ↦ ⟨hinfra, h⟩, fun h ↦ h.2⟩⟩
      · have hn₁ : n ≤ 1 := Nat.le_of_not_lt fun hlt ↦ by
          obtain ⟨-, routed, hok⟩ := (hcleared 1).1 hlt
          cases he.symm.trans hok
        exact List.take_prefix_take_left hn₁
      · have hpeer : peer = target.id := by
          rcases h with h | h
          · simpa [plan] using List.mem_of_mem_take h
          · simpa [plan] using List.mem_of_mem_take h
        exact ⟨hpeer, hpeer ▸ hinfra⟩

/-- A client with a bootstrap peer, whose steps take a moment each and whose target replies. -/
theorem client_discipline_of_reply :
    let relay : Contact := ⟨⟨⟨0, [1]⟩, rfl⟩, [[.memory 7]]⟩
    let target : Contact := .bare ⟨⟨0, [2]⟩, rfl⟩
    let config : Config :=
      ⟨.mobileClient, none, 6, none, [.bare ⟨⟨0, [3]⟩, rfl⟩], some relay, some target, .everywhere⟩
    let wire := Handshake.Wire.ofReads [.wait 1, .data Settings.handshakeReply]
    let f : Facilities Unit :=
      ⟨fun _ s ↦ (.after 1 (.ok ()), s), fun _ s ↦ (.never, s), fun s ↦ (.never, s),
        fun s ↦ (.ok (), s), fun _ s ↦ (.after 1 (.ok wire), s)⟩
    let run := clientBusiness f ⟨5, some 9⟩ config ⟨0, (), []⟩
    relay ∈ config.relay ∧ target ∈ config.target ∧
      ¬ Infrastructure config.bootstrap relay target.id ∧
      run.1 = .ok () ∧ run.2.actions = (plan relay target).reverse := by
  intro relay target config wire f run
  have hinfra : ¬ Infrastructure config.bootstrap relay target.id := fun h ↦
    absurd ((any_id_iff _ _ _).2 h) (by decide)
  obtain ⟨begun, ⟨hactions, hprefix⟩, -, hcleared, -, -, hresult⟩ :=
    (client_discipline f ⟨5, some 9⟩ config ⟨0, (), []⟩).2 relay rfl target rfl
  have hrelay : RelayReached f ⟨5, some 9⟩ relay ⟨0, (), []⟩ ⟨1, (), [.connect relay]⟩ :=
    ⟨1, rfl, by decide, by decide, rfl⟩
  have htarget : TargetReached f ⟨5, some 9⟩ relay target ⟨0, (), []⟩
      ⟨2, (), ((plan relay target).take 2).reverse⟩ :=
    ⟨_, _, hrelay, rfl, 1, rfl, by decide, by decide, rfl⟩
  have hstream : StreamOpened f ⟨5, some 9⟩ relay target ⟨0, (), []⟩ wire
      ⟨3, (), ((plan relay target).take 3).reverse⟩ :=
    ⟨_, htarget, 1, rfl, by decide, by decide, rfl⟩
  have hreply : ReplyCame f ⟨5, some 9⟩ relay target ⟨0, (), []⟩ :=
    ⟨wire, _, 4, hstream, ⟨⟨.ok (.ok ()), by decide⟩, by decide⟩, by decide, by decide⟩
  have hlength : 3 < begun.length := (hcleared hinfra 3).2 ⟨wire, _, hstream⟩
  have hbegun : begun = plan relay target := hprefix.eq_of_length_le hlength
  refine ⟨rfl, rfl, hinfra, hresult.2 ⟨hinfra, hreply⟩, ?_⟩
  rw [hactions, hbegun]
  exact List.append_nil _

end Overlay.Node.Mission
