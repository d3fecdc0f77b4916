import Overlay.Host.Session

/-!
# Where a request is

A request is queued first. Its turn brings it an answer, or it is parked until the network reports
what came of it, and then it is answered too. `Place` says where a request can be and `Move` where
it can go from there: never back, and never on from an answer.

`Passes` compares lists of requests with their places. The later list holds the requests of the
earlier one, each as often as it was there, and each of them where it was or moved on. If the
earlier list is that of requests just made, all under different numbers, then in the later one each
is at exactly one place, and the place suits what was asked for (`Passes.exists_place`).
-/

namespace Overlay.Host

/-- What a request is about. -/
inductive Topic where
  | connection
  | reservation
  | routing
  | count
  | addresses
  | peers
  | stop
deriving DecidableEq, Repr

/-- The topic of a command. -/
def Command.topic : Command → Topic
  | .connect _ => .connection
  | .reserve _ => .reservation
  | .bootstrapRouting => .routing
  | .routingPeers => .count
  | .listenAddresses => .addresses
  | .externalAddresses => .addresses
  | .connectedPeers => .peers
  | .shutdown => .stop

/-- The topic of a reply. -/
def Reply.topic : Reply → Topic
  | .connected _ => .connection
  | .reserved _ => .reservation
  | .bootstrapped _ => .routing
  | .counted _ => .count
  | .addresses _ => .addresses
  | .peers _ => .peers
  | .stopping => .stop

/-- What a host that has stopped replies on a topic. -/
def Topic.closedReply : Topic → Reply
  | .connection => .connected (.error .hostClosed)
  | .reservation => .reserved (.error .hostClosed)
  | .routing => .bootstrapped (.error .hostClosed)
  | .count => .counted (.error .hostClosed)
  | .addresses => .addresses []
  | .peers => .peers []
  | .stop => .stopping

/-- The reply says that the host has stopped. -/
def Reply.isHostClosed : Reply → Bool
  | .connected (.error .hostClosed) => true
  | .reserved (.error .hostClosed) => true
  | .bootstrapped (.error .hostClosed) => true
  | .counted (.error .hostClosed) => true
  | _ => false

theorem Command.closedReply_eq (command : Command) :
    command.closedReply = command.topic.closedReply := by
  cases command <;> rfl

@[simp] theorem Topic.topic_closedReply (topic : Topic) : topic.closedReply.topic = topic := by
  cases topic <;> rfl

/-- Where a request is. -/
inductive Place where
  | queued (command : Command)
  | dialing (connection : Nat)
  | reserving (relay : PeerId) (listener : Nat)
  | bootstrapping (query : Nat)
  | answered (reply : Reply)
deriving DecidableEq

namespace Place

/-- What the request at a place is about. -/
def topic : Place → Topic
  | .queued command => command.topic
  | .dialing _ => .connection
  | .reserving _ _ => .reservation
  | .bootstrapping _ => .routing
  | .answered reply => reply.topic

/-- The request has no answer yet. -/
def isOpen : Place → Bool
  | .answered _ => false
  | _ => true

/-- The place is one for the request that a command makes. -/
def Suits (place : Place) (command : Command) : Prop :=
  match place with
  | .queued waiting => waiting = command
  | .reserving relay _ => ∃ contact : Contact, command = .reserve contact ∧ contact.id = relay
  | place => place.topic = command.topic

theorem Suits.topic_eq {place : Place} {command : Command} (h : place.Suits command) :
    place.topic = command.topic := by
  cases place with
  | queued waiting => exact congrArg Command.topic h
  | reserving relay listener =>
    obtain ⟨contact, rfl, -⟩ := h
    rfl
  | dialing connection => exact h
  | bootstrapping query => exact h
  | answered reply => exact h

end Place

/-- Where a request can go. -/
inductive Move : Place → Place → Prop
  | dial (contact : Contact) (connection : Nat) :
      Move (.queued (.connect contact)) (.dialing connection)
  | reserve (relay : Contact) (listener : Nat) :
      Move (.queued (.reserve relay)) (.reserving relay.id listener)
  | bootstrap (query : Nat) : Move (.queued .bootstrapRouting) (.bootstrapping query)
  | answer {place : Place} {reply : Reply} (hopen : place.isOpen = true)
      (htopic : reply.topic = place.topic) : Move place (.answered reply)

/-- A request that moves stays at places that suit it. -/
theorem Move.suits {place next : Place} {command : Command} (h : Move place next)
    (hsuits : place.Suits command) : next.Suits command := by
  cases h with
  | dial contact connection =>
    cases hsuits
    exact rfl
  | reserve relay listener =>
    cases hsuits
    exact ⟨relay, rfl, rfl⟩
  | bootstrap query =>
    cases hsuits
    exact rfl
  | answer hopen htopic => exact htopic.trans hsuits.topic_eq

/-- The same requests, each where it was or moved on. -/
inductive Passes : List (Ticket × Place) → List (Ticket × Place) → Prop
  | perm {before after : List (Ticket × Place)} (h : before.Perm after) : Passes before after
  | move {place next : Place} (ticket : Ticket) (rest : List (Ticket × Place))
      (h : Move place next) : Passes ((ticket, place) :: rest) ((ticket, next) :: rest)
  | trans {before between after : List (Ticket × Place)} (h : Passes before between)
      (h' : Passes between after) : Passes before after

namespace Passes

variable {before after : List (Ticket × Place)}

theorem refl (requests : List (Ticket × Place)) : Passes requests requests := .perm (.refl _)

/-- Requests that stand aside stay where they are. -/
theorem append_right (h : Passes before after) (others : List (Ticket × Place)) :
    Passes (before ++ others) (after ++ others) := by
  induction h with
  | perm h => exact .perm (h.append_right others)
  | move ticket rest h => exact .move ticket (rest ++ others) h
  | trans _ _ ih ih' => exact ih.trans ih'

theorem append_left (h : Passes before after) (others : List (Ticket × Place)) :
    Passes (others ++ before) (others ++ after) :=
  ((perm List.perm_append_comm).trans (h.append_right others)).trans (perm List.perm_append_comm)

/-- All of some requests are answered. -/
theorem answer_all {requests : List (Ticket × Place)} (reply : Place → Reply)
    (h : ∀ x ∈ requests, x.2.isOpen = true ∧ (reply x.2).topic = x.2.topic) :
    Passes requests (requests.map fun x ↦ (x.1, .answered (reply x.2))) := by
  induction requests with
  | nil => exact refl []
  | cons x requests ih =>
    obtain ⟨⟨hopen, htopic⟩, hrest⟩ := List.forall_mem_cons.1 h
    have hmove := move x.1 requests (.answer hopen htopic)
    exact hmove.trans ((ih hrest).append_left [(x.1, .answered (reply x.2))])

/-- **No request is lost and none is doubled.** -/
theorem perm_tickets (h : Passes before after) :
    (before.map Prod.fst).Perm (after.map Prod.fst) := by
  induction h with
  | perm h => exact h.map Prod.fst
  | move ticket rest h => exact .refl _
  | trans _ _ ih ih' => exact ih.trans ih'

/-- Where every request was at a place that suits it, it still is. -/
theorem suits {requests : List (Ticket × Command)} (h : Passes before after)
    (hbefore : ∀ x ∈ before, ∃ command, (x.1, command) ∈ requests ∧ x.2.Suits command) :
    ∀ x ∈ after, ∃ command, (x.1, command) ∈ requests ∧ x.2.Suits command := by
  induction h with
  | perm h => exact fun x hx ↦ hbefore x (h.mem_iff.2 hx)
  | move ticket rest h =>
    obtain ⟨⟨command, hcommand, hsuits⟩, hrest⟩ := List.forall_mem_cons.1 hbefore
    exact List.forall_mem_cons.2 ⟨⟨command, hcommand, h.suits hsuits⟩, hrest⟩
  | trans _ _ ih ih' => exact ih' (ih hbefore)

/-- **Each request is at exactly one place**, and the place suits what was asked for. -/
theorem exists_place {requests : List (Ticket × Command)}
    (h : Passes (requests.map fun x ↦ (x.1, .queued x.2)) after)
    (hnodup : (requests.map Prod.fst).Nodup) {ticket : Ticket} {command : Command}
    (hmem : (ticket, command) ∈ requests) :
    ∃ place, (after.filter fun x ↦ x.1 = ticket).map Prod.snd = [place] ∧
      place.Suits command := by
  have htickets : (requests.map Prod.fst).Perm (after.map Prod.fst) := by
    have hperm := h.perm_tickets
    rwa [List.map_map] at hperm
  have hafter : (after.map Prod.fst).Nodup := htickets.nodup_iff.1 hnodup
  have hplaced : ticket ∈ after.map Prod.fst :=
    htickets.mem_iff.1 (List.mem_map.2 ⟨_, hmem, rfl⟩)
  obtain ⟨place, hfind⟩ :=
    Option.isSome_iff_exists.1 ((Keyed.isSome_find?_iff ticket after).2 hplaced)
  have hplace : (ticket, place) ∈ after := (Keyed.find?_eq_some_iff_mem hafter ticket place).1 hfind
  have hsuited : ∀ x ∈ after, ∃ asked, (x.1, asked) ∈ requests ∧ x.2.Suits asked := by
    refine h.suits fun x hx ↦ ?_
    obtain ⟨request, hrequest, rfl⟩ := List.mem_map.1 hx
    exact ⟨request.2, hrequest, rfl⟩
  obtain ⟨asked, hasked, hsuits⟩ := hsuited _ hplace
  refine ⟨place, by rw [Keyed.filter_key hafter, hfind]; rfl, ?_⟩
  -- the command under the number of the request is the one that was made under it
  have hsame : asked = command := by
    have hfound := (Keyed.find?_eq_some_iff_mem hnodup ticket asked).2 hasked
    rw [(Keyed.find?_eq_some_iff_mem hnodup ticket command).2 hmem] at hfound
    exact (Option.some.inj hfound).symm
  exact hsame ▸ hsuits

end Passes

end Overlay.Host
