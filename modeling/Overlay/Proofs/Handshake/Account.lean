import Overlay.Proofs.Handshake.Parties

/-!
# What the parties have read and written

A trace keeps account of the bytes that went in and out: `received` and `sent` are all of them,
and `latestToken` is what the token read under way, or the last one, has found so far. The
state of a party tells its account: `Responder.Accords` and `Initiator.Accords` say how, and
the two theorems `accords_of_trace` that they hold along every trace.

The account of a responder is what its discipline rests on. Up to the request it only
listens; from then on it only answers, and what it has sent and what is left to send make up
the reply.
-/

namespace Overlay.Handshake

/-- The bytes that a read found. -/
def Event.found : Event → List UInt8
  | .read _ (.ok bytes) => bytes
  | _ => []

/-- All bytes that were read. -/
def received (events : List Event) : List UInt8 := events.flatMap Event.found

/-- All bytes that were written. -/
def sent (events : List Event) : List UInt8 := events.flatMap Event.written

/-- The bytes of the token read under way, or of the last one. A token read begins with room for
a whole token, and every further read of it has less. -/
def latestToken (events : List Event) : List UInt8 :=
  events.foldl (fun token e ↦
    match e with
    | .read room (.ok bytes) => if room = Settings.tokenLength then bytes else token ++ bytes
    | .read _ (.error _) => []
    | _ => token) []

@[simp] theorem received_append (xs ys : List Event) :
    received (xs ++ ys) = received xs ++ received ys :=
  List.flatMap_append

@[simp] theorem sent_append (xs ys : List Event) : sent (xs ++ ys) = sent xs ++ sent ys :=
  List.flatMap_append

@[simp] theorem received_singleton (e : Event) : received [e] = e.found :=
  List.flatMap_singleton _ _

@[simp] theorem sent_singleton (e : Event) : sent [e] = e.written :=
  List.flatMap_singleton _ _

theorem sent_prefix {xs ys : List Event} (h : xs <+: ys) : sent xs <+: sent ys := by
  obtain ⟨zs, rfl⟩ := h
  exact ⟨sent zs, (sent_append xs zs).symm⟩

theorem latestToken_read {events : List Event} {got : List UInt8}
    (h : latestToken events = got) (bytes : List UInt8) :
    latestToken (events ++ [.read (room got) (.ok bytes)]) = got ++ bytes := by
  have hstep : latestToken (events ++ [.read (room got) (.ok bytes)]) =
      if room got = Settings.tokenLength then bytes else latestToken events ++ bytes := by
    rw [latestToken, List.foldl_append]
    rfl
  rw [hstep, h]
  by_cases hgot : got = []
  · rw [hgot, List.nil_append, ite_self]
  · have hpos := List.length_pos_iff.2 hgot
    rw [if_neg]
    rw [room, Settings.tokenLength]
    omega

/-- What is not a read leaves the latest token as it is. -/
theorem latestToken_append {events more : List Event} (h : ∀ e ∈ more, e.room? = none) :
    latestToken (events ++ more) = latestToken events := by
  rw [latestToken, List.foldl_append, ← latestToken]
  induction more with
  | nil => rfl
  | cons e more ih =>
    rw [List.foldl_cons]
    have he := h e List.mem_cons_self
    have hmore := ih fun e he ↦ h e (List.mem_cons_of_mem _ he)
    cases e with
    | read => cases he
    | rested | wrote | flushed | closed => exact hmore

/-! ### The responder -/

/-- Nothing has been written, or tried to. -/
def Listening (events : List Event) : Prop := ∀ e ∈ events, e.isWrite = false

/-- The latest token read before anything was written is the request, and nothing has been
read since. -/
def Answering (events : List Event) : Prop :=
  ∃ asked reply, events = asked ++ reply ∧ Listening asked ∧
    latestToken asked = Settings.handshakeRequest ∧ ∀ e ∈ reply, e.room? = none

/-- The request has arrived, and of the reply just `left` is still to be sent. -/
structure Replying (left : List UInt8) (events : List Event) : Prop where
  answering : Answering events
  received : received events = Settings.handshakeRequest
  sent : sent events ++ left = Settings.handshakeReply

theorem Listening.append {xs ys : List Event} (hx : Listening xs) (hy : Listening ys) :
    Listening (xs ++ ys) := by
  intro e he
  rcases List.mem_append.1 he with he | he
  · exact hx e he
  · exact hy e he

theorem Listening.snoc {events : List Event} {e : Event} (h : Listening events)
    (he : e.isWrite = false) : Listening (events ++ [e]) :=
  h.append fun x hx ↦ by rw [List.mem_singleton.1 hx, he]

theorem Listening.sent_eq_nil {events : List Event} (h : Listening events) :
    Handshake.sent events = [] := by
  refine List.flatMap_eq_nil_iff.2 fun e he ↦ ?_
  have := h e he
  cases e with
  | wrote result => cases this
  | read | rested | flushed | closed => rfl

theorem Answering.snoc {events : List Event} {e : Event} (h : Answering events)
    (he : e.room? = none) : Answering (events ++ [e]) := by
  obtain ⟨asked, reply, rfl, hlisten, htoken, hreply⟩ := h
  refine ⟨asked, reply ++ [e], List.append_assoc _ _ _, hlisten, htoken, fun x hx ↦ ?_⟩
  rcases List.mem_append.1 hx with hx | hx
  · exact hreply x hx
  · rw [List.mem_singleton.1 hx, he]

/-- While a reply is on its way, what is written comes off what is left. -/
theorem Replying.snoc {left rest : List UInt8} {events : List Event} {e : Event}
    (h : Replying left events) (he : e.room? = none) (hleft : left = e.written ++ rest) :
    Replying rest (events ++ [e]) where
  answering := h.answering.snoc he
  received := by
    have hfound : e.found = [] := by
      cases e with
      | read => cases he
      | rested | wrote | flushed | closed => rfl
    rw [received_append, received_singleton, hfound, List.append_nil, h.received]
  sent := by rw [sent_append, sent_singleton, List.append_assoc, ← hleft, h.sent]

namespace Responder

variable {config : Config}

/-- What the state of a responder tells of its account. -/
def Accords : State → List Event → Prop
  | .awaiting _ got, events =>
    Listening events ∧ received events = got ∧ latestToken events = got
  | .backingOff _, events => Listening events ∧ received events = [] ∧ latestToken events = []
  | .replying left, events => Replying left events
  | .flushing, events => Replying [] events
  | .finished .responded, events => Replying [] events
  | .finished (.rejected bytes), events => Listening events ∧ received events = bytes
  | .finished (.abandoned _), events => Listening events ∧ received events = []
  | .finished (.failed _), events => Listening events ∨ ∃ left, Replying left events

/-- **The account of a responder**, along every trace. -/
theorem accords_of_trace {events : List Event} {s : State}
    (h : (party config).Trace events s) : Accords s events := by
  induction h with
  | start => exact ⟨nofun, rfl, rfl⟩
  | @answer events s q e _ hanswer ih =>
    have h : Transition config s e q := transition_of_answered hanswer
    cases h with
    | readFailed => exact .inl (ih.1.snoc rfl)
    | more =>
      obtain ⟨hlisten, hreceived, htoken⟩ := ih
      exact ⟨hlisten.snoc rfl, by rw [received_append, received_singleton, hreceived]; rfl,
        latestToken_read htoken _⟩
    | rejected =>
      obtain ⟨hlisten, hreceived, -⟩ := ih
      exact ⟨hlisten.snoc rfl, by rw [received_append, received_singleton, hreceived]; rfl⟩
    | @accepted _ got bytes _ haccept =>
      -- here the listening ends, and nothing of the reply has been sent yet
      obtain ⟨hlisten, hreceived, htoken⟩ := ih
      have hlisten := hlisten.snoc (e := .read (room got) (.ok bytes)) rfl
      refine ⟨⟨_, [], (List.append_nil _).symm, hlisten, ?_, nofun⟩, ?_, ?_⟩
      · rw [latestToken_read htoken, haccept]
      · rw [received_append, received_singleton, hreceived, ← haccept]
        rfl
      · rw [hlisten.sent_eq_nil, List.nil_append]
    | backedOff =>
      obtain ⟨hlisten, hreceived, htoken⟩ := ih
      exact ⟨hlisten.snoc rfl, by rw [received_append, received_singleton, hreceived]; rfl,
        latestToken_read htoken []⟩
    | gaveUp =>
      obtain ⟨hlisten, hreceived, -⟩ := ih
      exact ⟨hlisten.snoc rfl, by rw [received_append, received_singleton, hreceived]; rfl⟩
    | rested =>
      obtain ⟨hlisten, hreceived, htoken⟩ := ih
      refine ⟨hlisten.snoc rfl, by rw [received_append, received_singleton, hreceived]; rfl, ?_⟩
      rw [latestToken_append (by simp [Event.room?]), htoken]
    | wroteSome => exact Replying.snoc ih rfl rfl
    | wroteAll => exact Replying.snoc ih rfl (List.append_nil _).symm
    | stalled => exact .inr ⟨_, Replying.snoc ih rfl rfl⟩
    | writeFailed => exact .inr ⟨_, Replying.snoc ih rfl rfl⟩
    | flushed => exact Replying.snoc ih rfl rfl
    | flushFailed => exact .inr ⟨_, Replying.snoc ih rfl rfl⟩

/-- At any time a responder only listens, or its reply is under way. -/
theorem listening_or_replying {events : List Event} {s : State}
    (h : (party config).Trace events s) :
    Listening events ∨ ∃ left, Replying left events := by
  have h := accords_of_trace h
  cases s with
  | awaiting | backingOff => exact .inl h.1
  | replying | flushing => exact .inr ⟨_, h⟩
  | finished verdict =>
    cases verdict with
    | responded => exact .inr ⟨_, h⟩
    | rejected | abandoned => exact .inl h.1
    | failed => exact h

/-- **A responder sends nothing but the reply.** -/
theorem sent_prefix_of_trace {events : List Event} {s : State}
    (h : (party config).Trace events s) : sent events <+: Settings.handshakeReply := by
  rcases listening_or_replying h with hlisten | ⟨left, hreply⟩
  · rw [hlisten.sent_eq_nil]
    exact List.nil_prefix
  · exact ⟨left, hreply.sent⟩

end Responder

/-! ### The initiator -/

namespace Initiator

/-- What the state of an initiator tells of its account. -/
def Accords : State → List Event → Prop
  | .requesting left, events =>
    sent events ++ left = Settings.handshakeRequest ∧ received events = []
  | .flushing, events => sent events = Settings.handshakeRequest ∧ received events = []
  | .awaiting got, events => sent events = Settings.handshakeRequest ∧ received events = got
  | .finished (.ok ()), events =>
    sent events = Settings.handshakeRequest ∧ received events = Settings.handshakeReply
  | .finished (.error _), events => sent events <+: Settings.handshakeRequest

/-- **The account of an initiator**, along every trace. -/
theorem accords_of_trace {events : List Event} {s : State} (h : party.Trace events s) :
    Accords s events := by
  induction h with
  | start => exact ⟨rfl, rfl⟩
  | @answer events s q e _ hanswer ih =>
    have h : Transition s e q := transition_of_answered hanswer
    cases h with
    | wroteSome =>
      obtain ⟨hsent, hreceived⟩ := ih
      exact ⟨by rw [sent_append, sent_singleton, List.append_assoc]; exact hsent,
        by rw [received_append, hreceived]; rfl⟩
    | wroteAll =>
      obtain ⟨hsent, hreceived⟩ := ih
      exact ⟨by rw [sent_append, sent_singleton]; exact hsent,
        by rw [received_append, hreceived]; rfl⟩
    | @stalled left | @writeFailed left _ =>
      -- a write that fails leaves what has been sent before
      have hsent : sent events ++ [] ++ left = Settings.handshakeRequest := by
        rw [List.append_nil, ih.1]
      exact ⟨left, by rw [sent_append]; exact hsent⟩
    | flushed =>
      obtain ⟨hsent, hreceived⟩ := ih
      exact ⟨by rw [sent_append, hsent]; rfl, by rw [received_append, hreceived]; rfl⟩
    | flushFailed => exact ⟨[], by rw [sent_append, ih.1]; rfl⟩
    | readFailed => exact ⟨[], by rw [sent_append, ih.1]; rfl⟩
    | more =>
      obtain ⟨hsent, hreceived⟩ := ih
      exact ⟨by rw [sent_append, hsent]; rfl,
        by rw [received_append, received_singleton, hreceived]; rfl⟩
    | accepted _ htoken =>
      obtain ⟨hsent, hreceived⟩ := ih
      exact ⟨by rw [sent_append, hsent]; rfl,
        by rw [received_append, received_singleton, hreceived, ← htoken]; rfl⟩
    | rejected => exact ⟨[], by rw [sent_append, ih.1]; rfl⟩

/-- **An initiator sends nothing but the request.** -/
theorem sent_prefix_of_trace {events : List Event} {s : State} (h : party.Trace events s) :
    sent events <+: Settings.handshakeRequest := by
  have h := accords_of_trace h
  cases s with
  | requesting left => exact ⟨left, h.1⟩
  | flushing | awaiting => exact ⟨[], by rw [h.1, List.append_nil]⟩
  | finished verdict =>
    cases verdict with
    | ok _ => exact ⟨[], by rw [h.1, List.append_nil]⟩
    | error _ => exact h

end Initiator

end Overlay.Handshake
