import Overlay.Proofs.Handshake.Dialogue

/-!
# Agreement of the two sides

What one side of a dialogue learns from its outcome about the other (`handshake_agreement`). The
safety half rests on the order of the bytes alone: an initiator that is content has received the
whole reply, so the responder has sent it, and it sends nothing before it has received the
request.

For the other half nothing fails and the ends that come too early are fewer than the attempts.
`Dialogue.Harmonious` is the invariant: the initiator has not failed, and the responder is at
most one attempt ahead of the early ends. What a side reads belongs to the token it expects, and
no side closes the stream before the other is done with it, so neither finds anything else.
Where no step is left, a side that still waits would wait for bytes that have all arrived.

The sides of a dialogue stand for the two tasks of the handshake: what happened at a side that came
to its end is what happens in `request`, or in the responder's task, on some wire
(`Dialogue.Run.tasks`, in `Overlay.Proofs.Handshake.Scripts`). So what is said here of outcomes and
events is said of these tasks.
-/

namespace Overlay.Handshake

variable {σ ω : Type}

/-- Bytes as long as the token of which they are an initial part are all of it. -/
theorem eq_token_of_append {xs ys token : List UInt8} (h : xs ++ ys <+: token)
    (hlen : token.length ≤ xs.length) : xs = token ∧ ys = [] := by
  have hxs : xs = token := ((List.prefix_append xs ys).trans h).eq_of_length_le hlen
  have hle := h.length_le
  rw [List.length_append] at hle
  exact ⟨hxs, List.eq_nil_of_length_eq_zero (by omega)⟩

/-! ### What a side that is stuck waits for -/

/-- A step that asks for something: a read has room, and a write has bytes. -/
def Step.Asks : Step σ ω → Prop
  | .read room _ => 0 < room
  | .write bytes _ => bytes ≠ []
  | .pause _ _ | .flush _ | .done _ => True

theorem Initiator.asks_of_valid {s : State} (h : Valid s) : (party.step s).Asks := by
  cases s with
  | requesting left => exact h
  | awaiting got => exact Nat.sub_pos_of_lt h
  | flushing | finished => exact trivial

theorem Responder.asks_of_valid {config : Config} {s : State} (h : Valid config s) :
    ((party config).step s).Asks := by
  cases s with
  | awaiting attempt got => exact Nat.sub_pos_of_lt h.2.2
  | replying left => exact h
  | backingOff | flushing | finished => exact trivial

/-- A side that cannot go on by itself waits for bytes of the other side. -/
theorem Side.reads_of_stuck {party : Party σ ω} {closed : Prop} {inbox : List UInt8}
    {side : Side σ ω} (hasks : (party.step side.state).Asks)
    (hstuck : ∀ side' inbox' out, ¬ side.Move party closed inbox .regular side' inbox' out) :
    (∃ room next, party.step side.state = .read room next) ∧ inbox = [] ∧ ¬ closed := by
  have hanswer : ∀ {e : Event} {q : σ} {inbox' out : List UInt8},
      Answered (party.step side.state) e q →
        ¬ Carries closed (received side.events = []) inbox .regular e inbox' out :=
    fun h hcarries ↦ hstuck _ _ _ (.answer h hcarries)
  have hdone : ∀ v, party.step side.state ≠ .done v := fun v h ↦ hstuck _ _ _ (.done h)
  generalize party.step side.state = s at hasks hanswer hdone
  cases s with
  | read room next =>
    have hinbox : inbox = [] := by
      -- else the stream could bring as much of it as there is room for
      refine Decidable.byContradiction fun hne ↦ ?_
      have hpos := List.length_pos_iff.2 hne
      have hroom : 0 < room := hasks
      have hchunk : inbox.take room ≠ [] := by
        rw [← List.length_pos_iff, List.length_take]
        omega
      have hcarries : Carries closed (received side.events = [])
          (inbox.take room ++ inbox.drop room) .regular (.read room (.ok (inbox.take room)))
          (inbox.drop room) [] := .bytes hchunk
      rw [List.take_append_drop] at hcarries
      exact hanswer (.read_ok (List.length_take_le room inbox)) hcarries
    refine ⟨⟨room, next, rfl⟩, hinbox, fun hclosed ↦ ?_⟩
    subst hinbox
    have hread : Answered (.read room next : Step σ ω) (.read room (.ok [])) (next (.ok [])) :=
      .read_ok (Nat.zero_le room)
    exact hanswer hread (.ended hclosed)
  | pause delay next => exact absurd .rested (hanswer .pause)
  | write bytes next =>
    have hwrite : Answered (.write bytes next : Step σ ω)
        (.wrote (.ok (bytes.take bytes.length))) (next (.ok bytes.length)) :=
      .write_ok (Nat.le_refl _)
    rw [List.take_length] at hwrite
    exact absurd (.wrote hasks) (hanswer hwrite)
  | flush next =>
    have hflush : Answered (.flush next : Step σ ω) (.flushed (.ok ())) (next (.ok ())) := .flush
    exact absurd .flushed (hanswer hflush)
  | done v => exact absurd rfl (hdone v)

/-! ### A side to which nothing bad happens -/

/-- The states of an initiator that has not failed. -/
def Initiator.Hopeful : State → Prop
  | .finished (.error _) => False
  | _ => True

/-- The states of a responder that has met no more than `ends` early ends and nothing else
unexpected. -/
def Responder.Hopeful (ends : Nat) : State → Prop
  | .awaiting attempt _ => attempt ≤ ends + 1
  | .backingOff attempt => attempt ≤ ends
  | .finished verdict => verdict = .responded
  | .replying _ | .flushing => True

/-- An initiator expects nothing but the reply, and no end before it. -/
theorem Initiator.Hopeful.move {closed : Prop} {inbox inbox' out : List UInt8}
    {side side' : Side State Verdict} (hs : Hopeful side.state) (hside : side.Recorded party)
    (hinbox : received side.events ++ inbox <+: Settings.handshakeReply)
    (hclosed : closed → received side.events ++ inbox = Settings.handshakeReply)
    (h : side.Move party closed inbox .regular side' inbox' out) : Hopeful side'.state := by
  cases h with
  | done _ => exact hs
  | @answer _ e q _ _ hanswer hcarries =>
    have haccords := accords_of_trace hside.trace
    have htransition : Transition side.state e q := transition_of_answered hanswer
    obtain ⟨state, events, outcome⟩ := side
    show Hopeful q
    cases htransition with
    | wroteSome | wroteAll | flushed | more | accepted => exact trivial
    | stalled => cases hcarries with | wrote htaken => exact absurd rfl htaken
    | writeFailed | flushFailed | readFailed => cases hcarries
    | @rejected got bytes hroom htoken hend =>
      -- a token of the full length can only be the reply, and the end comes only after it
      have hgot : received events = got := haccords.2
      rw [hgot] at hinbox hclosed
      cases hcarries with
      | bytes hchunk =>
        rw [← List.append_assoc] at hinbox
        exact absurd (eq_token_of_append hinbox (hend.resolve_left hchunk)).1 htoken
      | ended hended =>
        exact absurd (hclosed hended) htoken

/-- A responder expects nothing but the request, and no end before it. -/
theorem Responder.Hopeful.move {config : Config} {ends : Nat} {closed : Prop}
    {inbox inbox' out : List UInt8} {side side' : Side State Verdict}
    (hs : Hopeful ends side.state) (hside : side.Recorded (party config))
    (hinbox : received side.events ++ inbox <+: Settings.handshakeRequest)
    (hclosed : closed → sent side.events ≠ [])
    (h : side.Move (party config) closed inbox .regular side' inbox' out) :
    Hopeful ends side'.state := by
  cases h with
  | done _ => exact hs
  | @answer _ e q _ _ hanswer hcarries =>
    have haccords := accords_of_trace hside.trace
    have htransition : Transition config side.state e q := transition_of_answered hanswer
    obtain ⟨state, events, outcome⟩ := side
    show Hopeful ends q
    cases htransition with
    | more => exact hs
    | accepted | wroteSome | wroteAll => exact trivial
    | flushed => exact rfl
    | rested => exact Nat.succ_le_succ hs
    | stalled => cases hcarries with | wrote htaken => exact absurd rfl htaken
    | readFailed | writeFailed | flushFailed => cases hcarries
    | backedOff | gaveUp =>
      cases hcarries with
      | bytes hchunk => exact absurd rfl hchunk
      | ended hended => exact absurd haccords.1.sent_eq_nil (hclosed hended)
    | @rejected attempt got bytes hroom hne htoken hend =>
      -- a token of the full length can only be the request, and the end comes only after a reply
      have hgot : received events = got := haccords.2.1
      rw [hgot] at hinbox
      cases hcarries with
      | bytes hchunk =>
        rw [← List.append_assoc] at hinbox
        exact absurd (eq_token_of_append hinbox (hend.resolve_left hchunk)).1 htoken
      | ended hended => exact absurd haccords.1.sent_eq_nil (hclosed hended)

/-- An early end costs a responder an attempt, but not the last one. -/
theorem Responder.Hopeful.move_spuriousEnd {config : Config} {ends : Nat} {closed : Prop}
    {inbox inbox' out : List UInt8} {side side' : Side State Verdict}
    (hs : Hopeful ends side.state) (hside : side.Recorded (party config))
    (hends : ends + 1 < config.attempts)
    (h : side.Move (party config) closed inbox .spuriousEnd side' inbox' out) :
    Hopeful (ends + 1) side'.state := by
  cases h with
  | @answer _ e q _ _ hanswer hcarries =>
    have haccords := accords_of_trace hside.trace
    have htransition : Transition config side.state e q := transition_of_answered hanswer
    obtain ⟨state, events, outcome⟩ := side
    show Hopeful (ends + 1) q
    cases hcarries with
    | spuriousEnd hearly =>
    cases htransition with
    | more hbytes => exact absurd rfl hbytes
    | backedOff => exact hs
    | gaveUp hattempt =>
      -- so many attempts would need as many early ends
      have hle : _ ≤ ends + 1 := hs
      omega
    | @accepted _ got _ _ htoken =>
      have hgot : [] = got := hearly.symm.trans haccords.2.1
      rw [← hgot] at htoken
      cases htoken
    | @rejected _ got _ _ hne _ _ =>
      have hgot : [] = got := hearly.symm.trans haccords.2.1
      exact absurd (by rw [← hgot]; rfl) hne

/-! ### Harmony -/

theorem Side.Move.ne_error {party : Party σ ω} {closed : Prop} {inbox inbox' out : List UInt8}
    {side side' : Side σ ω} {cause : Cause}
    (h : side.Move party closed inbox cause side' inbox' out)
    (hopen : side.outcome = none) (hcause : cause ≠ .fault) (why : Interrupted) :
    side'.outcome ≠ some (.error why) := by
  cases h with
  | answer _ _ =>
    show side.outcome ≠ _
    rw [hopen]
    nofun
  | done _ => nofun
  | cut _ => exact absurd rfl hcause

namespace Dialogue

variable {config : Config}

/-- Nothing has gone wrong but `ends` early ends. -/
structure Harmonious (ends : Nat) (d : Dialogue) : Prop where
  initiator : Initiator.Hopeful d.initiator.state
  responder : Responder.Hopeful ends d.responder.state
  initiatorUncut : ∀ why, d.initiator.outcome ≠ some (.error why)
  responderUncut : ∀ why, d.responder.outcome ≠ some (.error why)

section Sound

variable {d : Dialogue} (hd : d.Sound config)
include hd

/-- What reaches the initiator is the reply, as far as it has been sent. -/
theorem Sound.prefix_reply :
    received d.initiator.events ++ d.toInitiator <+: Settings.handshakeReply := by
  rw [← hd.inOrder.toInitiator]
  exact Responder.sent_prefix_of_trace hd.responder.trace

/-- What reaches the responder is the request, as far as it has been sent. -/
theorem Sound.prefix_request :
    received d.responder.events ++ d.toResponder <+: Settings.handshakeRequest := by
  rw [← hd.inOrder.toResponder]
  exact Initiator.sent_prefix_of_trace hd.initiator.trace

/-- A content initiator has sent the request and received the reply. -/
theorem Sound.account_of_ok (hok : d.initiator.outcome = some (.ok (.ok ()))) :
    sent d.initiator.events = Settings.handshakeRequest ∧
      received d.initiator.events = Settings.handshakeReply := by
  have haccords := Initiator.accords_of_trace hd.initiator.trace
  rw [Initiator.eq_finished_of_step (hd.initiator.done _ hok)] at haccords
  exact haccords

/-- Whoever replies has received the request, and nothing else. -/
theorem Sound.received_of_sent (hsent : sent d.responder.events ≠ []) :
    received d.responder.events = Settings.handshakeRequest := by
  rcases Responder.listening_or_replying hd.responder.trace with hlisten | ⟨left, hreply⟩
  · exact absurd hlisten.sent_eq_nil hsent
  · exact hreply.received

/-- A responder that has answered has received the request and sent the reply. -/
theorem Sound.account_of_responded (hok : d.responder.outcome = some (.ok .responded)) :
    received d.responder.events = Settings.handshakeRequest ∧
      sent d.responder.events = Settings.handshakeReply := by
  have haccords := Responder.accords_of_trace hd.responder.trace
  rw [Responder.eq_finished_of_step (hd.responder.done _ hok)] at haccords
  exact ⟨haccords.received, by rw [← haccords.sent, List.append_nil]⟩

/-- A content initiator tells of its responder. -/
theorem Sound.responder_of_ok (hok : d.initiator.outcome = some (.ok (.ok ()))) :
    received d.responder.events = Settings.handshakeRequest ∧
      sent d.responder.events = Settings.handshakeReply := by
  have hprefix := hd.prefix_reply
  rw [(hd.account_of_ok hok).2] at hprefix
  have hsent : sent d.responder.events = Settings.handshakeReply := by
    rw [hd.inOrder.toInitiator, (hd.account_of_ok hok).2,
      (eq_token_of_append hprefix (Nat.le_refl _)).2, List.append_nil]
  refine ⟨hd.received_of_sent ?_, hsent⟩
  rw [hsent]
  nofun

/-- A responder that has answered tells of its initiator. -/
theorem Sound.initiator_of_responded (hok : d.responder.outcome = some (.ok .responded)) :
    sent d.initiator.events = Settings.handshakeRequest := by
  have hprefix := hd.prefix_request
  rw [(hd.account_of_responded hok).1] at hprefix
  rw [hd.inOrder.toResponder, (hd.account_of_responded hok).1,
    (eq_token_of_append hprefix (Nat.le_refl _)).2, List.append_nil]

variable {ends : Nat} (hh : d.Harmonious ends)
include hh

/-- In harmony an initiator that has ended is content. -/
theorem Harmonious.ok_of_ended (hended : d.initiator.outcome ≠ none) :
    d.initiator.outcome = some (.ok (.ok ())) := by
  rcases houtcome : d.initiator.outcome with - | why | v
  · exact absurd houtcome hended
  · exact absurd houtcome (hh.initiatorUncut why)
  · have hhopeful := hh.initiator
    rw [Initiator.eq_finished_of_step (hd.initiator.done v houtcome)] at hhopeful
    cases v with
    | ok _ => rfl
    | error _ => cases hhopeful

/-- In harmony a responder that has ended has answered. -/
theorem Harmonious.responded_of_ended (hended : d.responder.outcome ≠ none) :
    d.responder.outcome = some (.ok .responded) := by
  rcases houtcome : d.responder.outcome with - | why | v
  · exact absurd houtcome hended
  · exact absurd houtcome (hh.responderUncut why)
  · have hhopeful := hh.responder
    rw [Responder.eq_finished_of_step (hd.responder.done v houtcome)] at hhopeful
    rw [show v = .responded from hhopeful]

/-- In harmony the responder ends only when all of the reply is on its way. -/
theorem Harmonious.reply_of_ended (hended : d.responder.outcome ≠ none) :
    received d.initiator.events ++ d.toInitiator = Settings.handshakeReply := by
  rw [← hd.inOrder.toInitiator]
  exact (hd.account_of_responded (hh.responded_of_ended hd hended)).2

/-- In harmony the initiator ends only when the responder has replied. -/
theorem Harmonious.sent_of_ended (hended : d.initiator.outcome ≠ none) :
    sent d.responder.events ≠ [] := by
  rw [(hd.responder_of_ok (hh.ok_of_ended hd hended)).2]
  nofun

/-- **A regular step keeps the harmony.** -/
theorem Harmonious.step {d' : Dialogue} (h : d.Step config .regular d') : d'.Harmonious ends := by
  cases h with
  | initiator hopen _ hmove =>
    exact ⟨hh.initiator.move hd.initiator hd.prefix_reply (hh.reply_of_ended hd) hmove,
      hh.responder, hmove.ne_error hopen nofun, hh.responderUncut⟩
  | responder hopen hmove =>
    exact ⟨hh.initiator,
      hh.responder.move hd.responder hd.prefix_request (hh.sent_of_ended hd) hmove,
      hh.initiatorUncut, hmove.ne_error hopen nofun⟩

/-- **An early end keeps the harmony** while attempts are left. -/
theorem Harmonious.step_spuriousEnd {d' : Dialogue} (hends : ends + 1 < config.attempts)
    (h : d.Step config .spuriousEnd d') : d'.Harmonious (ends + 1) := by
  cases h with
  | initiator _ hcause _ => exact absurd rfl hcause
  | responder hopen hmove =>
    exact ⟨hh.initiator, hh.responder.move_spuriousEnd hd.responder hends hmove,
      hh.initiatorUncut, hmove.ne_error hopen nofun⟩

end Sound

theorem harmonious_begin (config : Config) : (begin config).Harmonious 0 where
  initiator := trivial
  responder := Nat.le_refl 1
  initiatorUncut := nofun
  responderUncut := nofun

/-- **Runs in which nothing fails are harmonious.** -/
theorem Run.harmonious {causes : List Cause} {d : Dialogue} (h : Run config causes d)
    (hfault : .fault ∉ causes) (hends : causes.count .spuriousEnd < config.attempts) :
    d.Harmonious (causes.count .spuriousEnd) := by
  induction h with
  | start => exact harmonious_begin config
  | @step causes d d' cause hrun hstep ih =>
    rw [List.count_append] at hends ⊢
    have hcauses : .fault ∉ causes := fun hmem ↦ hfault (List.mem_append_left _ hmem)
    have hh := ih hcauses (Nat.lt_of_le_of_lt (Nat.le_add_right _ _) hends)
    cases cause with
    | regular => exact hh.step hrun.sound hstep
    | spuriousEnd => exact hh.step_spuriousEnd hrun.sound hends hstep
    | fault => exact absurd (List.mem_append_right _ List.mem_cons_self) hfault

/-! ### Where no step is left -/

section Stuck

variable {d : Dialogue} {ends : Nat} (hd : d.Sound config) (hh : d.Harmonious ends)
  (hstuck : ∀ d', ¬ d.Step config .regular d')
include hd hstuck

/-- An initiator that is stuck before its end waits for more of the reply. -/
theorem awaiting_of_stuck_initiator (hopen : d.initiator.outcome = none) :
    sent d.initiator.events = Settings.handshakeRequest ∧
      (received d.initiator.events).length < Settings.tokenLength ∧
      d.toInitiator = [] ∧ d.responder.outcome = none := by
  have hvalid := Initiator.bounded.valid_of_trace hd.initiator.trace
  have haccords := Initiator.accords_of_trace hd.initiator.trace
  obtain ⟨⟨room, next, hstep⟩, hinbox, hclosed⟩ :=
    Side.reads_of_stuck (Initiator.asks_of_valid hvalid)
      fun side inbox out hmove ↦ hstuck _ (.initiator hopen nofun hmove)
  cases hstate : d.initiator.state with
  | awaiting got =>
    rw [hstate] at hvalid haccords
    obtain ⟨hsent, hreceived⟩ := haccords
    exact ⟨hsent, by rw [hreceived]; exact hvalid, hinbox, Decidable.not_not.1 hclosed⟩
  | requesting | flushing | finished => rw [hstate] at hstep; cases hstep

/-- A responder that is stuck before its end waits for more of the request. -/
theorem awaiting_of_stuck_responder (hopen : d.responder.outcome = none) :
    sent d.responder.events = [] ∧
      (received d.responder.events).length < Settings.tokenLength ∧
      d.toResponder = [] ∧ d.initiator.outcome = none := by
  have hvalid := (Responder.bounded config).valid_of_trace hd.responder.trace
  have haccords := Responder.accords_of_trace hd.responder.trace
  obtain ⟨⟨room, next, hstep⟩, hinbox, hclosed⟩ :=
    Side.reads_of_stuck (Responder.asks_of_valid hvalid)
      fun side inbox out hmove ↦ hstuck _ (.responder hopen hmove)
  cases hstate : d.responder.state with
  | awaiting attempt got =>
    rw [hstate] at hvalid haccords
    obtain ⟨hlisten, hreceived, -⟩ := haccords
    exact ⟨hlisten.sent_eq_nil, by rw [hreceived]; exact hvalid.2.2, hinbox,
      Decidable.not_not.1 hclosed⟩
  | backingOff | replying | flushing | finished => rw [hstate] at hstep; cases hstep

/-- The two sides never wait for each other. -/
theorem ended_of_stuck : d.initiator.outcome ≠ none ∧ d.responder.outcome ≠ none := by
  have hresponder : d.responder.outcome ≠ none := by
    intro hopen
    obtain ⟨-, hshort, hinbox, hopen'⟩ := awaiting_of_stuck_responder hd hstuck hopen
    obtain ⟨hsent, -, -, -⟩ := awaiting_of_stuck_initiator hd hstuck hopen'
    -- the request has been sent and is not on its way, so it has been received
    rw [← List.append_nil (received d.responder.events), ← hinbox, ← hd.inOrder.toResponder,
      hsent] at hshort
    exact absurd hshort (by decide)
  refine ⟨fun hopen ↦ ?_, hresponder⟩
  obtain ⟨-, -, -, hopen'⟩ := awaiting_of_stuck_initiator hd hstuck hopen
  exact hresponder hopen'

include hh

/-- **No deadlock**: where no step is left, both sides have ended well. -/
theorem agreed_of_stuck : d.initiator.outcome = some (.ok (.ok ())) ∧
    d.responder.outcome = some (.ok .responded) := by
  obtain ⟨hinitiator, hresponder⟩ := ended_of_stuck hd hstuck
  exact ⟨hh.ok_of_ended hd hinitiator, hh.responded_of_ended hd hresponder⟩

end Stuck

end Dialogue

/-- **The two sides agree**, in whatever order they take their steps and however the stream cuts
up what they send.

1. Even if either side is cut off or its stream fails: an initiator that is content has sent the
   request and received the reply, and the responder has received just the request and sent
   all of the reply.
2. Under the same conditions, if the responder has answered, the initiator has sent all of
   the request.
3. If nothing fails and the ends that come too early are fewer than the attempts, then where no
   regular step is left the initiator is content and the responder has answered.
4. No run goes on forever. -/
theorem handshake_agreement {config : Config} {causes : List Cause} {d : Dialogue}
    (h : Dialogue.Run config causes d) :
    (d.initiator.outcome = some (.ok (.ok ())) →
      received d.responder.events = Settings.handshakeRequest ∧
      sent d.responder.events = Settings.handshakeReply) ∧
    (d.responder.outcome = some (.ok .responded) →
      sent d.initiator.events = Settings.handshakeRequest) ∧
    (.fault ∉ causes → causes.count .spuriousEnd < config.attempts →
      (∀ d', ¬ d.Step config .regular d') →
      d.initiator.outcome = some (.ok (.ok ())) ∧
      d.responder.outcome = some (.ok .responded)) ∧
    causes.length ≤ Initiator.party.remaining Initiator.party.start +
      (Responder.party config).remaining (Responder.party config).start + 2 :=
  ⟨h.sound.responder_of_ok, h.sound.initiator_of_responded,
    fun hfault hends hstuck ↦ Dialogue.agreed_of_stuck h.sound (h.harmonious hfault hends) hstuck,
    h.length_le⟩

/-- A dialogue with one early end, in which the request arrives in two parts. -/
theorem handshake_agreement_after_early_end : ∃ causes d, Dialogue.Run ⟨2, 10, 100⟩ causes d ∧
    .fault ∉ causes ∧ causes.count .spuriousEnd < Config.attempts ⟨2, 10, 100⟩ ∧
    (∀ d', ¬ d.Step ⟨2, 10, 100⟩ .regular d') ∧
    (received d.responder.events = Settings.handshakeRequest ∧
      sent d.responder.events = Settings.handshakeReply) ∧
    sent d.initiator.events = Settings.handshakeRequest ∧
    d.initiator.outcome = some (.ok (.ok ())) ∧ d.responder.outcome = some (.ok .responded) := by
  let asking : List Event := [.wrote (.ok Settings.handshakeRequest), .flushed (.ok ())]
  let asked : List Event := asking ++ [.read 5 (.ok Settings.handshakeReply)]
  let waited : List Event := [.read 5 (.ok []), .rested]
  let heard : List Event :=
    waited ++ [.read 5 (.ok [0x50, 0x49]), .read 3 (.ok [0x4E, 0x47, 0x0A])]
  let replied : List Event :=
    heard ++ [.wrote (.ok Settings.handshakeReply), .flushed (.ok ())]
  have hwaited : Dialogue.Run ⟨2, 10, 100⟩ [.spuriousEnd, .regular]
      ⟨.begin Initiator.party, ⟨.awaiting 2 [], waited, none⟩, [], []⟩ :=
    .step (.step .start (.responder rfl (.answer (.read_ok (Nat.zero_le _)) (.spuriousEnd rfl))))
      (.responder rfl (.answer .pause .rested))
  have hasking : Dialogue.Run ⟨2, 10, 100⟩ [.spuriousEnd, .regular, .regular, .regular]
      ⟨⟨.awaiting [], asking, none⟩, ⟨.awaiting 2 [], waited, none⟩,
        Settings.handshakeRequest, []⟩ :=
    .step (.step hwaited
      (.initiator rfl (by decide) (.answer (.write_ok (Nat.le_refl _)) (.wrote (by decide)))))
      (.initiator rfl (by decide) (.answer .flush .flushed))
  have hhearing : Dialogue.Run ⟨2, 10, 100⟩ [.spuriousEnd, .regular, .regular, .regular, .regular]
      ⟨⟨.awaiting [], asking, none⟩,
        ⟨.awaiting 2 [0x50, 0x49], waited ++ [.read 5 (.ok [0x50, 0x49])], none⟩,
        [0x4E, 0x47, 0x0A], []⟩ :=
    .step hasking (.responder rfl (.answer (.read_ok (by decide))
      (.bytes (show ([0x50, 0x49] : List UInt8) ≠ [] by decide))))
  have hheard : Dialogue.Run ⟨2, 10, 100⟩ (.spuriousEnd :: List.replicate 5 .regular)
      ⟨⟨.awaiting [], asking, none⟩, ⟨.replying Settings.handshakeReply, heard, none⟩, [], []⟩ :=
    .step hhearing (.responder rfl (.answer (.read_ok (by decide))
      (.bytes (show ([0x4E, 0x47, 0x0A] : List UInt8) ≠ [] by decide))))
  have hreplied : Dialogue.Run ⟨2, 10, 100⟩ (.spuriousEnd :: List.replicate 7 .regular)
      ⟨⟨.awaiting [], asking, none⟩, ⟨.finished .responded, replied, none⟩, [],
        Settings.handshakeReply⟩ :=
    .step (.step hheard
      (.responder rfl (.answer (.write_ok (Nat.le_refl _)) (.wrote (by decide)))))
      (.responder rfl (.answer .flush .flushed))
  have hasked : Dialogue.Run ⟨2, 10, 100⟩ (.spuriousEnd :: List.replicate 8 .regular)
      ⟨⟨.finished (.ok ()), asked, none⟩, ⟨.finished .responded, replied, none⟩, [], []⟩ :=
    .step hreplied (.initiator rfl (by decide) (.answer (.read_ok (by decide))
      (.bytes (show Settings.handshakeReply ≠ [] by decide))))
  have hended : Dialogue.Run ⟨2, 10, 100⟩ (.spuriousEnd :: List.replicate 10 .regular)
      ⟨⟨.finished (.ok ()), asked, some (.ok (.ok ()))⟩,
        ⟨.finished .responded, replied, some (.ok .responded)⟩, [], []⟩ :=
    .step (.step hasked (.initiator rfl (by decide) (.done rfl))) (.responder rfl (.done rfl))
  have hstuck : ∀ d', ¬ Dialogue.Step ⟨2, 10, 100⟩
      ⟨⟨.finished (.ok ()), asked, some (.ok (.ok ()))⟩,
        ⟨.finished .responded, replied, some (.ok .responded)⟩, [], []⟩ .regular d' := by
    intro d' hstep
    cases hstep with
    | initiator hopen _ _ => cases hopen
    | responder hopen _ => cases hopen
  obtain ⟨hresponder, hinitiator, hagreed, -⟩ := handshake_agreement hended
  exact ⟨_, _, hended, by decide, by decide, hstuck, hresponder rfl, hinitiator rfl,
    hagreed (by decide) (by decide) hstuck⟩

end Overlay.Handshake
