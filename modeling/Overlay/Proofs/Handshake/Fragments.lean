import Overlay.Proofs.Handshake.Delivery
import Overlay.Proofs.Handshake.Outcome

/-!
# Fragments do not matter

The bytes of a stream arrive in fragments, and neither party can tell in which. What a party
comes to, what it writes and how much it reads depend on the bytes alone, and on what becomes of
its writes (`fragmentation_independence`).

The responder reads a token and then only writes; the initiator only writes and then reads a
token. A course over writes is the same whatever there is to read (`Party.SendCourse`), and a
token read finds the same whatever the cutting (`Delivers.readToken`). So for each party one
lemma names the verdict and the bytes written before the script of the reads is given:
`Responder.exists_sent` and `Initiator.exists_sent`.
-/

namespace Overlay.Handshake

/-! ### Where a party gets to on its own -/

section Arrival

variable {σ ω : Type} {party : Party σ ω}

/-- From the state `s` the party does `events` on the wire and comes to the verdict, or it waits
forever. What is left of the wire is `wire'`. -/
def Party.Arrives (party : Party σ ω) (s : σ) (wire : Wire) (events : List Event) (wire' : Wire) :
    Option ω → Prop
  | none => ∃ q, party.Course s wire events q wire' ∧ party.Blocked q wire'
  | some v => ∃ q, party.Course s wire events q wire' ∧ party.step q = .done v

theorem Party.Arrives.of_course {s q : σ} {wire wire' wire'' : Wire} {events more : List Event}
    {verdict : Option ω} (hcourse : party.Course s wire events q wire')
    (h : party.Arrives q wire' more wire'' verdict) :
    party.Arrives s wire (events ++ more) wire'' verdict := by
  cases verdict with
  | none =>
    obtain ⟨r, hmore, hblocked⟩ := h
    exact ⟨r, hcourse.trans hmore, hblocked⟩
  | some v =>
    obtain ⟨r, hmore, hdone⟩ := h
    exact ⟨r, hcourse.trans hmore, hdone⟩

/-- What a party has not received is left for it. -/
theorem Party.Arrives.delivers {s : σ} {wire wire' : Wire} {events : List Event}
    {verdict : Option ω} {bytes : List UInt8} {n : Nat}
    (h : party.Arrives s wire events wire' verdict) (hbytes : Delivers wire.reads bytes)
    (hreceived : received events = bytes.take n) : Delivers wire'.reads (bytes.drop n) := by
  obtain ⟨q, hcourse⟩ : ∃ q, party.Course s wire events q wire' := by
    cases verdict with
    | none | some _ => exact ⟨h.choose, h.choose_spec.1⟩
  obtain ⟨rest, heq, hrest⟩ := hcourse.delivers hbytes
  have hdrop : rest = bytes.drop n := by
    rw [hreceived] at heq
    exact List.append_cancel_left (heq.symm.trans (List.take_append_drop n bytes).symm)
  rwa [← hdrop]

/-- A party that only writes from here on arrives at the same verdict whatever there is to read. -/
theorem Party.SendCourse.arrives {s : σ} {writes : List Writing}
    {flush : Delayed (Except Failure Unit)} {verdict : Option ω} {final : ω → σ}
    (h : party.SendCourse s writes flush (verdict.map final))
    (hfinal : ∀ v, party.step (final v) = .done v) :
    ∃ events writes', Outgoing events ∧ ∀ reads,
      party.Arrives s ⟨reads, writes, flush⟩ events ⟨reads, writes', flush⟩ verdict := by
  cases verdict with
  | none =>
    obtain ⟨events, q, writes', hout, hcourse⟩ := h
    exact ⟨events, writes', hout, fun reads ↦ ⟨q, hcourse reads⟩⟩
  | some v =>
    obtain ⟨events, writes', hout, hcourse⟩ := h
    exact ⟨events, writes', hout, fun reads ↦ ⟨final v, hcourse reads, hfinal v⟩⟩

/-- What a task came to, whenever it did. -/
def Task.outcome? (t : Task σ ω) : Option (Except Interrupted ω) := t.ending.map Prod.snd

/-- Neither a deadline nor a cancellation cut the task off. -/
def Task.Undisturbed (t : Task σ ω) : Prop := ∀ time why, t.ending ≠ some (time, .error why)

/-- A task that is not cut off gets where its party gets on its own. -/
theorem Task.run_of_arrives {Valid : σ → Prop} (hb : party.Bounded Valid) {limits : Limits}
    {wire wire' : Wire} {now : Nat} {events : List Event} {verdict : Option ω}
    (hgo : ((begin party wire now).run party limits).Undisturbed)
    (h : party.Arrives party.start wire events wire' verdict) :
    ((begin party wire now).run party limits).outcome? = verdict.map .ok ∧
      sent ((begin party wire now).run party limits).history = sent events ∧
      received ((begin party wire now).run party limits).history = received events ∧
      (verdict.isSome → ((begin party wire now).run party limits).wire = wire') := by
  rw [run_eq_run_unlimited hgo]
  cases verdict with
  | none =>
    obtain ⟨q, hcourse, hblocked⟩ := h
    have hrun : ((begin party wire now).run party .unlimited).ending = none ∧
        ((begin party wire now).run party .unlimited).history = events :=
      run_of_course_blocked hb hcourse hblocked
    rw [outcome?, hrun.1, hrun.2]
    exact ⟨rfl, rfl, rfl, nofun⟩
  | some v =>
    obtain ⟨q, hcourse, hdone⟩ := h
    obtain ⟨u, hrun, rfl, rfl⟩ := run_eq_finish_of_course hb now hcourse hdone
    have hhistory : (u.finish u.now (.ok v)).history = u.history ++ [.closed] := history_cons rfl
    rw [hrun, hhistory, sent_append, received_append]
    exact ⟨rfl, List.append_nil _, List.append_nil _, fun _ ↦ rfl⟩

end Arrival

/-- The first bytes are the token just if the token goes before everything else. -/
theorem take_eq_token_iff (bytes : List UInt8) {token : List UInt8}
    (htoken : token.length = Settings.tokenLength) :
    bytes.take Settings.tokenLength = token ↔ token <+: bytes := by
  rw [List.prefix_iff_eq_take, htoken, eq_comm]

/-! ### The responder -/

namespace Responder

/-- What a responder comes to where `bytes` are delivered, and `reply` is what comes of the
reply. -/
def verdictFor (config : Config) (reply : Option (Except Failure Unit)) (bytes : List UInt8) :
    Option Verdict :=
  if bytes = [] then some (.abandoned config.attempts)
  else verdictOn reply (.ok (bytes.take Settings.tokenLength))

/-- Where the reply can be written, the bytes alone decide, in one of three ways. -/
theorem verdictFor_cases (config : Config) (bytes : List UInt8) :
    (bytes = [] ∧ verdictFor config (some (.ok ())) bytes = some (.abandoned config.attempts)) ∨
    (bytes ≠ [] ∧ Settings.handshakeRequest <+: bytes ∧
      verdictFor config (some (.ok ())) bytes = some .responded) ∨
    (bytes ≠ [] ∧ ¬ Settings.handshakeRequest <+: bytes ∧
      verdictFor config (some (.ok ())) bytes =
        some (.rejected (bytes.take Settings.tokenLength))) := by
  rw [verdictFor]
  by_cases hnil : bytes = []
  · exact .inl ⟨hnil, if_pos hnil⟩
  have htoken := take_eq_token_iff bytes Settings.length_handshakeRequest
  rw [if_neg hnil, verdictOn]
  by_cases hrequest : Settings.handshakeRequest <+: bytes
  · exact .inr (.inl ⟨hnil, hrequest, if_pos (htoken.2 hrequest)⟩)
  · exact .inr (.inr ⟨hnil, hrequest, if_neg fun h ↦ hrequest (htoken.1 h)⟩)

/-- Behind the token a responder only writes, if it does anything. -/
theorem sendCourse_judge (config : Config) (token : List UInt8) (wire : Wire) :
    (party config).SendCourse (judge token) wire.writes wire.flush
      ((verdictOn (wire.writeToken Settings.handshakeReply) (.ok token)).map .finished) := by
  rw [judge, verdictOn]
  split
  · next hrequest =>
    rw [Option.map_map]
    exact (sends config).course_writeToken Settings.handshakeReply wire
  · next hother => exact .refl _ _ _

/-- **A responder** comes to the same verdict, and writes the same, however the bytes are cut. -/
theorem exists_sent (config : Config) (bytes : List UInt8) (writes : List Writing)
    (flush : Delayed (Except Failure Unit)) :
    ∃ out, ∀ reads, Delivers reads bytes → ∃ events wire',
      (party config).Arrives (party config).start ⟨reads, writes, flush⟩ events wire'
        (verdictFor config ((⟨reads, writes, flush⟩ : Wire).writeToken Settings.handshakeReply)
          bytes) ∧
      sent events = out ∧ received events = bytes.take Settings.tokenLength := by
  by_cases hnil : bytes = []
  · subst hnil
    refine ⟨[], fun reads h ↦ ?_⟩
    obtain ⟨events, wire', -, -, hlisten, hcourse⟩ :=
      course_of_forall_empty config ⟨reads, writes, flush⟩ fun n _ ↦ h.tokenRead? n
    obtain ⟨rest, hrest, -⟩ := hcourse.delivers h
    refine ⟨events, wire', ?_, hlisten.sent_eq_nil, (List.append_eq_nil_iff.1 hrest.symm).1⟩
    rw [verdictFor, if_pos rfl]
    exact ⟨_, hcourse, rfl⟩
  · have htoken : bytes.take Settings.tokenLength ≠ [] := by
      simpa [Settings.tokenLength] using hnil
    obtain ⟨more, writes', hout, hmore⟩ := (sendCourse_judge config
      (bytes.take Settings.tokenLength) ⟨[], writes, flush⟩).arrives fun _ ↦ rfl
    refine ⟨sent more, fun reads h ↦ ?_⟩
    obtain ⟨delay, left, hread, -⟩ := h.readToken_nil
    have hcollect := (collects config 1).course_readToken (show [].length < _ by decide)
      ⟨reads, writes, flush⟩
    simp only [hread] at hcollect
    obtain ⟨events, hevents, hcourse⟩ := hcollect
    rw [afterToken_of_ne htoken] at hcourse
    refine ⟨events ++ more, ⟨left, writes', flush⟩, ?_, ?_, ?_⟩
    · rw [verdictFor, if_neg hnil]
      exact (hmore left).of_course hcourse
    · rw [sent_append, hevents.listening.sent_eq_nil, List.nil_append]
    · rw [received_append, hout.received_eq_nil, List.append_nil]
      exact hevents.received

end Responder

/-- An answer that is not cut off: its outcome, what it wrote, and what it read. -/
theorem respond_of_delivers (config : Config) (bytes : List UInt8) (writes : List Writing)
    (flush : Delayed (Except Failure Unit)) :
    ∃ out, ∀ reads, Delivers reads bytes → ∀ cancelAt start,
      let wire : Wire := ⟨reads, writes, flush⟩
      let verdict := Responder.verdictFor config (wire.writeToken Settings.handshakeReply) bytes
      let answer := respond config cancelAt start wire
      answer.Undisturbed →
        answer.outcome? = verdict.map .ok ∧ sent answer.history = out ∧
        received answer.history = bytes.take Settings.tokenLength ∧
        (verdict.isSome → Delivers answer.wire.reads (bytes.drop Settings.tokenLength)) := by
  obtain ⟨out, hout⟩ := Responder.exists_sent config bytes writes flush
  refine ⟨out, fun reads hreads cancelAt start ↦ ?_⟩
  intro wire verdict answer hgo
  obtain ⟨events, wire', harrives, hsent, hreceived⟩ := hout reads hreads
  obtain ⟨houtcome, hsent', hreceived', hwire⟩ :=
    Task.run_of_arrives (Responder.bounded config) hgo harrives
  refine ⟨houtcome, hsent'.trans hsent, hreceived'.trans hreceived, fun hsome ↦ ?_⟩
  have hleft : answer.wire = wire' := hwire hsome
  rw [hleft]
  exact harrives.delivers hreads hreceived

/-! ### The initiator -/

namespace Initiator

/-- The state after the request was written and sent off, or was not. -/
def afterRequest : Except Failure Unit → State
  | .ok () => .awaiting []
  | .error kind => fail kind

/-- The state after a token read. -/
def afterReply : Except Failure (List UInt8) → State
  | .ok received => judge received
  | .error kind => fail kind

/-- What an initiator comes to where `bytes` are delivered, and `asked` is what comes of the
request. -/
def verdictFor (bytes : List UInt8) : Except Failure Unit → Verdict
  | .error kind => .error (.io (.ofKind kind))
  | .ok () =>
    if bytes.take Settings.tokenLength = Settings.handshakeReply then .ok ()
    else .error (.unexpectedReply (bytes.take Settings.tokenLength))

/-- An initiator writes the request in the loop that both parties have. -/
theorem sends : party.Sends .requesting .flushing afterRequest where
  write := by
    intro left
    refine congrArg (Step.write left) (funext fun result ↦ ?_)
    cases result with
    | error kind => rfl
    | ok count => rfl
  flush := by
    refine congrArg Step.flush (funext fun result ↦ ?_)
    cases result with
    | error kind => rfl
    | ok _ => rfl

/-- An initiator reads a token in the loop that both parties have. -/
theorem collects : party.Collects .awaiting afterReply := by
  intro got
  refine congrArg (Step.read (room got)) (funext fun result ↦ ?_)
  rcases result with kind | bytes
  · rfl
  rw [Party.afterRead]
  rcases collect_cases got bytes with ⟨hc, hbytes, hshort⟩ | ⟨hc, -, hend⟩ | ⟨hc, rfl, rfl⟩
  · rw [if_pos ⟨hbytes, hshort⟩]
    simp only [hc]
  · rw [if_neg fun h ↦ hend.elim h.1 (Nat.not_le_of_lt h.2)]
    simp only [hc]
    rfl
  · rfl

/-- **An initiator** comes to the same verdict, and writes the same, however the bytes are cut. -/
theorem exists_sent (bytes : List UInt8) (writes : List Writing)
    (flush : Delayed (Except Failure Unit)) :
    ∃ out, ∀ reads, Delivers reads bytes → ∃ events wire',
      party.Arrives party.start ⟨reads, writes, flush⟩ events wire'
        (((⟨reads, writes, flush⟩ : Wire).writeToken Settings.handshakeRequest).map
          (verdictFor bytes)) ∧
      sent events = out ∧
      ((⟨reads, writes, flush⟩ : Wire).writeToken Settings.handshakeRequest = some (.ok ()) →
        out = Settings.handshakeRequest ∧ received events = bytes.take Settings.tokenLength) := by
  have hsend := sends.course_writeToken Settings.handshakeRequest ⟨[], writes, flush⟩
  have hsame : ∀ reads, (⟨reads, writes, flush⟩ : Wire).writeToken Settings.handshakeRequest =
      (⟨[], writes, flush⟩ : Wire).writeToken Settings.handshakeRequest := fun _ ↦ rfl
  simp only [hsame]
  rcases hasked : (⟨[], writes, flush⟩ : Wire).writeToken Settings.handshakeRequest with
    - | kind | ⟨⟩
  · rw [hasked] at hsend
    obtain ⟨events, q, writes', -, hcourse⟩ := hsend
    exact ⟨sent events, fun reads _ ↦ ⟨events, _, ⟨q, hcourse reads⟩, rfl, nofun⟩⟩
  · rw [hasked] at hsend
    obtain ⟨events, writes', -, hcourse⟩ := hsend
    exact ⟨sent events, fun reads _ ↦ ⟨events, _, ⟨_, hcourse reads, rfl⟩, rfl, nofun⟩⟩
  · rw [hasked] at hsend
    obtain ⟨events, writes', hout, hcourse⟩ := hsend
    have hsent : sent events = Settings.handshakeRequest :=
      (accords_of_trace ((hcourse []).trace .start)).1
    refine ⟨sent events, fun reads h ↦ ?_⟩
    obtain ⟨delay, left, hread, -⟩ := h.readToken_nil
    have hcollect := collects.course_readToken (show [].length < _ by decide)
      ⟨reads, writes', flush⟩
    simp only [hread] at hcollect
    obtain ⟨more, hevents, hmore⟩ := hcollect
    refine ⟨events ++ more, _, ⟨_, (hcourse reads).trans hmore, ?_⟩, ?_, fun _ ↦ ⟨hsent, ?_⟩⟩
    · rw [afterReply, judge, verdictFor]
      split <;> rfl
    · rw [sent_append, hevents.listening.sent_eq_nil, List.append_nil]
    · rw [received_append, hout.received_eq_nil, List.nil_append]
      exact hevents.received

/-- An initiator that is answered a read has written the request. -/
theorem sent_of_answered {before : List Event} {s q : State} {e : Event}
    (htrace : party.Trace before s) (h : Answered (step s) e q) (hread : e.room?.isSome) :
    sent before = Settings.handshakeRequest := by
  have haccords := accords_of_trace htrace
  have htransition : Transition s e q := transition_of_answered h
  cases htransition with
  | readFailed | more | accepted | rejected => exact haccords.1
  | wroteSome | wroteAll | stalled | writeFailed | flushed | flushFailed => cases hread

/-- **The request goes first**: no read comes back before all of it has been written. -/
theorem sent_of_read {t : Task State Verdict} (ht : t.Recorded party) {before after : List Event}
    {e : Event} (hhistory : t.history = before ++ e :: after) (hread : e.room?.isSome) :
    sent before = Settings.handshakeRequest := by
  obtain ⟨events, htrace, heq⟩ := ht.trace_history
  obtain ⟨after, hevents⟩ : ∃ after, events = before ++ e :: after := by
    rcases heq with heq | heq
    · exact ⟨after, heq.symm.trans hhistory⟩
    · -- the closing of the stream is no read, so it comes behind the event
      rw [heq] at hhistory
      rcases List.eq_nil_or_concat after with rfl | ⟨early, last, rfl⟩
      · cases (List.append_inj' hhistory rfl).2
        cases hread
      · rw [List.concat_eq_append, ← List.cons_append, ← List.append_assoc] at hhistory
        exact ⟨early, (List.append_inj' hhistory rfl).1⟩
  rw [hevents] at htrace
  obtain ⟨q, r, hbefore, hanswer⟩ := htrace.exists_answered
  exact sent_of_answered hbefore hanswer hread

end Initiator

/-- A request that is not cut off: its outcome, what it wrote, and what it read. -/
theorem request_of_delivers (bytes : List UInt8) (writes : List Writing)
    (flush : Delayed (Except Failure Unit)) :
    ∃ out, ∀ reads, Delivers reads bytes → ∀ cancelAt start,
      let wire : Wire := ⟨reads, writes, flush⟩
      let asking := wire.writeToken Settings.handshakeRequest
      let asked := request cancelAt start wire
      asked.Undisturbed →
        asked.outcome? = (asking.map (Initiator.verdictFor bytes)).map .ok ∧
        sent asked.history = out ∧
        (asking = some (.ok ()) → out = Settings.handshakeRequest ∧
          received asked.history = bytes.take Settings.tokenLength ∧
          Delivers asked.wire.reads (bytes.drop Settings.tokenLength)) := by
  obtain ⟨out, hout⟩ := Initiator.exists_sent bytes writes flush
  refine ⟨out, fun reads hreads cancelAt start ↦ ?_⟩
  intro wire asking asked hgo
  obtain ⟨events, wire', harrives, hsent, hasked⟩ := hout reads hreads
  obtain ⟨houtcome, hsent', hreceived', hwire⟩ :=
    Task.run_of_arrives Initiator.bounded hgo harrives
  refine ⟨houtcome, hsent'.trans hsent, fun hok ↦ ?_⟩
  obtain ⟨hrequest, hreceived⟩ := hasked hok
  have hsome : (asking.map (Initiator.verdictFor bytes)).isSome := by rw [hok]; rfl
  have hleft : asked.wire = wire' := hwire hsome
  refine ⟨hrequest, hreceived'.trans hreceived, ?_⟩
  rw [hleft]
  exact harrives.delivers hreads hreceived

/-! ### Both parties -/

/-- **The law of fragments.** Two scripts deliver the same bytes, cut in two ways, and the streams
do the same with what is written. No answer and no request below is cut off.

1. A responder comes to the same outcome on both, and writes the same.
2. So does an initiator.
3. If the reply can be written, a responder answers just if the bytes begin with the request, it
   abandons the stream just if there are none, and it rejects the first bytes else. It takes as
   many bytes as a token has, or all there are, and leaves the rest.
4. If the request can be written, an initiator is content just if the bytes begin with the reply,
   and else finds the first bytes unexpected. It takes and leaves the same bytes, and writes
   just the request.
5. Whatever the stream does, an initiator has written all of the request before it reads. -/
theorem fragmentation_independence {bytes : List UInt8} {reads reads' : List Reading}
    (hreads : Delivers reads bytes) (hreads' : Delivers reads' bytes) (config : Config)
    (cancelAt : Option Nat) (start : Nat) (writes : List Writing)
    (flush : Delayed (Except Failure Unit)) :
    let wire : Wire := ⟨reads, writes, flush⟩
    let wire' : Wire := ⟨reads', writes, flush⟩
    let answer := respond config cancelAt start wire
    let answer' := respond config cancelAt start wire'
    let asked := request cancelAt start wire
    let asked' := request cancelAt start wire'
    (answer.Undisturbed → answer'.Undisturbed →
      answer.outcome? = answer'.outcome? ∧ sent answer.history = sent answer'.history) ∧
    (asked.Undisturbed → asked'.Undisturbed →
      asked.outcome? = asked'.outcome? ∧ sent asked.history = sent asked'.history) ∧
    (answer.Undisturbed → wire.writeToken Settings.handshakeReply = some (.ok ()) →
      (answer.outcome? = some (.ok .responded) ↔ Settings.handshakeRequest <+: bytes) ∧
      ((∃ n, answer.outcome? = some (.ok (.abandoned n))) ↔ bytes = []) ∧
      (bytes = [] → answer.outcome? = some (.ok (.abandoned config.attempts))) ∧
      (bytes ≠ [] → ¬ Settings.handshakeRequest <+: bytes →
        answer.outcome? = some (.ok (.rejected (bytes.take Settings.tokenLength)))) ∧
      received answer.history = bytes.take Settings.tokenLength ∧
      Delivers answer.wire.reads (bytes.drop Settings.tokenLength)) ∧
    (asked.Undisturbed → wire.writeToken Settings.handshakeRequest = some (.ok ()) →
      (asked.outcome? = some (.ok (.ok ())) ↔ Settings.handshakeReply <+: bytes) ∧
      (¬ Settings.handshakeReply <+: bytes → asked.outcome? =
        some (.ok (.error (.unexpectedReply (bytes.take Settings.tokenLength))))) ∧
      received asked.history = bytes.take Settings.tokenLength ∧
      Delivers asked.wire.reads (bytes.drop Settings.tokenLength) ∧
      sent asked.history = Settings.handshakeRequest) ∧
    ∀ before e after, asked.history = before ++ e :: after → e.room?.isSome →
      sent before = Settings.handshakeRequest := by
  intro wire wire' answer answer' asked asked'
  obtain ⟨out, hanswer⟩ := respond_of_delivers config bytes writes flush
  obtain ⟨out', hasked⟩ := request_of_delivers bytes writes flush
  refine ⟨fun hgo hgo' ↦ ?_, fun hgo hgo' ↦ ?_, fun hgo hok ↦ ?_, fun hgo hok ↦ ?_, ?_⟩
  · obtain ⟨houtcome, hsent, -⟩ := hanswer reads hreads cancelAt start hgo
    obtain ⟨houtcome', hsent', -⟩ := hanswer reads' hreads' cancelAt start hgo'
    exact ⟨houtcome.trans houtcome'.symm, hsent.trans hsent'.symm⟩
  · obtain ⟨houtcome, hsent, -⟩ := hasked reads hreads cancelAt start hgo
    obtain ⟨houtcome', hsent', -⟩ := hasked reads' hreads' cancelAt start hgo'
    exact ⟨houtcome.trans houtcome'.symm, hsent.trans hsent'.symm⟩
  · obtain ⟨houtcome, -, hreceived, hleft⟩ := hanswer reads hreads cancelAt start hgo
    rw [hok] at houtcome hleft
    rw [houtcome]
    rcases Responder.verdictFor_cases config bytes with
      ⟨rfl, hverdict⟩ | ⟨hne, hrequest, hverdict⟩ | ⟨hne, hrequest, hverdict⟩
    · rw [hverdict] at hleft ⊢
      exact ⟨by simp [Settings.handshakeRequest], by simp, fun _ ↦ rfl, fun h ↦ absurd rfl h,
        hreceived, hleft rfl⟩
    · rw [hverdict] at hleft ⊢
      exact ⟨by simp [hrequest], by simp [hne], fun h ↦ absurd h hne,
        fun _ h ↦ absurd hrequest h, hreceived, hleft rfl⟩
    · rw [hverdict] at hleft ⊢
      exact ⟨by simp [hrequest], by simp [hne], fun h ↦ absurd h hne, fun _ _ ↦ rfl,
        hreceived, hleft rfl⟩
  · obtain ⟨houtcome, hsent, hrest⟩ := hasked reads hreads cancelAt start hgo
    obtain ⟨hrequest, hreceived, hleft⟩ := hrest hok
    have htoken := take_eq_token_iff bytes Settings.length_handshakeReply
    rw [hok] at houtcome
    rw [houtcome, Option.map_some, Option.map_some, Initiator.verdictFor, ← htoken]
    refine ⟨?_, fun hother ↦ by rw [if_neg hother], hreceived, hleft, hsent.trans hrequest⟩
    by_cases hreply : bytes.take Settings.tokenLength = Settings.handshakeReply
    · simp [hreply]
    · simp [hreply]
  · intro before e after hhistory hread
    have hrecorded : asked.Recorded Initiator.party := Task.recorded_runFor _ _ wire start _
    exact Initiator.sent_of_read hrecorded hhistory hread

/-- A request with a byte behind it, once in two parts with a delay between them and once in one.
The replies are written in two parts. -/
theorem fragmentation_independence_of_request :
    let bytes : List UInt8 := Settings.handshakeRequest ++ [0x58]
    let parts : List Reading := [.data [0x50, 0x49], .wait 3, .data [0x4E, 0x47, 0x0A, 0x58]]
    let whole : List Reading := [.data bytes]
    let wire (reads : List Reading) : Wire := ⟨reads, [.accept 2], .after 0 (.ok ())⟩
    let answer := respond ⟨3, 10, 100⟩ none 0 (wire parts)
    let answer' := respond ⟨3, 10, 100⟩ none 0 (wire whole)
    let asked := request none 0 (wire parts)
    let asked' := request none 0 (wire whole)
    Delivers parts bytes ∧ Delivers whole bytes ∧
      answer.Undisturbed ∧ answer'.Undisturbed ∧ asked.Undisturbed ∧ asked'.Undisturbed ∧
      (wire parts).writeToken Settings.handshakeReply = some (.ok ()) ∧
      (wire parts).writeToken Settings.handshakeRequest = some (.ok ()) ∧
      answer.outcome? = some (.ok .responded) ∧ answer.outcome? = answer'.outcome? ∧
      Delivers answer.wire.reads [0x58] ∧
      asked.outcome? =
        some (.ok (.error (.unexpectedReply Settings.handshakeRequest))) ∧
      asked.outcome? = asked'.outcome? ∧ sent asked.history = Settings.handshakeRequest := by
  intro bytes parts whole wire answer answer' asked asked'
  have hlast : Delivers [.data [0x4E, 0x47, 0x0A, 0x58]] ([0x4E, 0x47, 0x0A, 0x58] ++ []) :=
    .chunk (by decide) .nil
  have hparts : Delivers parts bytes := .chunk (by decide) (.wait hlast)
  have hcut : Delivers ([bytes].map .data) [bytes].flatten := delivers_map_data (by decide)
  have hwhole : Delivers whole bytes := hcut
  have hanswer : answer.ending = some (3, .ok .responded) := by decide
  have hanswer' : answer'.ending = some (0, .ok .responded) := by decide
  have hasked : asked.ending =
      some (3, .ok (.error (.unexpectedReply Settings.handshakeRequest))) := by decide
  have hasked' : asked'.ending =
      some (0, .ok (.error (.unexpectedReply Settings.handshakeRequest))) := by decide
  have hreply : (wire parts).writeToken Settings.handshakeReply = some (.ok ()) := by decide
  have hrequest : (wire parts).writeToken Settings.handshakeRequest = some (.ok ()) := by decide
  have hgo : ∀ {σ ω : Type} {t : Task σ ω} {time : Nat} {v : ω},
      t.ending = some (time, .ok v) → t.Undisturbed := by
    intro σ ω t time v h time' why h'
    rw [h] at h'
    cases h'
  obtain ⟨hsame, hsame', hresponds, hasks, -⟩ :=
    fragmentation_independence hparts hwhole ⟨3, 10, 100⟩ none 0 [.accept 2] (.after 0 (.ok ()))
  obtain ⟨hresponded, -, -, -, -, hleft⟩ := hresponds (hgo hanswer) hreply
  obtain ⟨-, hunexpected, -, -, hsent⟩ := hasks (hgo hasked) hrequest
  exact ⟨hparts, hwhole, hgo hanswer, hgo hanswer', hgo hasked, hgo hasked', hreply, hrequest,
    hresponded.2 ⟨[0x58], rfl⟩, (hsame (hgo hanswer) (hgo hanswer')).1, hleft,
    hunexpected (by decide), (hsame' (hgo hasked) (hgo hasked')).1, hsent⟩

end Overlay.Handshake
