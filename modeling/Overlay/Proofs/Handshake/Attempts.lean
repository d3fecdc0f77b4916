import Overlay.Proofs.Handshake.Transfers

/-!
# The attempts of a responder

The courses of a responder on a wire, told from the script: over one token read, over the reply,
and over any number of empty streams.

* `tokenCourse_readToken` and `leads_writeToken`: one token, and the reply. A responder has the
  loops of `Overlay.Proofs.Handshake.Transfers` (`collects` and `sends`).
* `course_attempts`: empty streams, by induction on their number.

Every course says how many token reads it began and how many pauses it made. What they come to
for a whole run is in `Overlay.Proofs.Handshake.Outcome`.
-/

namespace Overlay.Handshake

/-- How many token reads were begun: those with room for a whole token. -/
def tokenReads (events : List Event) : Nat :=
  events.countP fun e ↦ e.room? == some Settings.tokenLength

/-- How many pauses were made. -/
def pauses (events : List Event) : Nat := events.countP (· == .rested)

@[simp] theorem tokenReads_append (xs ys : List Event) :
    tokenReads (xs ++ ys) = tokenReads xs + tokenReads ys :=
  List.countP_append

@[simp] theorem pauses_append (xs ys : List Event) :
    pauses (xs ++ ys) = pauses xs + pauses ys :=
  List.countP_append

theorem tokenReads_cons (e : Event) (events : List Event) :
    tokenReads (e :: events) =
      tokenReads events + if e.room? = some Settings.tokenLength then 1 else 0 := by
  simp [tokenReads, List.countP_cons]

theorem pauses_cons (e : Event) (events : List Event) :
    pauses (e :: events) = pauses events + if e = .rested then 1 else 0 := by
  simp [pauses, List.countP_cons]

namespace Responder

variable {config : Config}

/-- The state after a token read. -/
def afterToken (config : Config) (attempt : Nat) : Except Failure (List UInt8) → State
  | .error kind => .finished (.failed kind)
  | .ok [] => retry config attempt
  | .ok (b :: bytes) => judge (b :: bytes)

theorem afterToken_of_ne {attempt : Nat} {received : List UInt8} (h : received ≠ []) :
    afterToken config attempt (.ok received) = judge received := by
  cases received with
  | nil => exact absurd rfl h
  | cons b bytes => rfl

/-- The events of a token read of which `got` was there before: reads only, and the first of
them has room for a whole token just if nothing was there. -/
structure ReadsToken (got : List UInt8) (events : List Event) : Prop where
  tokenReads : tokenReads events = if got = [] then 1 else 0
  pauses : pauses events = 0
  listening : Listening events

theorem ReadsToken.single (got : List UInt8) (result : Except Failure (List UInt8)) :
    ReadsToken got [.read (room got) result] where
  tokenReads := by
    rw [tokenReads_cons]
    by_cases hgot : got = []
    · rw [hgot]; rfl
    · have hpos := List.length_pos_iff.2 hgot
      have hroom : room got ≠ Settings.tokenLength := by
        rw [room, Settings.tokenLength]
        omega
      simp [Event.room?, hroom, hgot, Handshake.tokenReads]
  pauses := rfl
  listening := by simp [Listening, Event.isWrite]

theorem ReadsToken.cons {got bytes : List UInt8} {events : List Event} (hbytes : bytes ≠ [])
    (h : ReadsToken (got ++ bytes) events) :
    ReadsToken got (.read (room got) (.ok bytes) :: events) := by
  have hfirst := ReadsToken.single got (.ok bytes)
  have hne : got ++ bytes ≠ [] := by simp [hbytes]
  have htokens := h.tokenReads
  rw [if_neg hne] at htokens
  refine ⟨?_, ?_, ?_⟩
  · rw [← List.singleton_append, tokenReads_append, hfirst.tokenReads, htokens, Nat.add_zero]
  · rw [← List.singleton_append, pauses_append, hfirst.pauses, h.pauses]
  · intro e he
    rcases List.mem_cons.1 he with rfl | he
    · rfl
    · exact h.listening e he

/-- The course of a responder over a token read that comes to `read`. -/
def TokenCourse (config : Config) (attempt : Nat) (got : List UInt8) (wire : Wire) :
    Delayed (Except Failure (List UInt8) × List Reading) → Prop
  | .never => ∃ events q wire', (party config).Course (.awaiting attempt got) wire events q wire' ∧
      (party config).Blocked q wire'
  | .after _ (result, left) => ∃ events, ReadsToken got events ∧
      (party config).Course (.awaiting attempt got) wire events (afterToken config attempt result)
        { wire with reads := left }

theorem ReadsToken.of_collecting {got : List UInt8} {events : List Event}
    {result : Except Failure (List UInt8)} (h : Collecting got events result) :
    ReadsToken got events := by
  induction h with
  | failed | ended => exact .single _ _
  | more hbytes _ ih => exact ih.cons hbytes

/-- A responder reads a token in the loop that both parties have. -/
theorem collects (config : Config) (attempt : Nat) :
    (party config).Collects (.awaiting attempt) (afterToken config attempt) := by
  intro got
  refine congrArg (Step.read (room got)) (funext fun result ↦ ?_)
  rcases result with kind | bytes
  · rfl
  rw [Party.afterRead]
  rcases collect_cases got bytes with ⟨hc, hbytes, hshort⟩ | ⟨hc, hne, hend⟩ | ⟨hc, rfl, rfl⟩
  · rw [if_pos ⟨hbytes, hshort⟩]
    simp only [hc]
  · rw [if_neg fun h ↦ hend.elim h.1 (Nat.not_le_of_lt h.2), afterToken_of_ne hne]
    simp only [hc]
  · rfl

/-- **The course over a token**, as the script says. -/
theorem tokenCourse_readToken (config : Config) (attempt : Nat) {got : List UInt8}
    (hgot : got.length < Settings.tokenLength) (wire : Wire) :
    TokenCourse config attempt got wire (Wire.readToken got wire.reads) := by
  have hcourse := (collects config attempt).course_readToken hgot wire
  rcases hread : Wire.readToken got wire.reads with - | ⟨delay, result, left⟩
  · rw [hread] at hcourse
    exact hcourse
  · rw [hread] at hcourse
    obtain ⟨events, hevents, hcourse⟩ := hcourse
    exact ⟨events, .of_collecting hevents, hcourse⟩

/-! ### The reply -/

/-- A responder gets to the given state, after so many token reads and pauses, or is blocked on
the way. -/
def Leads (config : Config) (s : State) (wire : Wire) (reads rests : Nat) : Option State → Prop
  | none => ∃ events q wire', (party config).Course s wire events q wire' ∧
      (party config).Blocked q wire'
  | some q => ∃ events wire', tokenReads events = reads ∧ pauses events = rests ∧
      wire'.flush = wire.flush ∧ (party config).Course s wire events q wire'

theorem Leads.of_course {s q : State} {wire wire' : Wire} {events : List Event}
    {reads rests reads' rests' : Nat} {r : Option State}
    (hcourse : (party config).Course s wire events q wire') (hreads : tokenReads events = reads)
    (hrests : pauses events = rests) (hflush : wire'.flush = wire.flush)
    (h : Leads config q wire' reads' rests' r) :
    Leads config s wire (reads + reads') (rests + rests') r := by
  cases r with
  | none =>
    obtain ⟨more, r, wire'', hmore, hblocked⟩ := h
    exact ⟨events ++ more, r, wire'', hcourse.trans hmore, hblocked⟩
  | some r =>
    obtain ⟨more, wire'', hreads', hrests', hflush', hmore⟩ := h
    refine ⟨events ++ more, wire'', ?_, ?_, hflush'.trans hflush, hcourse.trans hmore⟩
    · rw [tokenReads_append, hreads, hreads']
    · rw [pauses_append, hrests, hrests']

/-- What a responder comes to after the reply was written and sent off, or was not. -/
def replied : Except Failure Unit → Verdict
  | .ok () => .responded
  | .error kind => .failed kind

/-- A responder writes the reply in the loop that both parties have. -/
theorem sends (config : Config) :
    (party config).Sends .replying .flushing (.finished ∘ replied) where
  write := by
    intro left
    refine congrArg (Step.write left) (funext fun result ↦ ?_)
    cases result with
    | error kind => rfl
    | ok count => rfl
  flush := by
    refine congrArg Step.flush (funext fun result ↦ ?_)
    cases result with
    | error kind => rfl
    | ok _ => rfl

theorem tokenReads_of_outgoing {events : List Event} (h : Outgoing events) :
    tokenReads events = 0 := by
  refine List.countP_eq_zero.2 fun e he ↦ ?_
  rw [h.room?_eq_none e he]
  decide

theorem pauses_of_outgoing {events : List Event} (h : Outgoing events) : pauses events = 0 := by
  refine List.countP_eq_zero.2 fun e he hrested ↦ ?_
  have hout := h e he
  rw [eq_of_beq hrested] at hout
  simp [Event.isWrite, Event.isFlush] at hout

/-- **The reply**, written and sent off. -/
theorem leads_writeToken (config : Config) (wire : Wire) :
    Leads config (.replying Settings.handshakeReply) wire 0 0
      ((wire.writeToken Settings.handshakeReply).map (.finished ∘ replied)) := by
  have hsent := (sends config).course_writeToken Settings.handshakeReply wire
  rcases hresult : wire.writeToken Settings.handshakeReply with - | result
  · rw [hresult] at hsent
    obtain ⟨events, q, writes', -, hcourse⟩ := hsent
    obtain ⟨hcourse, hblocked⟩ := hcourse wire.reads
    exact ⟨events, q, _, hcourse, hblocked⟩
  · rw [hresult] at hsent
    obtain ⟨events, writes', hout, hcourse⟩ := hsent
    exact ⟨events, { wire with writes := writes' }, tokenReads_of_outgoing hout,
      pauses_of_outgoing hout, rfl, hcourse wire.reads⟩

/-! ### Empty streams -/

/-- The course over a whole token read. -/
theorem tokenCourse_readToken_nil (config : Config) (attempt : Nat) (wire : Wire) :
    TokenCourse config attempt [] wire (Wire.readToken [] wire.reads) := by
  have hshort : ([] : List UInt8).length < Settings.tokenLength := by decide
  exact tokenCourse_readToken config attempt hshort wire

/-- **The course over empty streams**: a token read and a pause for each of them. -/
theorem course_attempts (config : Config) (k attempt : Nat) (wire : Wire)
    (hle : attempt + k ≤ config.attempts) (hempty : ∀ n < k, wire.tokenRead? n = some (.ok [])) :
    ∃ events, tokenReads events = k ∧ pauses events = k ∧ Listening events ∧
      (party config).Course (.awaiting attempt []) wire events (.awaiting (attempt + k) [])
        { wire with reads := Wire.afterTokens k wire.reads } := by
  induction k generalizing attempt wire with
  | zero => exact ⟨[], rfl, rfl, nofun, .refl _ _⟩
  | succ k ih =>
    obtain ⟨delay, left, hread⟩ : ∃ delay left,
        Wire.readToken [] wire.reads = .after delay (.ok [], left) :=
      Wire.readToken_of_tokenRead? (hempty 0 (Nat.succ_pos k))
    have htoken := tokenCourse_readToken_nil config attempt wire
    rw [hread] at htoken
    obtain ⟨events, hevents, hcourse⟩ := htoken
    have hretry : afterToken config attempt (.ok []) = .backingOff attempt := by
      rw [afterToken, retry, if_neg (by omega)]
    rw [hretry] at hcourse
    -- behind the first empty stream the token reads of the script are one fewer
    have hrest : ∀ n < k, Wire.tokenRead? { wire with reads := left } n = some (.ok []) := by
      intro n hn
      rw [← Wire.tokenRead?_succ hread]
      exact hempty (n + 1) (Nat.succ_lt_succ hn)
    obtain ⟨more, htokens, hpauses, hlisten, hmore⟩ :=
      ih (attempt + 1) { wire with reads := left } (by omega) hrest
    have hrested : Event.rested.room? ≠ some Settings.tokenLength := by decide
    refine ⟨events ++ .rested :: more, ?_, ?_, ?_, ?_⟩
    · rw [tokenReads_append, hevents.tokenReads, if_pos rfl, tokenReads_cons, htokens,
        if_neg hrested, Nat.add_zero, Nat.add_comm]
    · rw [pauses_append, hevents.pauses, pauses_cons, hpauses, if_pos rfl, Nat.zero_add]
    · rw [← List.singleton_append, ← List.append_assoc]
      exact (hevents.listening.snoc rfl).append hlisten
    · rw [Wire.afterTokens_succ hread, ← Nat.succ_add_eq_add_succ]
      exact hcourse.trans (.pause rfl hmore)

/-- **The course over a token** behind `k` empty streams. -/
theorem course_token (config : Config) (wire : Wire) {k : Nat} (hk : k < config.attempts)
    (hempty : ∀ n < k, wire.tokenRead? n = some (.ok [])) :
    (wire.tokenRead? k = none → ∃ events q wire',
      (party config).Course (.awaiting 1 []) wire events q wire' ∧
        (party config).Blocked q wire') ∧
    ∀ result, wire.tokenRead? k = some result → ∃ events left,
      tokenReads events = k + 1 ∧ pauses events = k ∧ Listening events ∧
        (party config).Course (.awaiting 1 []) wire events (afterToken config (1 + k) result)
          { wire with reads := left } := by
  obtain ⟨events, htokens, hpauses, hlisten, hcourse⟩ :=
    course_attempts config k 1 wire (by omega) hempty
  have htoken := tokenCourse_readToken_nil config (1 + k)
    { wire with reads := Wire.afterTokens k wire.reads }
  rw [Wire.tokenRead?]
  rcases hread : Wire.readToken [] (Wire.afterTokens k wire.reads) with - | ⟨delay, result, left⟩
  · simp only [hread] at htoken
    obtain ⟨more, q, wire', hmore, hblocked⟩ := htoken
    exact ⟨fun _ ↦ ⟨events ++ more, q, wire', hcourse.trans hmore, hblocked⟩,
      fun result h ↦ by cases h⟩
  · simp only [hread] at htoken
    obtain ⟨more, hevents, hmore⟩ := htoken
    refine ⟨fun h ↦ (by cases h), fun _ heq ↦ ?_⟩
    cases heq
    refine ⟨events ++ more, left, ?_, ?_, hlisten.append hevents.listening, hcourse.trans hmore⟩
    · rw [tokenReads_append, htokens, hevents.tokenReads, if_pos rfl]
    · rw [pauses_append, hpauses, hevents.pauses, Nat.add_zero]

end Responder

end Overlay.Handshake
