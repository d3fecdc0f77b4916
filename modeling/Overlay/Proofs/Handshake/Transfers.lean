import Overlay.Proofs.Handshake.Account
import Overlay.Proofs.Handshake.Course
import Overlay.Proofs.Handshake.Tokens

/-!
# Tokens in and out

Both parties read a token in one loop, and write one in another. The loops are the same for
both, so they are told once, for any party whose steps have their shape.

* `Party.Collects` is the shape of reading: while the token is short the party asks for the rest of
  it. `Collects.course_readToken` says that the party gets through it as the script of the wire
  says, by induction on the room that is left.
* `Party.Sends` is the shape of writing: a write for what is left, and a flush behind it.
  `Sends.course_writeToken` is its course, by induction on what is left. It holds whatever
  the wire has to read, since none of its events is a read.
-/

namespace Overlay.Handshake

variable {σ ω : Type} {party : Party σ ω}

/-! ### Reading -/

/-- `Collecting got events result`: the events of a token read of which `got` was there before, and
what it comes to. -/
inductive Collecting : List UInt8 → List Event → Except Failure (List UInt8) → Prop where
  | failed {got : List UInt8} {kind : Failure} :
      Collecting got [.read (room got) (.error kind)] (.error kind)
  | ended {got bytes : List UInt8} :
      Collecting got [.read (room got) (.ok bytes)] (.ok (got ++ bytes))
  | more {got bytes : List UInt8} {events : List Event} {result : Except Failure (List UInt8)}
      (hbytes : bytes ≠ []) (h : Collecting (got ++ bytes) events result) :
      Collecting got (.read (room got) (.ok bytes) :: events) result

theorem Collecting.listening {got : List UInt8} {events : List Event}
    {result : Except Failure (List UInt8)} (h : Collecting got events result) :
    Listening events := by
  induction h with
  | failed | ended => simp [Listening, Event.isWrite]
  | more _ _ ih =>
    intro e he
    rcases List.mem_cons.1 he with rfl | he
    · rfl
    · exact ih e he

/-- What was there before and what was received are the token. -/
theorem Collecting.received {got token : List UInt8} {events : List Event}
    (h : Collecting got events (.ok token)) : got ++ Handshake.received events = token := by
  generalize hresult : (Except.ok token : Except Failure (List UInt8)) = result at h
  induction h with
  | failed => cases hresult
  | ended =>
    cases hresult
    rw [received_singleton]
    rfl
  | more _ _ ih =>
    rw [← List.singleton_append, received_append, received_singleton, ← List.append_assoc]
    exact ih hresult

namespace Party

/-- The state after a read, where `awaiting got` is the state while the token is short and `after`
tells the state behind it. -/
def afterRead (awaiting : List UInt8 → σ) (after : Except Failure (List UInt8) → σ)
    (got : List UInt8) : Except Failure (List UInt8) → σ
  | .error kind => after (.error kind)
  | .ok bytes =>
    if bytes ≠ [] ∧ (got ++ bytes).length < Settings.tokenLength then awaiting (got ++ bytes)
    else after (.ok (got ++ bytes))

/-- The party reads a token in the states `awaiting got`, and goes on to `after result`. -/
def Collects (party : Party σ ω) (awaiting : List UInt8 → σ)
    (after : Except Failure (List UInt8) → σ) : Prop :=
  ∀ got, party.step (awaiting got) = .read (room got) (afterRead awaiting after got)

/-- The course of a party from the state `s` over the rest of a token that comes to `read`. -/
def CollectCourse (party : Party σ ω) (after : Except Failure (List UInt8) → σ) (s : σ)
    (got : List UInt8) (wire : Wire) :
    Delayed (Except Failure (List UInt8) × List Reading) → Prop
  | .never => ∃ events q wire', party.Course s wire events q wire' ∧ party.Blocked q wire'
  | .after _ (result, left) => ∃ events, Collecting got events result ∧
      party.Course s wire events (after result) { wire with reads := left }

variable {awaiting : List UInt8 → σ} {after : Except Failure (List UInt8) → σ}

theorem CollectCourse.later {s : σ} {got : List UInt8} {wire : Wire} {delay : Nat}
    {read : Delayed (Except Failure (List UInt8) × List Reading)}
    (h : party.CollectCourse after s got wire read) :
    party.CollectCourse after s got wire (read.later delay) := by
  cases read with
  | never => exact h
  | after _ _ => exact h

/-- What a read that leaves the token short comes to is what the rest of it comes to. -/
theorem CollectCourse.more {s q : σ} {got bytes : List UInt8} {wire : Wire}
    {left : List Reading} {read : Delayed (Except Failure (List UInt8) × List Reading)}
    (hbytes : bytes ≠ [])
    (hfirst : party.Course s wire [.read (room got) (.ok bytes)] q { wire with reads := left })
    (h : party.CollectCourse after q (got ++ bytes) { wire with reads := left } read) :
    party.CollectCourse after s got wire read := by
  cases read with
  | never =>
    obtain ⟨events, r, wire', hcourse, hblocked⟩ := h
    exact ⟨_, r, wire', hfirst.trans hcourse, hblocked⟩
  | after _ _ =>
    obtain ⟨events, hevents, hcourse⟩ := h
    exact ⟨_, hevents.more hbytes, hfirst.trans hcourse⟩

/-- **The course over a token**, as the script says. -/
theorem Collects.course_readToken (hc : party.Collects awaiting after) {got : List UInt8}
    (hgot : got.length < Settings.tokenLength) (wire : Wire) :
    party.CollectCourse after (awaiting got) got wire (Wire.readToken got wire.reads) := by
  have hstep := hc got
  have hread : ∀ {delay : Nat} {result : Except Failure (List UInt8)} {left : List Reading},
      Wire.readFrom (room got) wire.reads = .after delay (result, left) →
      party.Course (awaiting got) wire [.read (room got) result]
        (afterRead awaiting after got result) { wire with reads := left } :=
    fun hfrom ↦ .read hstep hfrom (.refl _ _)
  rw [Wire.readToken_eq hgot]
  rcases hfrom : Wire.readFrom (Settings.tokenLength - got.length) wire.reads with
    - | ⟨delay, kind | bytes, left⟩
  · refine ⟨[], _, _, .refl _ _, ?_⟩
    rw [Blocked, hstep]
    exact hfrom
  · exact ⟨_, .failed, hread hfrom⟩
  · have hfirst := hread hfrom
    rw [Wire.tokenStep]
    rw [afterRead] at hfirst
    split at hfirst
    · next hmore =>
      -- the token is still short, so there is less room for the rest of it
      rw [if_pos hmore]
      have hpos := List.length_pos_iff.2 hmore.1
      have ih := hc.course_readToken hmore.2 { wire with reads := left }
      exact .later (.more hmore.1 hfirst ih)
    · next hlast =>
      rw [if_neg hlast]
      exact ⟨_, .ended, hfirst⟩
termination_by Settings.tokenLength - got.length
decreasing_by
  rw [List.length_append]
  omega

end Party

/-! ### Writing -/

/-- Nothing but writes and flushes. -/
def Outgoing (events : List Event) : Prop := ∀ e ∈ events, e.isWrite = true ∨ e.isFlush = true

theorem Outgoing.append {xs ys : List Event} (hx : Outgoing xs) (hy : Outgoing ys) :
    Outgoing (xs ++ ys) := by
  intro e he
  rcases List.mem_append.1 he with he | he
  · exact hx e he
  · exact hy e he

theorem Outgoing.room?_eq_none {events : List Event} (h : Outgoing events) :
    ∀ e ∈ events, e.room? = none := by
  intro e he
  have hout := h e he
  cases e with
  | read => simp [Event.isWrite, Event.isFlush] at hout
  | rested | wrote | flushed | closed => rfl

theorem Outgoing.received_eq_nil {events : List Event} (h : Outgoing events) :
    received events = [] := by
  refine List.flatMap_eq_nil_iff.2 fun e he ↦ ?_
  have hread := h.room?_eq_none e he
  cases e with
  | read => cases hread
  | rested | wrote | flushed | closed => rfl

namespace Party

/-- The state after a write, where `sending left` is the state while something is left, `flushing`
the state behind it, and `after` tells the state behind the flush. -/
def afterWrite (sending : List UInt8 → σ) (flushing : σ) (after : Except Failure Unit → σ)
    (left : List UInt8) : Except Failure Nat → σ
  | .error kind => after (.error kind)
  | .ok count =>
    match send left count with
    | .incomplete left => sending left
    | .complete => flushing
    | .stalled => after (.error .writeZero)

/-- The party writes a token in the states `sending left`, flushes it and goes on to `after
result`. -/
structure Sends (party : Party σ ω) (sending : List UInt8 → σ) (flushing : σ)
    (after : Except Failure Unit → σ) : Prop where
  write : ∀ left, party.step (sending left) = .write left (afterWrite sending flushing after left)
  flush : party.step flushing = .flush after

/-- Whatever there is to read, the party gets from `s` to the given state by writing alone, or is
blocked on the way. -/
def SendCourse (party : Party σ ω) (s : σ) (writes : List Writing)
    (flush : Delayed (Except Failure Unit)) : Option σ → Prop
  | none => ∃ events q writes', Outgoing events ∧ ∀ reads,
      party.Course s ⟨reads, writes, flush⟩ events q ⟨reads, writes', flush⟩ ∧
        party.Blocked q ⟨reads, writes', flush⟩
  | some q => ∃ events writes', Outgoing events ∧ ∀ reads,
      party.Course s ⟨reads, writes, flush⟩ events q ⟨reads, writes', flush⟩

variable {sending : List UInt8 → σ} {flushing : σ} {after : Except Failure Unit → σ}

theorem SendCourse.refl (s : σ) (writes : List Writing) (flush : Delayed (Except Failure Unit)) :
    party.SendCourse s writes flush (some s) :=
  ⟨[], writes, nofun, fun _ ↦ .refl _ _⟩

theorem SendCourse.trans {s q : σ} {writes writes' : List Writing} {events : List Event}
    {flush : Delayed (Except Failure Unit)} {r : Option σ} (hout : Outgoing events)
    (hcourse : ∀ reads, party.Course s ⟨reads, writes, flush⟩ events q ⟨reads, writes', flush⟩)
    (h : party.SendCourse q writes' flush r) : party.SendCourse s writes flush r := by
  cases r with
  | none =>
    obtain ⟨more, r, writes'', hmore, hrest⟩ := h
    exact ⟨events ++ more, r, writes'', hout.append hmore, fun reads ↦
      ⟨(hcourse reads).trans (hrest reads).1, (hrest reads).2⟩⟩
  | some r =>
    obtain ⟨more, writes'', hmore, hrest⟩ := h
    exact ⟨events ++ more, writes'', hout.append hmore, fun reads ↦
      (hcourse reads).trans (hrest reads)⟩

/-- The state after all writes. -/
def afterWrites (flushing : σ) (after : Except Failure Unit → σ) : Except Failure Unit → σ
  | .ok () => flushing
  | .error kind => after (.error kind)

/-- **The course over the writes**, as the script says. -/
theorem Sends.course_writeAll (hs : party.Sends sending flushing after) (left : List UInt8)
    (writes : List Writing) (flush : Delayed (Except Failure Unit)) :
    party.SendCourse (sending left) writes flush
      ((Wire.writeAll left writes).map (afterWrites flushing after)) := by
  have hstep := hs.write left
  have hout : ∀ result, Outgoing [.wrote (Task.taken left result)] := by
    intro result e he
    rw [List.mem_singleton.1 he]
    exact .inl rfl
  rw [Wire.writeAll_eq]
  rcases hwrite : Wire.writeTo left.length writes with - | ⟨delay, kind | count, writes'⟩
  · refine ⟨[], sending left, writes, nofun, fun reads ↦ ⟨.refl _ _, ?_⟩⟩
    rw [Blocked, hstep]
    exact hwrite
  · exact ⟨_, writes', hout _, fun reads ↦ .write hstep hwrite (.refl _ _)⟩
  · refine .trans (hout (.ok count)) (fun reads ↦ .write hstep hwrite (.refl _ _)) ?_
    rw [Wire.writeStep]
    by_cases hall : left.length ≤ count
    · rw [afterWrite, send, if_pos hall, if_pos hall]
      exact .refl _ _ _
    by_cases hzero : count = 0
    · rw [afterWrite, send, if_neg hall, if_pos hzero, if_neg hall, if_pos hzero]
      exact .refl _ _ _
    · -- what is left is shorter, because something was taken
      rw [afterWrite, send, if_neg hall, if_neg hzero, if_neg hall, if_neg hzero]
      exact hs.course_writeAll (left.drop count) writes' flush
termination_by left.length
decreasing_by
  rw [List.length_drop]
  omega

/-- **The course over a token that is written** and sent off, as the script says. -/
theorem Sends.course_writeToken (hs : party.Sends sending flushing after) (token : List UInt8)
    (wire : Wire) :
    party.SendCourse (sending token) wire.writes wire.flush
      ((wire.writeToken token).map after) := by
  have hwritten := hs.course_writeAll token wire.writes wire.flush
  rw [Wire.writeToken]
  rcases hall : Wire.writeAll token wire.writes with - | kind | ⟨⟩
  · rw [hall] at hwritten
    exact hwritten
  · rw [hall] at hwritten
    exact hwritten
  · rw [hall] at hwritten
    obtain ⟨events, writes', hout, hcourse⟩ := hwritten
    refine .trans hout hcourse ?_
    show party.SendCourse flushing writes' wire.flush (wire.flushed?.map after)
    rw [Wire.flushed?]
    rcases hflush : wire.flush with - | ⟨delay, result⟩
    · refine ⟨[], flushing, writes', nofun, fun reads ↦ ⟨.refl _ _, ?_⟩⟩
      rw [Blocked, hs.flush]
    · have hflushed : Outgoing [.flushed result] := by
        intro e he
        rw [List.mem_singleton.1 he]
        exact .inr rfl
      exact ⟨_, writes', hflushed, fun reads ↦ .flush hs.flush rfl (.refl _ _)⟩

end Party

end Overlay.Handshake
