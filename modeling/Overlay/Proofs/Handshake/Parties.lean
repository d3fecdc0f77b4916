import Overlay.Proofs.Handshake.Trace

/-!
# The two parties, answer by answer

`Responder.Transition` and `Initiator.Transition` list all that one answer can do to a party,
guards included, and `transition_of_answered` is the inversion that every invariant starts
from. The conditions on bytes are stated on the bytes themselves: a read finds none of them,
leaves the token short, or completes it; a write takes all, some or none.

Both parties are bounded (`Responder.bounded`, `Initiator.bounded`), so their runs end. For the
responder this takes an invariant, because a pause brings it nearer to its end only while
attempts are left: `Responder.Valid` keeps the number of the attempt between one and the
number of attempts, and a token that is being read short of its length.
-/

namespace Overlay.Handshake

/-- A read finds no end and leaves the token short, or ends it, or finds an empty stream. -/
theorem collect_cases (got bytes : List UInt8) :
    (collect got bytes = .incomplete (got ++ bytes) ∧ bytes ≠ [] ∧
        (got ++ bytes).length < Settings.tokenLength) ∨
      (collect got bytes = .token (got ++ bytes) ∧ got ++ bytes ≠ [] ∧
        (bytes = [] ∨ Settings.tokenLength ≤ (got ++ bytes).length)) ∨
      (collect got bytes = .nothing ∧ got = [] ∧ bytes = []) := by
  cases bytes with
  | nil =>
    by_cases hgot : got = []
    · exact .inr (.inr ⟨by simp [collect, hgot], hgot, rfl⟩)
    · exact .inr (.inl ⟨by simp [collect, hgot], by simpa using hgot, .inl rfl⟩)
  | cons b bytes =>
    by_cases hlen : Settings.tokenLength ≤ (got ++ b :: bytes).length
    · exact .inr (.inl ⟨by rw [collect, if_pos hlen], by simp, .inr hlen⟩)
    · exact .inl ⟨by rw [collect, if_neg hlen], by simp, by omega⟩

/-- A write takes everything, or nothing, or splits what was left. -/
theorem send_cases (left : List UInt8) (count : Nat) :
    (send left count = .complete ∧ left.take count = left) ∨
      (send left count = .stalled ∧ left.take count = []) ∨
      (send left count = .incomplete (left.drop count) ∧ left.take count ≠ [] ∧
        left.drop count ≠ []) := by
  by_cases hall : left.length ≤ count
  · exact .inl ⟨by rw [send, if_pos hall], List.take_of_length_le hall⟩
  by_cases hzero : count = 0
  · exact .inr (.inl ⟨by rw [send, if_neg hall, if_pos hzero], by rw [hzero, List.take_zero]⟩)
  · refine .inr (.inr ⟨by rw [send, if_neg hall, if_neg hzero], ?_, ?_⟩)
    · rw [← List.length_pos_iff, List.length_take]; omega
    · rw [← List.length_pos_iff, List.length_drop]; omega

namespace Responder

variable {config : Config}

/-- What one answer does to a responder. -/
inductive Transition (config : Config) : State → Event → State → Prop where
  | readFailed {attempt : Nat} {got : List UInt8} {kind : Failure} :
      Transition config (.awaiting attempt got) (.read (room got) (.error kind))
        (.finished (.failed kind))
  | more {attempt : Nat} {got bytes : List UInt8} (hbytes : bytes ≠ [])
      (hshort : (got ++ bytes).length < Settings.tokenLength) :
      Transition config (.awaiting attempt got) (.read (room got) (.ok bytes))
        (.awaiting attempt (got ++ bytes))
  | accepted {attempt : Nat} {got bytes : List UInt8} (hroom : bytes.length ≤ room got)
      (htoken : got ++ bytes = Settings.handshakeRequest) :
      Transition config (.awaiting attempt got) (.read (room got) (.ok bytes))
        (.replying Settings.handshakeReply)
  | rejected {attempt : Nat} {got bytes : List UInt8} (hroom : bytes.length ≤ room got)
      (hne : got ++ bytes ≠ []) (htoken : got ++ bytes ≠ Settings.handshakeRequest)
      (hend : bytes = [] ∨ Settings.tokenLength ≤ (got ++ bytes).length) :
      Transition config (.awaiting attempt got) (.read (room got) (.ok bytes))
        (.finished (.rejected (got ++ bytes)))
  | backedOff {attempt : Nat} (hattempt : attempt < config.attempts) :
      Transition config (.awaiting attempt []) (.read Settings.tokenLength (.ok []))
        (.backingOff attempt)
  | gaveUp {attempt : Nat} (hattempt : config.attempts ≤ attempt) :
      Transition config (.awaiting attempt []) (.read Settings.tokenLength (.ok []))
        (.finished (.abandoned attempt))
  | rested {attempt : Nat} :
      Transition config (.backingOff attempt) .rested (.awaiting (attempt + 1) [])
  | wroteSome {taken left : List UInt8} (htaken : taken ≠ []) (hleft : left ≠ []) :
      Transition config (.replying (taken ++ left)) (.wrote (.ok taken)) (.replying left)
  | wroteAll {left : List UInt8} :
      Transition config (.replying left) (.wrote (.ok left)) .flushing
  | stalled {left : List UInt8} :
      Transition config (.replying left) (.wrote (.ok [])) (.finished (.failed .writeZero))
  | writeFailed {left : List UInt8} {kind : Failure} :
      Transition config (.replying left) (.wrote (.error kind)) (.finished (.failed kind))
  | flushed : Transition config .flushing (.flushed (.ok ())) (.finished .responded)
  | flushFailed {kind : Failure} :
      Transition config .flushing (.flushed (.error kind)) (.finished (.failed kind))

/-- **Inversion** for the responder. -/
theorem transition_of_answered {s q : State} {e : Event} (h : Answered (step config s) e q) :
    Transition config s e q := by
  cases s with
  | awaiting attempt got =>
    cases h with
    | @read _ _ result hroom =>
    cases result with
    | error kind => exact .readFailed
    | ok bytes =>
      have hroom := hroom bytes rfl
      rcases collect_cases got bytes with ⟨hc, hbytes, hshort⟩ | ⟨hc, hne, hend⟩ | ⟨hc, rfl, rfl⟩
      · simp only [hc]
        exact .more hbytes hshort
      · simp only [hc, judge]
        split
        · next htoken => exact .accepted hroom htoken
        · next htoken => exact .rejected hroom hne htoken hend
      · simp only [hc, retry]
        split
        · next hattempt => exact .gaveUp hattempt
        · next hattempt => exact .backedOff (Nat.lt_of_not_le hattempt)
  | backingOff attempt =>
    cases h with
    | pause => exact .rested
  | replying left =>
    cases h with
    | @write _ _ result _ =>
    cases result with
    | error kind => exact .writeFailed
    | ok count =>
      rcases send_cases left count with ⟨hs, htake⟩ | ⟨hs, htake⟩ | ⟨hs, htake, hdrop⟩
      · simp only [hs, Task.taken, htake]
        exact .wroteAll
      · simp only [hs, Task.taken, htake]
        exact .stalled
      · simp only [hs, Task.taken]
        have h : Transition config (.replying (left.take count ++ left.drop count))
            (.wrote (.ok (left.take count))) (.replying (left.drop count)) :=
          .wroteSome htake hdrop
        rwa [List.take_append_drop] at h
  | flushing =>
    cases h with
    | @flush _ result =>
    cases result with
    | error kind => exact .flushFailed
    | ok _ => exact .flushed
  | finished verdict => cases h

theorem eq_finished_of_step {s : State} {v : Verdict} (h : step config s = .done v) :
    s = .finished v := by
  cases s with
  | finished => cases h; rfl
  | awaiting | backingOff | replying | flushing => cases h

/-- The states a responder gets into. -/
def Valid (config : Config) : State → Prop
  | .awaiting attempt got =>
    1 ≤ attempt ∧ attempt ≤ config.attempts ∧ got.length < Settings.tokenLength
  | .backingOff attempt => 1 ≤ attempt ∧ attempt < config.attempts
  | .replying left => left ≠ []
  | .flushing | .finished _ => True

/-- **A responder is bounded.** -/
theorem bounded (config : Config) : (party config).Bounded (Valid config) where
  start := ⟨Nat.le_refl 1, Nat.le_max_left 1 _, by decide⟩
  answer := by
    intro s e q hvalid h
    show Valid config q ∧ remaining config q < remaining config s
    have h : Transition config s e q := transition_of_answered h
    cases h with
    | readFailed | gaveUp | rejected => exact ⟨trivial, by simp only [remaining]; omega⟩
    | more hbytes hshort =>
      have hpos := List.length_pos_iff.2 hbytes
      refine ⟨⟨hvalid.1, hvalid.2.1, hshort⟩, ?_⟩
      simp only [List.length_append] at hshort
      simp only [remaining, room, List.length_append]
      omega
    | accepted =>
      refine ⟨by simp [Valid, Settings.handshakeReply], ?_⟩
      simp only [remaining, Settings.length_handshakeReply, Settings.tokenLength]
      omega
    | backedOff hattempt =>
      -- a pause is still to come, but one attempt less
      refine ⟨⟨hvalid.1, hattempt⟩, ?_⟩
      simp only [remaining, room, List.length_nil, Settings.tokenLength]
      omega
    | rested =>
      obtain ⟨hpos, hlt⟩ := hvalid
      refine ⟨⟨Nat.le_succ_of_le hpos, hlt, by decide⟩, ?_⟩
      simp only [remaining, room, List.length_nil, Settings.tokenLength]
      omega
    | wroteSome htaken hleft =>
      have hpos := List.length_pos_iff.2 htaken
      refine ⟨hleft, ?_⟩
      simp only [remaining, List.length_append]
      omega
    | wroteAll =>
      have hpos := List.length_pos_iff.2 hvalid
      exact ⟨trivial, by simp only [remaining]; omega⟩
    | stalled | writeFailed => exact ⟨trivial, by simp only [remaining]; omega⟩
    | flushed | flushFailed => exact ⟨trivial, by simp only [remaining]; omega⟩

end Responder

namespace Initiator

/-- What one answer does to an initiator. -/
inductive Transition : State → Event → State → Prop where
  | wroteSome {taken left : List UInt8} (htaken : taken ≠ []) (hleft : left ≠ []) :
      Transition (.requesting (taken ++ left)) (.wrote (.ok taken)) (.requesting left)
  | wroteAll {left : List UInt8} : Transition (.requesting left) (.wrote (.ok left)) .flushing
  | stalled {left : List UInt8} :
      Transition (.requesting left) (.wrote (.ok [])) (fail .writeZero)
  | writeFailed {left : List UInt8} {kind : Failure} :
      Transition (.requesting left) (.wrote (.error kind)) (fail kind)
  | flushed : Transition .flushing (.flushed (.ok ())) (.awaiting [])
  | flushFailed {kind : Failure} : Transition .flushing (.flushed (.error kind)) (fail kind)
  | readFailed {got : List UInt8} {kind : Failure} :
      Transition (.awaiting got) (.read (room got) (.error kind)) (fail kind)
  | more {got bytes : List UInt8} (hbytes : bytes ≠ [])
      (hshort : (got ++ bytes).length < Settings.tokenLength) :
      Transition (.awaiting got) (.read (room got) (.ok bytes)) (.awaiting (got ++ bytes))
  | accepted {got bytes : List UInt8} (hroom : bytes.length ≤ room got)
      (htoken : got ++ bytes = Settings.handshakeReply) :
      Transition (.awaiting got) (.read (room got) (.ok bytes)) (.finished (.ok ()))
  | rejected {got bytes : List UInt8} (hroom : bytes.length ≤ room got)
      (htoken : got ++ bytes ≠ Settings.handshakeReply)
      (hend : bytes = [] ∨ Settings.tokenLength ≤ (got ++ bytes).length) :
      Transition (.awaiting got) (.read (room got) (.ok bytes))
        (.finished (.error (.unexpectedReply (got ++ bytes))))

/-- **Inversion** for the initiator. -/
theorem transition_of_answered {s q : State} {e : Event} (h : Answered (step s) e q) :
    Transition s e q := by
  cases s with
  | requesting left =>
    cases h with
    | @write _ _ result _ =>
    cases result with
    | error kind => exact .writeFailed
    | ok count =>
      rcases send_cases left count with ⟨hs, htake⟩ | ⟨hs, htake⟩ | ⟨hs, htake, hdrop⟩
      · simp only [hs, Task.taken, htake]
        exact .wroteAll
      · simp only [hs, Task.taken, htake]
        exact .stalled
      · simp only [hs, Task.taken]
        have h := Transition.wroteSome htake hdrop
        rwa [List.take_append_drop] at h
  | flushing =>
    cases h with
    | @flush _ result =>
    cases result with
    | error kind => exact .flushFailed
    | ok _ => exact .flushed
  | awaiting got =>
    cases h with
    | @read _ _ result hroom =>
    cases result with
    | error kind => exact .readFailed
    | ok bytes =>
      have hroom := hroom bytes rfl
      have hjudge : (bytes = [] ∨ Settings.tokenLength ≤ (got ++ bytes).length) →
          Transition (.awaiting got) (.read (room got) (.ok bytes)) (judge (got ++ bytes)) := by
        intro hend
        rw [judge]
        split
        · next htoken => exact .accepted hroom htoken
        · next htoken => exact .rejected hroom htoken hend
      rcases collect_cases got bytes with ⟨hc, hbytes, hshort⟩ | ⟨hc, -, hend⟩ | ⟨hc, rfl, rfl⟩
      · simp only [hc]
        exact .more hbytes hshort
      · simp only [hc]
        exact hjudge hend
      · simp only [hc]
        exact hjudge (.inl rfl)
  | finished verdict => cases h

theorem eq_finished_of_step {s : State} {v : Verdict} (h : step s = .done v) :
    s = .finished v := by
  cases s with
  | finished => cases h; rfl
  | requesting | flushing | awaiting => cases h

/-- The states an initiator gets into. -/
def Valid : State → Prop
  | .requesting left => left ≠ []
  | .awaiting got => got.length < Settings.tokenLength
  | .flushing | .finished _ => True

/-- **An initiator is bounded.** -/
theorem bounded : party.Bounded Valid where
  start := by simp [party, Valid, Settings.handshakeRequest]
  answer := by
    intro s e q hvalid h
    show Valid q ∧ remaining q < remaining s
    have h : Transition s e q := transition_of_answered h
    cases h with
    | wroteSome htaken hleft =>
      have hpos := List.length_pos_iff.2 htaken
      refine ⟨hleft, ?_⟩
      simp only [remaining, List.length_append]
      omega
    | wroteAll =>
      have hpos := List.length_pos_iff.2 hvalid
      exact ⟨trivial, by simp only [remaining]; omega⟩
    | stalled | writeFailed | flushFailed =>
      exact ⟨trivial, by simp only [fail, remaining]; omega⟩
    | flushed => exact ⟨show 0 < Settings.tokenLength by decide, by decide⟩
    | readFailed => exact ⟨trivial, by simp only [fail, remaining]; omega⟩
    | more hbytes hshort =>
      have hpos := List.length_pos_iff.2 hbytes
      refine ⟨hshort, ?_⟩
      simp only [List.length_append] at hshort
      simp only [remaining, room, List.length_append]
      omega
    | accepted | rejected => exact ⟨trivial, by simp only [remaining]; omega⟩

end Initiator

end Overlay.Handshake
