import Overlay.Handshake.Task

/-!
# Tokens on a wire

What one token read comes to, and what writing a token comes to, said of the script of a wire
alone. `readToken` takes bytes until the token is complete or the stream ends or fails, and
`writeAll` offers bytes until all are taken. Neither knows of a party or a clock.

`readToken_eq` and `writeAll_eq` are the loops behind them: one read, or one write, and the
same again with what is left. They are all that the comparison with a party needs.
-/

namespace Overlay

@[simp] theorem Delayed.later_after {α : Type} (delay wait : Nat) (value : α) :
    (Delayed.after wait value).later delay = .after (delay + wait) value := rfl

theorem Delayed.later_zero {α : Type} (x : Delayed α) : x.later 0 = x := by
  cases x with
  | never => rfl
  | after wait value => rw [later_after, Nat.zero_add]

theorem Delayed.later_later {α : Type} (d e : Nat) (x : Delayed α) :
    (x.later e).later d = x.later (d + e) := by
  cases x with
  | never => rfl
  | after wait value => simp only [later_after, Nat.add_assoc]

namespace Handshake.Wire

/-- The readings left when `rest` follows a chunk of which `leftover` was not taken. -/
def unread (leftover : List UInt8) (rest : List Reading) : List Reading :=
  if leftover = [] then rest else .data leftover :: rest

/-- One run of reading a token, of which `got` has been read: what it comes to, and the readings
left. No bytes mean that the stream ended before the token began. -/
def readToken (got : List UInt8) :
    List Reading → Delayed (Except Failure (List UInt8) × List Reading)
  | [] => .after 0 (.ok got, [])
  | .data bytes :: rest =>
    if bytes = [] then .after 0 (.ok got, rest)
    else if (got ++ bytes).length < Settings.tokenLength then readToken (got ++ bytes) rest
    else .after 0 (.ok ((got ++ bytes).take Settings.tokenLength),
      unread (bytes.drop (Settings.tokenLength - got.length)) rest)
  | .eof :: rest => .after 0 (.ok got, rest)
  | .fail kind :: rest => .after 0 (.error kind, rest)
  | .wait delay :: rest => (readToken got rest).later delay
  | .pending :: _ => .never

/-- The readings left after `n` runs of reading a token; a run that never ends leaves nothing
to find. -/
def afterTokens : (n : Nat) → List Reading → List Reading
  | 0, reads => reads
  | n + 1, reads =>
    match readToken [] reads with
    | .never => [.pending]
    | .after _ (_, left) => afterTokens n left

/-- What run `n` of reading a token comes to, the first being run zero, unless it never ends. -/
def tokenRead? (wire : Wire) (n : Nat) : Option (Except Failure (List UInt8)) :=
  match readToken [] (afterTokens n wire.reads) with
  | .never => none
  | .after _ (result, _) => some result

/-- What comes of writing `left`, unless it never ends. A write that takes nothing is a
failure. -/
def writeAll (left : List UInt8) : List Writing → Option (Except Failure Unit)
  | [] => some (.ok ())
  | .accept count :: rest =>
    if left.length ≤ count then some (.ok ())
    else if count = 0 then some (.error .writeZero)
    else writeAll (left.drop count) rest
  | .fail kind :: _ => some (.error kind)
  | .wait _ :: rest => writeAll left rest
  | .pending :: _ => none

/-- What comes of sending off what was written, unless it never ends. -/
def flushed? (wire : Wire) : Option (Except Failure Unit) :=
  match wire.flush with
  | .never => none
  | .after _ result => some result

/-- What comes of writing a token and sending it off, unless it never ends. -/
def writeToken (token : List UInt8) (wire : Wire) : Option (Except Failure Unit) :=
  match writeAll token wire.writes with
  | some (.ok ()) => wire.flushed?
  | result => result

theorem readToken_of_tokenRead? {wire : Wire} {n : Nat} {result : Except Failure (List UInt8)}
    (h : wire.tokenRead? n = some result) :
    ∃ delay left, readToken [] (afterTokens n wire.reads) = .after delay (result, left) := by
  rw [tokenRead?] at h
  split at h
  · cases h
  · next delay result' left hread =>
    cases h
    exact ⟨delay, left, hread⟩

theorem afterTokens_succ {reads left : List Reading} {delay : Nat}
    {result : Except Failure (List UInt8)} (h : readToken [] reads = .after delay (result, left))
    (n : Nat) : afterTokens (n + 1) reads = afterTokens n left := by
  rw [afterTokens, h]

theorem tokenRead?_succ {wire : Wire} {left : List Reading} {delay : Nat}
    {result : Except Failure (List UInt8)}
    (h : readToken [] wire.reads = .after delay (result, left)) (n : Nat) :
    wire.tokenRead? (n + 1) = tokenRead? { wire with reads := left } n := by
  rw [tokenRead?, tokenRead?, afterTokens_succ h]

/-! ### The loops behind them -/

/-- What a read does to a token of which `got` has been read. -/
def tokenStep (got : List UInt8) :
    Delayed (Except Failure (List UInt8) × List Reading) →
      Delayed (Except Failure (List UInt8) × List Reading)
  | .never => .never
  | .after delay (.error kind, left) => .after delay (.error kind, left)
  | .after delay (.ok bytes, left) =>
    if bytes ≠ [] ∧ (got ++ bytes).length < Settings.tokenLength then
      (readToken (got ++ bytes) left).later delay
    else .after delay (.ok (got ++ bytes), left)

theorem tokenStep_later (got : List UInt8) (delay : Nat)
    (x : Delayed (Except Failure (List UInt8) × List Reading)) :
    tokenStep got (x.later delay) = (tokenStep got x).later delay := by
  rcases x with - | ⟨wait, kind | bytes, left⟩
  · rfl
  · rfl
  · simp only [Delayed.later_after, tokenStep]
    split
    · rw [Delayed.later_later]
    · rfl

/-- **The loop of a token read**: one read, and the same again while the token is short. -/
theorem readToken_eq {got : List UInt8} (hgot : got.length < Settings.tokenLength)
    (reads : List Reading) :
    readToken got reads =
      tokenStep got (readFrom (Settings.tokenLength - got.length) reads) := by
  induction reads with
  | nil => simp [readToken, readFrom, tokenStep]
  | cons reading rest ih =>
    cases reading with
    | data bytes =>
      rw [readToken, readFrom]
      by_cases hnil : bytes = []
      · simp [hnil, tokenStep]
      by_cases hshort : (got ++ bytes).length < Settings.tokenLength
      · have hfits : bytes.length ≤ Settings.tokenLength - got.length := by
          rw [List.length_append] at hshort
          omega
        rw [if_neg hnil, if_pos hshort, if_pos hfits, tokenStep, if_pos ⟨hnil, hshort⟩,
          Delayed.later_zero]
      · rw [if_neg hnil, if_neg hshort]
        by_cases hfits : bytes.length ≤ Settings.tokenLength - got.length
        · have hall : (got ++ bytes).length ≤ Settings.tokenLength := by
            rw [List.length_append]
            omega
          rw [if_pos hfits, tokenStep, if_neg fun h ↦ hshort h.2, List.take_of_length_le hall,
            List.drop_of_length_le hfits, unread, if_pos rfl]
        · have hleft : bytes.drop (Settings.tokenLength - got.length) ≠ [] := by
            rw [ne_eq, List.drop_eq_nil_iff]
            exact hfits
          have hfull : ¬ (got ++ bytes.take (Settings.tokenLength - got.length)).length <
              Settings.tokenLength := by
            rw [List.length_append, List.length_take]
            omega
          rw [if_neg hfits, tokenStep, if_neg fun h ↦ hfull h.2, unread, if_neg hleft,
            List.take_append, List.take_of_length_le (Nat.le_of_lt hgot)]
    | eof => simp [readToken, readFrom, tokenStep]
    | fail kind => rfl
    | wait delay => rw [readToken, readFrom, tokenStep_later, ih]
    | pending => rfl

/-- What a write does that takes `count` of the bytes. -/
def writeStep (left : List UInt8) :
    Delayed (Except Failure Nat × List Writing) → Option (Except Failure Unit)
  | .never => none
  | .after _ (.error kind, _) => some (.error kind)
  | .after _ (.ok count, writes) =>
    if left.length ≤ count then some (.ok ())
    else if count = 0 then some (.error .writeZero)
    else writeAll (left.drop count) writes

theorem writeStep_later (left : List UInt8) (delay : Nat)
    (x : Delayed (Except Failure Nat × List Writing)) :
    writeStep left (x.later delay) = writeStep left x := by
  rcases x with - | ⟨wait, kind | count, writes⟩ <;> rfl

/-- **The loop of a write**: one write, and the same again while something is left. -/
theorem writeAll_eq (left : List UInt8) (writes : List Writing) :
    writeAll left writes = writeStep left (writeTo left.length writes) := by
  induction writes with
  | nil => simp [writeAll, writeTo, writeStep]
  | cons writing rest ih =>
    cases writing with
    | accept count =>
      rw [writeAll, writeTo, writeStep]
      by_cases hall : left.length ≤ count
      · rw [if_pos hall, if_pos (Nat.le_min.2 ⟨hall, Nat.le_refl _⟩)]
      · rw [Nat.min_eq_left (Nat.le_of_not_le hall)]
    | fail kind => rfl
    | wait delay => rw [writeAll, writeTo, writeStep_later, ih]
    | pending => rfl

/-- A chunk that is longer than the token is cut at its end. -/
example : readToken [] [.data [0x50], .wait 3, .data [0x49, 0x4E, 0x47, 0x0A, 0x50], .eof] =
    .after 3 (.ok Settings.handshakeRequest, [.data [0x50], .eof]) := by decide

end Handshake.Wire

end Overlay
