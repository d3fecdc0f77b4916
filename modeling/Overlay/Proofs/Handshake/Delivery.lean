import Overlay.Proofs.Handshake.Account
import Overlay.Proofs.Handshake.Course
import Overlay.Proofs.Handshake.Tokens

/-!
# Scripts that deliver bytes

`Delivers reads bytes` says that a script brings just `bytes`, in chunks that are cut in any way and
come at any time, and behind them the end of the stream forever. It is all that a result may
depend on if it is not to depend on the cutting.

* `Delivers.readToken`: a token read takes as many of the bytes as it has room for, across the
  borders of chunks, and leaves the rest of them. By induction on the script.
* `Party.Course.delivers`: no party loses a byte. What it has received, and what is left for it, are
  the bytes.
-/

namespace Overlay.Handshake

/-- The script brings `bytes`, cut into non-empty chunks, and then the end of the stream. -/
inductive Delivers : List Reading → List UInt8 → Prop where
  | nil : Delivers [] []
  | eof {reads : List Reading} (h : Delivers reads []) : Delivers (.eof :: reads) []
  | chunk {reads : List Reading} {chunk bytes : List UInt8} (hchunk : chunk ≠ [])
      (h : Delivers reads bytes) : Delivers (.data chunk :: reads) (chunk ++ bytes)
  | wait {reads : List Reading} {bytes : List UInt8} {delay : Nat} (h : Delivers reads bytes) :
      Delivers (.wait delay :: reads) bytes

/-- **Every cutting of bytes delivers them.** -/
theorem delivers_map_data {cut : List (List UInt8)} (hcut : ∀ chunk ∈ cut, chunk ≠ []) :
    Delivers (cut.map .data) cut.flatten := by
  induction cut with
  | nil => exact .nil
  | cons chunk cut ih =>
    exact .chunk (hcut chunk List.mem_cons_self) (ih fun c hc ↦ hcut c (List.mem_cons_of_mem _ hc))

namespace Delivers

variable {reads : List Reading} {bytes : List UInt8}

/-- What is left of a chunk goes before the rest. -/
theorem unread {leftover : List UInt8} (h : Delivers reads bytes) :
    Delivers (Wire.unread leftover reads) (leftover ++ bytes) := by
  rw [Wire.unread]
  split
  · next hnil =>
    rw [hnil, List.nil_append]
    exact h
  · next hne => exact .chunk hne h

/-! ### Token reads -/

/-- **A token read** takes the bytes that it has room for, however they are cut. -/
theorem readToken (h : Delivers reads bytes) {got : List UInt8}
    (hgot : got.length < Settings.tokenLength) :
    ∃ delay left, Wire.readToken got reads =
        .after delay (.ok ((got ++ bytes).take Settings.tokenLength), left) ∧
      Delivers left (bytes.drop (Settings.tokenLength - got.length)) := by
  induction h generalizing got with
  | nil =>
    refine ⟨0, [], ?_, by rw [List.drop_nil]; exact .nil⟩
    rw [Wire.readToken, List.append_nil, List.take_of_length_le (Nat.le_of_lt hgot)]
  | @eof reads h _ =>
    refine ⟨0, reads, ?_, by rw [List.drop_nil]; exact h⟩
    rw [Wire.readToken, List.append_nil, List.take_of_length_le (Nat.le_of_lt hgot)]
  | @chunk reads chunk bytes hchunk h ih =>
    rw [Wire.readToken, if_neg hchunk, ← List.append_assoc]
    by_cases hshort : (got ++ chunk).length < Settings.tokenLength
    · -- the chunk does not fill the token, so all of it is taken and the read goes on
      obtain ⟨delay, left, hread, hleft⟩ := ih hshort
      have hdrop : (chunk ++ bytes).drop (Settings.tokenLength - got.length) =
          bytes.drop (Settings.tokenLength - (got ++ chunk).length) := by
        rw [List.length_append] at hshort ⊢
        rw [List.drop_append, List.drop_of_length_le (by omega), List.nil_append]
        congr 1
        omega
      rw [if_pos hshort, hdrop]
      exact ⟨delay, left, hread, hleft⟩
    · -- the token ends within the chunk, or with it
      rw [if_neg hshort]
      have hfull : Settings.tokenLength ≤ (got ++ chunk).length := Nat.le_of_not_lt hshort
      have htake : ((got ++ chunk) ++ bytes).take Settings.tokenLength =
          (got ++ chunk).take Settings.tokenLength := List.take_append_of_le_length hfull
      have hdrop : (chunk ++ bytes).drop (Settings.tokenLength - got.length) =
          chunk.drop (Settings.tokenLength - got.length) ++ bytes := by
        rw [List.length_append] at hfull
        exact List.drop_append_of_le_length (by omega)
      rw [htake, hdrop]
      exact ⟨0, _, rfl, h.unread⟩
  | @wait reads bytes delay h ih =>
    obtain ⟨more, left, hread, hleft⟩ := ih hgot
    exact ⟨delay + more, left, by rw [Wire.readToken, hread, Delayed.later_after], hleft⟩

/-- **A whole token read** finds as much as a token, or all there is. -/
theorem readToken_nil (h : Delivers reads bytes) :
    ∃ delay left, Wire.readToken [] reads =
        .after delay (.ok (bytes.take Settings.tokenLength), left) ∧
      Delivers left (bytes.drop Settings.tokenLength) := by
  have hempty : ([] : List UInt8).length < Settings.tokenLength := by decide
  exact h.readToken hempty

/-- Where nothing is delivered, every token read finds an empty stream. -/
theorem tokenRead? {wire : Wire} (h : Delivers wire.reads []) (n : Nat) :
    wire.tokenRead? n = some (.ok []) := by
  induction n generalizing wire with
  | zero =>
    obtain ⟨delay, left, hread, -⟩ := h.readToken_nil
    rw [Wire.tokenRead?, Wire.afterTokens, hread, List.take_nil]
  | succ n ih =>
    obtain ⟨delay, left, hread, hleft⟩ := h.readToken_nil
    rw [Wire.tokenRead?_succ hread]
    exact ih hleft

/-! ### Single reads -/

/-- A read takes some bytes off what is delivered. -/
theorem readFrom (h : Delivers reads bytes) {room delay : Nat}
    {result : Except Failure (List UInt8)} {left : List Reading}
    (hread : Wire.readFrom room reads = .after delay (result, left)) :
    ∃ found rest, result = .ok found ∧ bytes = found ++ rest ∧ Delivers left rest := by
  induction h generalizing delay with
  | nil =>
    cases hread
    exact ⟨[], [], rfl, rfl, .nil⟩
  | eof h _ =>
    cases hread
    exact ⟨[], [], rfl, rfl, h⟩
  | @chunk reads chunk bytes hchunk h _ =>
    rw [Wire.readFrom] at hread
    split at hread
    · cases hread
      exact ⟨chunk, bytes, rfl, rfl, h⟩
    · next hlong =>
      cases hread
      have hleft : chunk.drop room ≠ [] := by
        rw [ne_eq, List.drop_eq_nil_iff]
        exact hlong
      refine ⟨chunk.take room, chunk.drop room ++ bytes, rfl, ?_, .chunk hleft h⟩
      rw [← List.append_assoc, List.take_append_drop]
  | @wait reads bytes wait h ih =>
    rw [Wire.readFrom] at hread
    rcases hrest : Wire.readFrom room reads with - | ⟨more, value⟩
    · rw [hrest] at hread
      cases hread
    · rw [hrest] at hread
      cases hread
      exact ih hrest

end Delivers

/-- **No byte is lost**: what a party has received and what is left for it are what is delivered. -/
theorem Party.Course.delivers {σ ω : Type} {party : Party σ ω} {s q : σ} {wire wire' : Wire}
    {events : List Event} (h : party.Course s wire events q wire') {bytes : List UInt8}
    (hbytes : Delivers wire.reads bytes) :
    ∃ rest, bytes = received events ++ rest ∧ Delivers wire'.reads rest := by
  induction h generalizing bytes with
  | refl => exact ⟨bytes, rfl, hbytes⟩
  | read hstep hread h ih =>
    obtain ⟨found, rest, rfl, rfl, hleft⟩ := hbytes.readFrom hread
    obtain ⟨rest, rfl, hrest⟩ := ih hleft
    exact ⟨rest, (List.append_assoc _ _ _).symm, hrest⟩
  | pause hstep h ih => exact ih hbytes
  | write hstep hwrite h ih =>
    obtain ⟨rest, heq, hrest⟩ := ih hbytes
    exact ⟨rest, by rw [received, List.flatMap_cons]; exact heq, hrest⟩
  | flush hstep hflush h ih => exact ih hbytes

end Overlay.Handshake
