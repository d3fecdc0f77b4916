import Mathlib.Tactic.SplitIfs
import Overlay.Json.Strings

/-!
# The texts of a list of strings

What a JSON text of strings may look like is said here without the functions that read it: a
character has its spellings (`Spelling`), a literal is the spellings of its characters between
quotation marks, tokens are written one after the other with white space anywhere between them
(`Cut`), and the array of some strings has the brackets, literals and commas for its tokens
(`Denotes`).

The scan keeps to this. It takes any spelling off a text and has the character
(`scan_spelling`), so whatever is cut into tokens in writing is scanned as these tokens. The other
way round, an induction along the scan follows what is left of the text: outside of literals it
is cut into the tokens that come, and inside one it begins with the rest of the literal
(`Remains`). So the tokens of a text are those that it is cut into, and no others
(`scan_eq_some_iff`), and the array of a text is the one that it denotes
(`stringArray?_eq_some_iff`).
-/

namespace Overlay.Json

/-! ### Written forms -/

/-- The ways to write a character within a literal. -/
inductive Spelling : Char → List Char → Prop
  | plain {c : Char} (hcontrol : ¬ c.toNat < 0x20) (hquote : c ≠ '"') (hslash : c ≠ '\\') :
      Spelling c [c]
  | letter {l c : Char} (h : escaped? l = some c) : Spelling c ['\\', l]
  | unit {a b c d : Char} {n : Nat} (h : unit? a b c d = some n)
      (hhalf : ¬ (0xD800 ≤ n ∧ n < 0xE000)) : Spelling (Char.ofNat n) ['\\', 'u', a, b, c, d]
  /-- A character beyond the sixteen bits of a unit, by the two halves of its pair. -/
  | pair {a b c d a' b' c' d' : Char} {high low : Nat} (hhigh : unit? a b c d = some high)
      (hhighs : 0xD800 ≤ high ∧ high < 0xDC00) (hlow : unit? a' b' c' d' = some low)
      (hlows : 0xDC00 ≤ low ∧ low < 0xE000) :
      Spelling (Char.ofNat (0x10000 + (high - 0xD800) * 0x400 + (low - 0xDC00)))
        ['\\', 'u', a, b, c, d, '\\', 'u', a', b', c', d']

/-- What stands between the quotation marks of a literal. -/
inductive Body : List Char → List Char → Prop
  | nil : Body [] []
  | cons {c : Char} {spelled value body : List Char} (hc : Spelling c spelled)
      (hbody : Body value body) : Body (c :: value) (spelled ++ body)

/-- The way to write a token. -/
inductive Writes : Token → List Char → Prop
  | punctuation {c : Char} {token : Token} (h : punctuation? c = some token) : Writes token [c]
  | null : Writes .null ['n', 'u', 'l', 'l']
  | literal {value body : List Char} (h : Body value body) :
      Writes (.text value) ('"' :: (body ++ ['"']))

/-- The text is cut into the tokens, with white space before, between and behind them. -/
inductive Cut : List Token → List Char → Prop
  | nil : Cut [] []
  | space {c : Char} {tokens : List Token} {text : List Char} (hc : isSpace c = true)
      (h : Cut tokens text) : Cut tokens (c :: text)
  | token {token : Token} {written : List Char} {tokens : List Token} {text : List Char}
      (htoken : Writes token written) (h : Cut tokens text) :
      Cut (token :: tokens) (written ++ text)

/-- The tokens of further items, up to the end of the array. -/
def moreTokens : List (List Char) → List Token
  | [] => [.closeArray]
  | item :: rest => .comma :: .text item :: moreTokens rest

/-- The tokens of an array of strings. -/
def arrayTokens : List (List Char) → List Token
  | [] => [.openArray, .closeArray]
  | item :: rest => .openArray :: .text item :: moreTokens rest

/-- The text denotes the array of these strings. -/
def Denotes (text : List Char) (items : List (List Char)) : Prop := Cut (arrayTokens items) text

/-! ### The scan of what is written -/

theorem scan_space {c : Char} (hc : isSpace c = true) (rest : List Char) :
    scan .outside (c :: rest) = scan .outside rest := by
  rw [isSpace] at hc
  simp only [Bool.or_eq_true, beq_iff_eq] at hc
  rcases hc with ((rfl | rfl) | rfl) | rfl <;> rfl

theorem scan_punctuation {c : Char} {token : Token} (h : punctuation? c = some token)
    (rest : List Char) : scan .outside (c :: rest) = (scan .outside rest).map (token :: ·) := by
  unfold punctuation? at h
  split at h <;> cases h <;> rfl

/-- **Whatever way a character is spelled**, the scan takes the spelling off and has it. -/
theorem scan_spelling {c : Char} {spelled : List Char} (h : Spelling c spelled)
    (value rest : List Char) :
    scan (.inside value) (spelled ++ rest) = scan (.inside (c :: value)) rest := by
  cases h with
  | plain hcontrol hquote hslash =>
    show scan (.inside value) (c :: rest) = _
    rw [scan]
    · exact if_neg (not_or.2 ⟨hcontrol, hslash⟩)
    · exact hquote
    · exact fun _ _ _ _ _ hc _ ↦ hslash hc
    · exact fun _ _ hc _ ↦ hslash hc
  | @letter l _ h =>
    -- `u` is no escape of one letter, so the four characters behind it are not taken for a unit
    have hu : l ≠ 'u' := by
      rintro rfl
      cases h
    show scan (.inside value) ('\\' :: l :: rest) = _
    rw [scan]
    · rw [h]
    · exact fun _ _ _ _ _ hl _ ↦ hu hl
  | unit h hhalf =>
    show scan (.inside value) ('\\' :: 'u' :: _ :: _ :: _ :: _ :: rest) = _
    rw [scan, h]
    dsimp only
    rw [if_neg (by omega), if_neg (by omega)]
  | pair hhigh hhighs hlow hlows =>
    show scan (.inside value) ('\\' :: 'u' :: _ :: _ :: _ :: _ :: '\\' :: 'u' :: _ :: _ :: _ ::
      _ :: rest) = _
    rw [scan, hhigh]
    dsimp only
    rw [if_neg (by omega), if_pos hhighs]
    simp only [hlow, if_pos hlows]

theorem scan_body {value body : List Char} (h : Body value body) (before rest : List Char) :
    scan (.inside before) (body ++ '"' :: rest) =
      (scan .outside rest).map (.text (before.reverse ++ value) :: ·) := by
  induction h generalizing before with
  | nil =>
    rw [List.append_nil]
    rfl
  | cons hc _ ih =>
    rw [List.append_assoc, scan_spelling hc, ih, List.reverse_cons, List.append_assoc,
      List.singleton_append]

theorem scan_writes {token : Token} {written : List Char} (h : Writes token written)
    (rest : List Char) :
    scan .outside (written ++ rest) = (scan .outside rest).map (token :: ·) := by
  cases h with
  | punctuation h => exact scan_punctuation h rest
  | null => rfl
  | literal h =>
    show scan (.inside []) (_ ++ ['"'] ++ rest) = _
    rw [List.append_assoc]
    exact scan_body h [] rest

/-! ### What is left of a scanned text -/

/-- What is left of a text of which the scan gives these tokens. -/
def Remains : Scan → List Token → List Char → Prop
  | .outside, tokens, text => Cut tokens text
  | .inside value, tokens, text => ∃ more body tokens' rest,
      tokens = .text (value.reverse ++ more) :: tokens' ∧ text = body ++ '"' :: rest ∧
        Body more body ∧ Cut tokens' rest

/-- Before a spelling is taken off, one more character of the literal is left. -/
theorem Remains.spelled {c : Char} {spelled value text : List Char} {tokens : List Token}
    (hc : Spelling c spelled) (h : Remains (.inside (c :: value)) tokens text) :
    Remains (.inside value) tokens (spelled ++ text) := by
  obtain ⟨more, body, tokens', rest, rfl, rfl, hbody, hrest⟩ := h
  refine ⟨c :: more, spelled ++ body, tokens', rest, ?_, (List.append_assoc _ _ _).symm,
    .cons hc hbody, hrest⟩
  rw [List.reverse_cons, List.append_assoc, List.singleton_append]

theorem remains_of_scan {state : Scan} {text : List Char} :
    ∀ {tokens}, scan state text = some tokens → Remains state tokens text := by
  -- one case for each way the scan goes on; where it stops, it gives no tokens
  fun_induction scan state text with
  | case1 =>
    intro tokens h
    cases h
    exact .nil
  | case2 rest ih =>
    intro tokens h
    obtain ⟨value, body, tokens, rest, rfl, rfl, hbody, hrest⟩ := ih h
    have hliteral := Cut.token (.literal hbody) hrest
    rwa [List.cons_append, List.append_assoc] at hliteral
  | case3 rest ih =>
    intro tokens h
    obtain ⟨tokens, hrest, rfl⟩ := Option.map_eq_some_iff.1 h
    exact .token .null (ih hrest)
  | case4 c rest _ _ hspace ih => exact fun h ↦ .space hspace (ih h)
  | case6 c rest _ _ _ token htoken ih =>
    intro tokens h
    obtain ⟨tokens, hrest, rfl⟩ := Option.map_eq_some_iff.1 h
    exact .token (.punctuation htoken) (ih hrest)
  | case8 value rest ih =>
    intro tokens h
    obtain ⟨tokens, hrest, rfl⟩ := Option.map_eq_some_iff.1 h
    exact ⟨[], [], tokens, rest, by rw [List.append_nil], rfl, .nil, ih hrest⟩
  | case12 value a b c d high hhigh hlower hhighs a' b' c' d' rest low hlow hlows ih =>
    exact fun h ↦ .spelled (.pair hhigh hhighs hlow hlows) (ih h)
  | case15 value a b c d rest n hn hlower hupper ih =>
    exact fun h ↦ .spelled (.unit hn (by omega)) (ih h)
  | case17 value l rest _ c hc ih => exact fun h ↦ .spelled (.letter hc) (ih h)
  | case19 value c rest hquote _ _ hplain ih =>
    rw [not_or] at hplain
    exact fun h ↦ .spelled (.plain hplain.1 hquote hplain.2) (ih h)
  | _ => exact fun h ↦ by cases h

/-- **The tokens of a text** are those that it is cut into. -/
theorem scan_eq_some_iff {text : List Char} {tokens : List Token} :
    scan .outside text = some tokens ↔ Cut tokens text := by
  constructor
  · exact remains_of_scan
  · intro h
    induction h with
    | nil => rfl
    | space hc _ ih => rw [scan_space hc, ih]
    | token htoken _ ih => rw [scan_writes htoken, ih, Option.map_some]

/-! ### Arrays -/

theorem items?_false_eq_some_iff {tokens : List Token} {items : List (List Char)} :
    items? false tokens = some items ↔ tokens = moreTokens items := by
  constructor
  · intro h
    generalize hfirst : false = first at h
    fun_induction items? first tokens generalizing items with
    | case1 =>
      cases h
      rfl
    | case2 => cases hfirst
    | case3 value rest ih =>
      obtain ⟨more, hmore, rfl⟩ := Option.map_eq_some_iff.1 h
      rw [ih rfl hmore, moreTokens]
    | case4 => cases h
  · rintro rfl
    induction items with
    | nil => rfl
    | cons item rest ih =>
      show (items? false (moreTokens rest)).map (item :: ·) = _
      rw [ih, Option.map_some]

theorem items?_true_eq_some_iff {tokens : List Token} {items : List (List Char)} :
    items? true tokens = some items ↔ .openArray :: tokens = arrayTokens items := by
  constructor
  · intro h
    rw [items?.eq_def] at h
    split at h
    · cases h
      rfl
    · obtain ⟨more, hmore, rfl⟩ := Option.map_eq_some_iff.1 h
      rw [arrayTokens, items?_false_eq_some_iff.1 hmore]
    · next hfirst => cases hfirst
    · cases h
  · intro h
    cases items with
    | nil =>
      cases h
      rfl
    | cons item rest =>
      cases h
      show (items? false (moreTokens rest)).map (item :: ·) = _
      rw [items?_false_eq_some_iff.2 rfl, Option.map_some]

/-- **The array of a text** is the one that it denotes. -/
theorem stringArray?_eq_some_iff {text : List Char} {items : List (List Char)} :
    stringArray? text = some items ↔ Denotes text items := by
  rw [Denotes, ← scan_eq_some_iff, stringArray?, tokens?]
  constructor
  · intro h
    split at h
    · next rest hscan => rw [hscan, items?_true_eq_some_iff.1 h]
    · cases h
  · intro h
    rw [h]
    cases items with
    | nil => rfl
    | cons item rest => exact items?_true_eq_some_iff.2 rfl

end Overlay.Json
