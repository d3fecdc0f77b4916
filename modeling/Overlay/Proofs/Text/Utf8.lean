import Mathlib.Tactic.SplitIfs
import Overlay.Files

/-!
# UTF-8 reads what it writes, and nothing else

A character is written in one to four bytes, by its size. `next_encodeChar` says that reading
takes exactly these bytes off and finds the character again; that is arithmetic on its number,
one lemma for each size, and the range of the second byte is where it counts that the number is
neither overlong nor a surrogate. The other way round, the bytes that reading takes off are those
in which the character is written (`eq_of_next`); there the range of the second byte is what
excludes a second form of the same character.

Whole texts follow by induction, in both directions (`decode_eq_ok_iff`), and so do files that
hold them (`text_eq_ok_iff`).
-/

namespace Overlay

namespace Text.Utf8

/-! ### Bytes -/

theorem between_iff {low high b : UInt8} :
    (decide (low ≤ b) && decide (b ≤ high)) = true ↔
      low.toNat ≤ b.toNat ∧ b.toNat ≤ high.toNat := by
  rw [Bool.and_eq_true, decide_eq_true_eq, decide_eq_true_eq, UInt8.le_iff_toNat_le,
    UInt8.le_iff_toNat_le]

theorem toNat_ofNat {n : Nat} (hn : n < 256) : (UInt8.ofNat n).toNat = n :=
  UInt8.toNat_ofNat_of_lt' (by simpa only [UInt8.size] using hn)

theorem between_ofNat_iff {low high : UInt8} {n : Nat} (hn : n < 256) :
    (decide (low ≤ UInt8.ofNat n) && decide (UInt8.ofNat n ≤ high)) = true ↔
      low.toNat ≤ n ∧ n ≤ high.toNat := by
  rw [between_iff, toNat_ofNat hn]

theorem isTail_iff {b : UInt8} : isTail b = true ↔ 128 ≤ b.toNat ∧ b.toNat ≤ 191 := between_iff

theorem isTail_ofNat (n : Nat) : isTail (UInt8.ofNat (n % 64 + 128)) = true := by
  rw [isTail_iff, toNat_ofNat (by omega)]
  omega

theorem tailBits_ofNat (n : Nat) : tailBits (UInt8.ofNat (n % 64 + 128)) = n % 64 := by
  rw [tailBits, toNat_ofNat (by omega)]
  omega

/-- A second byte continues a character, and is none with which a first byte would begin an
overlong form, a surrogate or a number beyond the last character. -/
theorem mayFollow_iff {a b : UInt8} :
    mayFollow a b = true ↔
      (128 ≤ b.toNat ∧ b.toNat ≤ 191) ∧ (a.toNat = 0xE0 → 160 ≤ b.toNat) ∧
        (a.toNat = 0xED → b.toNat ≤ 159) ∧ (a.toNat = 0xF0 → 144 ≤ b.toNat) ∧
        (a.toNat = 0xF4 → b.toNat ≤ 143) := by
  rw [mayFollow, secondRange]
  split_ifs with h3 hs h4 hl
  all_goals
    simp only [← UInt8.toNat_inj, UInt8.reduceToNat] at *
    rw [between_iff]
    simp only [UInt8.reduceToNat]
    omega

/-- The byte for the next six bits may follow a first byte under the same conditions. -/
theorem mayFollow_ofNat {a n : Nat} (ha : a < 256) (hoverlong3 : a = 0xE0 → 32 ≤ n % 64)
    (hsurrogate : a = 0xED → n % 64 < 32) (hoverlong4 : a = 0xF0 → 16 ≤ n % 64)
    (hlast : a = 0xF4 → n % 64 < 16) :
    mayFollow (UInt8.ofNat a) (UInt8.ofNat (n % 64 + 128)) = true := by
  rw [mayFollow_iff, toNat_ofNat ha, toNat_ofNat (by omega)]
  omega

/-! ### Characters -/

variable (index : Nat) (rest : List UInt8)

theorem next_one {n : Nat} (hn : n < 128) :
    ∃ h, next index (UInt8.ofNat n :: rest) = .ok (some (Char.ofNat n, ⟨rest, h⟩)) := by
  have hbyte : (UInt8.ofNat n).toNat = n :=
    toNat_ofNat (by omega)
  refine ⟨Nat.lt_succ_self _, ?_⟩
  rw [next.eq_def]
  dsimp only
  rw [if_pos (UInt8.lt_iff_toNat_lt.2 (by rw [hbyte]; exact hn))]
  simp only [hbyte]

theorem next_two {n : Nat} (hlow : 128 ≤ n) (hhigh : n < 2048) :
    ∃ h, next index (UInt8.ofNat (n / 64 % 32 + 192) :: UInt8.ofNat (n % 64 + 128) :: rest) =
      .ok (some (Char.ofNat n, ⟨rest, h⟩)) := by
  have hbyte : (UInt8.ofNat (n / 64 % 32 + 192)).toNat = n / 64 % 32 + 192 :=
    toNat_ofNat (by omega)
  have hn : (n / 64 % 32 + 192) % 32 * 64 + n % 64 = n := by omega
  refine ⟨by simp only [List.length_cons]; omega, ?_⟩
  rw [next.eq_def]
  dsimp only
  rw [if_neg (by rw [UInt8.lt_iff_toNat_lt, hbyte]; simp),
    if_pos ((between_ofNat_iff (by omega)).2 ⟨show 194 ≤ _ by omega, show _ ≤ 223 by omega⟩)]
  simp only [isTail_ofNat, if_true, tailBits_ofNat, hbyte, hn]

theorem next_three {n : Nat} (hlow : 2048 ≤ n) (hhigh : n < 65536)
    (hsurrogate : n < 55296 ∨ 57343 < n) :
    ∃ h, next index (UInt8.ofNat (n / 4096 % 16 + 224) :: UInt8.ofNat (n / 64 % 64 + 128) ::
      UInt8.ofNat (n % 64 + 128) :: rest) = .ok (some (Char.ofNat n, ⟨rest, h⟩)) := by
  have hbyte : (UInt8.ofNat (n / 4096 % 16 + 224)).toNat = n / 4096 % 16 + 224 :=
    toNat_ofNat (by omega)
  have hn : ((n / 4096 % 16 + 224) % 16 * 64 + n / 64 % 64) * 64 + n % 64 = n := by omega
  have hfollow : mayFollow (UInt8.ofNat (n / 4096 % 16 + 224)) (UInt8.ofNat (n / 64 % 64 + 128))
      = true :=
    mayFollow_ofNat (by omega) (by omega) (by omega) (by omega) (by omega)
  refine ⟨by simp only [List.length_cons]; omega, ?_⟩
  rw [next.eq_def]
  dsimp only
  rw [if_neg (by rw [UInt8.lt_iff_toNat_lt, hbyte]; simp),
    if_neg (by rw [between_ofNat_iff (by omega)]; simp),
    if_pos ((between_ofNat_iff (by omega)).2 ⟨show 224 ≤ _ by omega, show _ ≤ 239 by omega⟩)]
  simp only [hfollow, isTail_ofNat, Bool.not_true, Bool.false_eq_true, if_false, if_true,
    tailBits_ofNat, hbyte, hn]

theorem next_four {n : Nat} (hlow : 65536 ≤ n) (hhigh : n < 1114112) :
    ∃ h, next index (UInt8.ofNat (n / 262144 % 8 + 240) :: UInt8.ofNat (n / 4096 % 64 + 128) ::
      UInt8.ofNat (n / 64 % 64 + 128) :: UInt8.ofNat (n % 64 + 128) :: rest) =
        .ok (some (Char.ofNat n, ⟨rest, h⟩)) := by
  have hbyte : (UInt8.ofNat (n / 262144 % 8 + 240)).toNat = n / 262144 % 8 + 240 :=
    toNat_ofNat (by omega)
  have hn : (((n / 262144 % 8 + 240) % 8 * 64 + n / 4096 % 64) * 64 + n / 64 % 64) * 64 + n % 64
      = n := by omega
  have hfollow : mayFollow (UInt8.ofNat (n / 262144 % 8 + 240))
      (UInt8.ofNat (n / 4096 % 64 + 128)) = true :=
    mayFollow_ofNat (by omega) (by omega) (by omega) (by omega) (by omega)
  refine ⟨by simp only [List.length_cons]; omega, ?_⟩
  rw [next.eq_def]
  dsimp only
  rw [if_neg (by rw [UInt8.lt_iff_toNat_lt, hbyte]; simp),
    if_neg (by rw [between_ofNat_iff (by omega)]; simp),
    if_neg (by rw [between_ofNat_iff (by omega)]; simp),
    if_pos ((between_ofNat_iff (by omega)).2 ⟨show 240 ≤ _ by omega, show _ ≤ 244 by omega⟩)]
  simp only [hfollow, isTail_ofNat, Bool.not_true, Bool.false_eq_true, if_false, if_true,
    tailBits_ofNat, hbyte, hn]

/-- **Reading takes off what writing put there.** -/
theorem next_encodeChar (c : Char) :
    ∃ h, next index (String.utf8EncodeChar c ++ rest) = .ok (some (c, ⟨rest, h⟩)) := by
  have hvalid : c.val.toNat < 55296 ∨ 57343 < c.val.toNat ∧ c.val.toNat < 1114112 := c.valid
  have hc : Char.ofNat c.val.toNat = c := Char.ofNat_toNat c
  -- the bytes get a name, since they occur in the type of what is left
  generalize hbytes : String.utf8EncodeChar c ++ rest = bytes
  rw [String.utf8EncodeChar] at hbytes
  generalize c.val.toNat = n at hvalid hc hbytes
  subst hc
  split_ifs at hbytes with h1 h2 h3 <;> subst hbytes
  · exact next_one index rest (by omega)
  · exact next_two index rest (by omega) (by omega)
  · exact next_three index rest (by omega) (by omega) (by omega)
  · exact next_four index rest (by omega) (by omega)

/-! ### Characters that were read -/

section Read

variable {a b c d : UInt8}

theorem toNat_val_ofNat {n : Nat} (h : n < 55296 ∨ 57343 < n ∧ n < 1114112) :
    (Char.ofNat n).val.toNat = n := by
  have hvalid : n.isValidChar := h
  rw [Char.ofNat, dif_pos hvalid]
  exact UInt32.toNat_ofNatLT ..

theorem ofNat_eq {n : Nat} (h : n = b.toNat) : UInt8.ofNat n = b := by
  rw [h, UInt8.ofNat_toNat]

theorem encodeChar_one (ha : a.toNat < 128) :
    String.utf8EncodeChar (Char.ofNat a.toNat) = [a] := by
  rw [String.utf8EncodeChar, toNat_val_ofNat (by omega), if_pos (by omega), ofNat_eq rfl]

theorem encodeChar_two (ha : 194 ≤ a.toNat ∧ a.toNat ≤ 223) (hb : isTail b = true) :
    String.utf8EncodeChar (Char.ofNat (a.toNat % 32 * 64 + tailBits b)) = [a, b] := by
  rw [isTail_iff] at hb
  rw [tailBits, String.utf8EncodeChar, toNat_val_ofNat (by omega), if_neg (by omega),
    if_pos (by omega), ofNat_eq (show _ = a.toNat by omega), ofNat_eq (show _ = b.toNat by omega)]

theorem encodeChar_three (ha : 224 ≤ a.toNat ∧ a.toNat ≤ 239) (hb : mayFollow a b = true)
    (hc : isTail c = true) :
    String.utf8EncodeChar (Char.ofNat ((a.toNat % 16 * 64 + tailBits b) * 64 + tailBits c)) =
      [a, b, c] := by
  rw [isTail_iff] at hc
  rw [mayFollow_iff] at hb
  rw [tailBits, tailBits, String.utf8EncodeChar, toNat_val_ofNat (by omega), if_neg (by omega),
    if_neg (by omega), if_pos (by omega), ofNat_eq (show _ = a.toNat by omega),
    ofNat_eq (show _ = b.toNat by omega), ofNat_eq (show _ = c.toNat by omega)]

theorem encodeChar_four (ha : 240 ≤ a.toNat ∧ a.toNat ≤ 244) (hb : mayFollow a b = true)
    (hc : isTail c = true) (hd : isTail d = true) :
    String.utf8EncodeChar (Char.ofNat
        (((a.toNat % 8 * 64 + tailBits b) * 64 + tailBits c) * 64 + tailBits d)) =
      [a, b, c, d] := by
  rw [isTail_iff] at hc hd
  rw [mayFollow_iff] at hb
  rw [tailBits, tailBits, tailBits, String.utf8EncodeChar, toNat_val_ofNat (by omega),
    if_neg (by omega), if_neg (by omega), if_neg (by omega), ofNat_eq (show _ = a.toNat by omega),
    ofNat_eq (show _ = b.toNat by omega), ofNat_eq (show _ = c.toNat by omega),
    ofNat_eq (show _ = d.toNat by omega)]

/-- **What reading takes off** is what writing the character puts there. -/
theorem eq_of_next {bytes : List UInt8}
    {taken : Option (Char × { r : List UInt8 // r.length < bytes.length })}
    (h : next index bytes = .ok taken) :
    bytes = taken.elim [] fun t ↦ String.utf8EncodeChar t.1 ++ t.2.val := by
  rw [next.eq_def] at h
  split at h
  · cases h
    rfl
  · next a rest' =>
    split_ifs at h with h1 h2 h3 h4
    · cases h
      rw [Option.elim_some, encodeChar_one (UInt8.lt_iff_toNat_lt.1 h1)]
      rfl
    · split at h
      · cases h
      · split_ifs at h with hb
        cases h
        rw [Option.elim_some, encodeChar_two (between_iff.1 h2) hb]
        rfl
    · split at h
      · cases h
      · split_ifs at h with hb
        split at h
        · cases h
        · split_ifs at h with hc
          cases h
          rw [Option.elim_some, encodeChar_three (between_iff.1 h3) (by simpa using hb) hc]
          rfl
    · split at h
      · cases h
      · split_ifs at h with hb
        split at h
        · cases h
        · split_ifs at h with hc
          split at h
          · cases h
          · split_ifs at h with hd
            cases h
            rw [Option.elim_some, encodeChar_four (between_iff.1 h4) (by simpa using hb)
              (by simpa using hc) hd]
            rfl

end Read

/-! ### Texts -/

theorem decodeFrom_encode (cs : List Char) : ∀ index, decodeFrom index (encode cs) = .ok cs := by
  induction cs with
  | nil =>
    intro index
    rw [decodeFrom]
    rfl
  | cons c rest ih =>
    intro index
    obtain ⟨h, hnext⟩ := next_encodeChar index (encode rest) c
    rw [decodeFrom, encode, List.flatMap_cons, ← encode, hnext]
    simp only [ih]

/-- **Bytes that were written** from a text are read as that text. -/
theorem decode_encode (cs : List Char) : decode (encode cs) = .ok cs :=
  decodeFrom_encode cs 0

theorem eq_encode_of_decodeFrom {index : Nat} {bytes : List UInt8} {cs : List Char}
    (h : decodeFrom index bytes = .ok cs) : bytes = encode cs := by
  induction index, bytes using decodeFrom.induct generalizing cs with
  | case1 index bytes fault hnext =>
    rw [decodeFrom, hnext] at h
    cases h
  | case2 index bytes hnext =>
    rw [decodeFrom, hnext] at h
    cases h
    exact eq_of_next index hnext
  | case3 index bytes c rest hlt hnext fault hrest ih =>
    rw [decodeFrom, hnext] at h
    simp only [hrest] at h
    cases h
  | case4 index bytes c rest hlt hnext more hrest ih =>
    rw [decodeFrom, hnext] at h
    simp only [hrest] at h
    cases h
    rw [encode, List.flatMap_cons, ← encode, ← ih hrest]
    exact eq_of_next index hnext

/-- **Exactly the bytes that a text is written in** are read as that text. -/
theorem decode_eq_ok_iff {bytes : List UInt8} {cs : List Char} :
    decode bytes = .ok cs ↔ bytes = encode cs := by
  constructor
  · exact eq_encode_of_decodeFrom
  · rintro rfl
    exact decode_encode cs

theorem encode_append (a b : List Char) : encode (a ++ b) = encode a ++ encode b :=
  List.flatMap_append

/-- The characters of ASCII are written in one byte each. -/
theorem encode_of_ascii {cs : List Char} (h : ∀ c ∈ cs, c.toNat < 128) :
    encode cs = cs.map fun c ↦ UInt8.ofNat c.toNat := by
  induction cs with
  | nil => rfl
  | cons c rest ih =>
    rw [List.forall_mem_cons] at h
    have hc : c.val.toNat ≤ 127 := Nat.le_of_lt_succ h.1
    rw [encode, List.flatMap_cons, ← encode, ih h.2, String.utf8EncodeChar, if_pos hc]
    rfl

end Text.Utf8

/-- **A file holds a text** exactly if its bytes are those in which the text is written. -/
theorem Files.text_eq_ok_iff {files : Files} {path : String} {content : List Char} :
    files.text path = .ok content ↔ files.bytes path = .ok (Text.Utf8.encode content) := by
  rw [Files.text]
  cases files.bytes path with
  | error e => exact ⟨fun h ↦ (by cases h), fun h ↦ by cases h⟩
  | ok bytes =>
    rw [Except.ok.injEq, ← Text.Utf8.decode_eq_ok_iff]
    dsimp only
    cases Text.Utf8.decode bytes with
    | error fault => exact ⟨fun h ↦ (by cases h), fun h ↦ by cases h⟩
    | ok cs => rw [Except.ok.injEq, Except.ok.injEq]

/-- A file whose bytes were written from a text holds that text. -/
theorem Files.text_of_bytes {files : Files} {path : String} {content : List Char}
    (h : files.bytes path = .ok (Text.Utf8.encode content)) : files.text path = .ok content :=
  text_eq_ok_iff.2 h

end Overlay
