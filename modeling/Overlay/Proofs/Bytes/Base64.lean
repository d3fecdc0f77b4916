import Overlay.Bytes.Base64
import Overlay.Proofs.Bytes.BitGroups
import Overlay.Proofs.Text.Utf8
import Overlay.Text.Blank

/-!
# Base 64 reads what it writes

A written text is the signs of the symbols and up to two padding signs, so its length is a
multiple of four and the last group is its last four signs. What has to be known of the signs
holds of each of the 64 (`sign_spec`): a sign is one byte, it is read as its symbol, and it is
no padding. With that the front of a text is read sign by sign (`frontValues_signs`), the last
group as well (`tail_signs`), and what the symbols carry is the bytes that were written
(`decode_encode`).
-/

namespace Overlay.Bytes.Base64

/-! ### Signs -/

/-- The sign of a symbol. -/
def sign (v : Nat) : Char := BitBase.base64.symbols.getD v '?'

/-- The byte of a sign. -/
def signByte (v : Nat) : UInt8 := UInt8.ofNat (sign v).toNat

theorem sign_spec : ∀ v < 64, (sign v).toNat < 128 ∧ value? (signByte v) = some v ∧
    signByte v ≠ padding ∧ Text.isBlank (sign v) = false := by
  decide +kernel

/-! ### Written texts -/

/-- How many padding signs follow so many signs. -/
def padCount (length : Nat) : Nat := (4 - length % 4) % 4

theorem toList_encode (bytes : List UInt8) :
    (encode bytes).toList = (symbolsOfBytes 6 bytes).map sign ++
      List.replicate (padCount (symbolsOfBytes 6 bytes).length) '=' := by
  rw [encode, String.toList_ofList, BitBase.encode, BitBase.pad]
  show _ ++ List.replicate ((4 - _ % 4) % 4) '=' = _
  rw [List.length_map]
  rfl

theorem lt_64_of_mem {bytes : List UInt8} {v : Nat} (h : v ∈ symbolsOfBytes 6 bytes) : v < 64 :=
  lt_of_mem_symbolsOfBytes h

/-- The bytes of a written text. -/
theorem utf8_encode (bytes : List UInt8) :
    Text.Utf8.encode (encode bytes).toList = (symbolsOfBytes 6 bytes).map signByte ++
      List.replicate (padCount (symbolsOfBytes 6 bytes).length) padding := by
  have hsigns : ∀ c ∈ (symbolsOfBytes 6 bytes).map sign, c.toNat < 128 := fun c hc ↦ by
    obtain ⟨v, hv, rfl⟩ := List.mem_map.1 hc
    exact (sign_spec v (lt_64_of_mem hv)).1
  have hpads : ∀ c ∈ List.replicate (padCount (symbolsOfBytes 6 bytes).length) '=',
      c.toNat < 128 := fun c hc ↦ by
    rw [List.eq_of_mem_replicate hc]
    decide
  rw [toList_encode, Text.Utf8.encode_append, Text.Utf8.encode_of_ascii hsigns,
    Text.Utf8.encode_of_ascii hpads, List.map_map, List.map_replicate]
  rfl

/-- No sign is white space. -/
theorem not_blank_of_mem_encode {bytes : List UInt8} {c : Char}
    (h : c ∈ (encode bytes).toList) : Text.isBlank c = false := by
  rw [toList_encode] at h
  rcases List.mem_append.1 h with hsign | hpad
  · obtain ⟨v, hv, rfl⟩ := List.mem_map.1 hsign
    exact (sign_spec v (lt_64_of_mem hv)).2.2.2
  · rw [List.eq_of_mem_replicate hpad]
    rfl

theorem toList_encode_ne_nil {bytes : List UInt8} (h : bytes ≠ []) :
    (encode bytes).toList ≠ [] := by
  obtain ⟨n, hn, hlength⟩ := exists_length_symbolsOfBytes (show 0 < 6 by decide) bytes
  have hbytes := List.length_pos_iff.2 h
  intro hnil
  rw [toList_encode, List.append_eq_nil_iff, List.map_eq_nil_iff] at hnil
  rw [hnil.1, List.length_nil] at hlength
  omega

/-! ### Reading -/

theorem frontValues_signs {vs : List Nat} (h : ∀ v ∈ vs, v < 64) (offset : Nat) :
    frontValues offset (vs.map signByte) = .ok vs := by
  induction vs generalizing offset with
  | nil => rfl
  | cons v rest ih =>
    rw [List.forall_mem_cons] at h
    rw [List.map_cons, frontValues, (sign_spec v h.1).2.1, ih h.2]
    rfl

theorem padsOnly_replicate (first n : Nat) : padsOnly first (List.replicate n padding) = .ok n := by
  induction n with
  | zero => rfl
  | succ n ih => rw [List.replicate_succ, padsOnly, if_pos rfl, ih]; rfl

/-- The last group is its signs and then its padding, which begins where it may. -/
theorem tail_signs {vs : List Nat} (h : ∀ v ∈ vs, v < 64) (start position pads : Nat)
    (hpads : pads = 0 ∨ 2 ≤ position + vs.length) :
    tail start position (vs.map signByte ++ List.replicate pads padding) = .ok ⟨vs, pads⟩ := by
  induction vs generalizing position with
  | nil =>
    cases pads with
    | zero => rfl
    | succ n =>
      have hposition : ¬ position < 2 := by simp at hpads; omega
      rw [List.map_nil, List.nil_append, List.replicate_succ, tail, if_pos rfl, if_neg hposition,
        ← List.replicate_succ, padsOnly_replicate]
      rfl
  | cons v rest ih =>
    rw [List.forall_mem_cons] at h
    have hv := sign_spec v h.1
    rw [List.map_cons, List.cons_append, tail, if_neg hv.2.2.1, hv.2.1,
      ih h.2 (position + 1) (by rw [List.length_cons] at hpads; omega)]
    rfl

/-- **What it takes for a text of whole groups to be read**: a front of signs, a last group of
two or more signs and padding, and symbols that carry bytes. -/
theorem decode_of_parts {text : List UInt8} {front : List Nat} {t : Tail} {bytes : List UInt8}
    (hpos : 0 < text.length) (hmod : text.length % 4 = 0)
    (hfront : frontValues 0 (text.take (text.length - 4)) = .ok front)
    (htail : tail (text.length - 4) 0 (text.drop (text.length - 4)) = .ok t)
    (hsigns : 2 ≤ t.values.length) (hpads : (t.values.length + t.pads) % 4 = 0)
    (hbytes : bytesOfSymbols? 6 (front ++ t.values) = some bytes) : decode text = .ok bytes := by
  have hstart : lastGroup text.length = text.length - 4 := if_pos hmod
  have hsigns' : ¬ t.values.length < 2 := Nat.not_lt.2 hsigns
  have hwhole (b : UInt8) : ¬ (text.length % 4 = 1 ∧ b ≠ padding ∧ value? b = none) := by
    rw [hmod]
    exact fun h ↦ absurd h.1 (by decide)
  rw [decode, if_neg (Nat.ne_of_gt hpos), hstart]
  simp only [hwhole, if_false, hfront, htail, bind, Except.bind, hsigns', hpads, ne_eq, not_true,
    hbytes]
  cases text.getLast? <;> rfl

/-- The symbols of bytes never leave a single one for the last group. -/
theorem length_symbols_mod (bytes : List UInt8) : (symbolsOfBytes 6 bytes).length % 4 ≠ 1 := by
  obtain ⟨n, hn, hlength⟩ := exists_length_symbolsOfBytes (show 0 < 6 by decide) bytes
  omega

/-- **Base 64 finds the bytes again** that it was written from. -/
theorem decode_encode (bytes : List UInt8) :
    decode (Text.Utf8.encode (encode bytes).toList) = .ok bytes := by
  have hbytes := bytesOfSymbols?_symbolsOfBytes (show 0 < 6 by decide) (by decide) bytes
  have hmod := length_symbols_mod bytes
  have hlt : ∀ v ∈ symbolsOfBytes 6 bytes, v < 64 := fun v hv ↦ lt_64_of_mem hv
  rw [utf8_encode]
  generalize symbolsOfBytes 6 bytes = symbols at *
  rcases Nat.eq_zero_or_pos symbols.length with hzero | hpos
  · obtain rfl := List.length_eq_zero_iff.1 hzero
    have hnil : bytesOfSymbols? 6 [] = some [] := by decide +kernel
    rw [hnil] at hbytes
    rw [← Option.some.inj hbytes]
    rfl
  · generalize hpads : padCount symbols.length = pads
    rw [padCount] at hpads
    generalize hwritten : symbols.map signByte ++ List.replicate pads padding = text
    have hlength : text.length = symbols.length + pads := by
      rw [← hwritten, List.length_append, List.length_map, List.length_replicate]
    have hback : (symbols.drop (text.length - 4)).length = 4 - pads := by
      rw [List.length_drop]
      omega
    have hfront : frontValues 0 (text.take (text.length - 4)) =
        .ok (symbols.take (text.length - 4)) := by
      rw [← hwritten, List.take_append_of_le_length (by rw [hwritten, List.length_map]; omega),
        ← List.map_take, hwritten]
      exact frontValues_signs (fun v hv ↦ hlt v (List.mem_of_mem_take hv)) 0
    have htail : tail (text.length - 4) 0 (text.drop (text.length - 4)) =
        .ok ⟨symbols.drop (text.length - 4), pads⟩ := by
      rw [← hwritten, List.drop_append_of_le_length (by rw [hwritten, List.length_map]; omega),
        ← List.map_drop, hwritten]
      exact tail_signs (fun v hv ↦ hlt v (List.mem_of_mem_drop hv)) _ 0 pads (by omega)
    refine decode_of_parts ?_ ?_ hfront htail ?_ ?_ ?_
    · omega
    · omega
    · show 2 ≤ (symbols.drop (text.length - 4)).length
      omega
    · show ((symbols.drop (text.length - 4)).length + pads) % 4 = 0
      omega
    · rwa [List.take_append_drop]

end Overlay.Bytes.Base64
