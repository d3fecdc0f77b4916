import Mathlib.Tactic.Ring
import Overlay.Bytes.BitGroups

/-!
# Regrouped bits read back

Bits of a fixed width and numbers below that power of two are the same thing (`ofBits_bitsOf`,
`bitsOf_ofBits`), so symbols can be followed as groups of bits. Put behind one another the
groups give the bits of the bytes and fewer zeros than a symbol has bits
(`exists_bits_symbolsOfBytes`). If a symbol has at most eight bits, these zeros make no further
byte, and the bytes come back (`bytesOfSymbols?_symbolsOfBytes`).
-/

namespace Overlay.Bytes

/-! ### Numbers and their bits -/

@[simp] theorem length_bitsOf (width n : Nat) : (bitsOf width n).length = width := by
  induction width with
  | zero => rfl
  | succ width ih => rw [bitsOf, List.length_cons, ih]

theorem foldl_ofBits (bits : List Bool) (n : Nat) :
    bits.foldl (fun n b ↦ 2 * n + b.toNat) n = n * 2 ^ bits.length + ofBits bits := by
  induction bits generalizing n with
  | nil => simp [ofBits]
  | cons b rest ih =>
    rw [ofBits, List.foldl_cons, List.foldl_cons, ih, ih, List.length_cons, Nat.pow_succ]
    ring

theorem ofBits_cons (b : Bool) (bits : List Bool) :
    ofBits (b :: bits) = b.toNat * 2 ^ bits.length + ofBits bits := by
  rw [ofBits, List.foldl_cons, foldl_ofBits, Nat.mul_zero, Nat.zero_add]

theorem ofBits_lt (bits : List Bool) : ofBits bits < 2 ^ bits.length := by
  induction bits with
  | nil => exact Nat.one_pos
  | cons b rest ih =>
    have hb : b.toNat * 2 ^ rest.length ≤ 1 * 2 ^ rest.length :=
      Nat.mul_le_mul_right _ (Bool.toNat_le b)
    rw [ofBits_cons, List.length_cons, Nat.pow_succ]
    omega

theorem ofBits_bitsOf (width n : Nat) : ofBits (bitsOf width n) = n % 2 ^ width := by
  induction width with
  | zero => rw [Nat.pow_zero, Nat.mod_one]; rfl
  | succ width ih =>
    rw [bitsOf, ofBits_cons, length_bitsOf, ih, Nat.toNat_testBit, Nat.mod_pow_succ]
    ring

/-- Bits of the same width that give the same number are the same. -/
theorem eq_of_ofBits_eq {a b : List Bool} (hlength : a.length = b.length)
    (h : ofBits a = ofBits b) : a = b := by
  induction a generalizing b with
  | nil => exact (List.length_eq_zero_iff.1 hlength.symm).symm
  | cons x a ih =>
    cases b with
    | nil => cases hlength
    | cons y b =>
      have hwidth : a.length = b.length := Nat.succ.inj hlength
      have ha := ofBits_lt a
      have hb := ofBits_lt b
      rw [ofBits_cons, ofBits_cons, hwidth] at h
      rw [hwidth] at ha
      -- the first bits agree, since what follows them is less than what they count for
      have hfirst : x = y := by
        cases x <;> cases y <;> simp only [Bool.toNat_false, Bool.toNat_true, Nat.zero_mul,
          Nat.one_mul] at h <;> first | rfl | omega
      rw [hfirst, ih hwidth (by rw [hfirst] at h; exact Nat.add_left_cancel h)]

theorem bitsOf_ofBits {width : Nat} {bits : List Bool} (h : bits.length = width) :
    bitsOf width (ofBits bits) = bits := by
  refine eq_of_ofBits_eq (by rw [length_bitsOf, h]) ?_
  rw [ofBits_bitsOf, ← h, Nat.mod_eq_of_lt (ofBits_lt bits)]

/-! ### Groups -/

section Groups

variable {α : Type} {width : Nat}

@[simp] theorem groups_nil : groups width ([] : List α) = [] := by
  rw [groups, dif_pos (Or.inr rfl)]

theorem groups_of_ne_nil (hwidth : 0 < width) {xs : List α} (hxs : xs ≠ []) :
    groups width xs = xs.take width :: groups width (xs.drop width) := by
  rw [groups, dif_neg fun h ↦ h.elim (Nat.ne_of_gt hwidth) hxs]

/-- **A full group** is cut off. -/
theorem groups_append (hwidth : 0 < width) {xs : List α} (hxs : xs.length = width)
    (ys : List α) : groups width (xs ++ ys) = xs :: groups width ys := by
  have hne : xs ++ ys ≠ [] := List.append_ne_nil_of_left_ne_nil
    (List.ne_nil_of_length_pos (by rw [hxs]; exact hwidth)) ys
  rw [groups_of_ne_nil hwidth hne, List.take_left' hxs, List.drop_left' hxs]

/-- Filled up and put behind one another, groups give the elements and then what the last
group was filled with. -/
theorem exists_flatMap_groups (hwidth : 0 < width) (x : α) (xs : List α) :
    ∃ n < width, (groups width xs).flatMap (fun g ↦ g ++ List.replicate (width - g.length) x) =
      xs ++ List.replicate n x := by
  fun_induction groups width xs with
  | case1 xs h =>
    obtain rfl : xs = [] := h.resolve_left (Nat.ne_of_gt hwidth)
    exact ⟨0, hwidth, rfl⟩
  | case2 xs h ih =>
    by_cases hlast : xs.length ≤ width
    · have hpos : 0 < xs.length :=
        List.length_pos_iff.2 fun hxs ↦ h (Or.inr hxs)
      refine ⟨width - xs.length, by omega, ?_⟩
      rw [List.flatMap_cons, List.take_of_length_le hlast, List.drop_eq_nil_of_le hlast,
        groups_nil, List.flatMap_nil, List.append_nil]
    · obtain ⟨n, hn, hrest⟩ := ih
      have hlength : (xs.take width).length = min width xs.length := List.length_take
      refine ⟨n, hn, ?_⟩
      rw [List.flatMap_cons, hrest, show width - (xs.take width).length = 0 by omega,
        List.replicate_zero, List.append_nil, ← List.append_assoc, List.take_append_drop]

theorem length_le_of_mem_groups {xs g : List α} (h : g ∈ groups width xs) :
    g.length ≤ width := by
  fun_induction groups width xs with
  | case1 => cases h
  | case2 xs hxs ih =>
    rcases List.mem_cons.1 h with rfl | hmem
    · exact List.length_take_le width xs
    · exact ih hmem

/-- Filled up, every group has the width. -/
theorem length_of_mem_groups {xs g : List α} (h : g ∈ groups width xs) (x : α) :
    (g ++ List.replicate (width - g.length) x).length = width := by
  rw [List.length_append, List.length_replicate, Nat.add_sub_cancel' (length_le_of_mem_groups h)]

end Groups

/-! ### Bytes and symbols -/

/-- The bits of bytes, one byte after another. -/
def bitsOfBytes (bytes : List UInt8) : List Bool := bytes.flatMap fun b ↦ bitsOf 8 b.toNat

theorem length_bitsOfBytes (bytes : List UInt8) :
    (bitsOfBytes bytes).length = bytes.length * 8 := by
  induction bytes with
  | nil => rfl
  | cons b rest ih =>
    rw [bitsOfBytes, List.flatMap_cons, ← bitsOfBytes, List.length_append, ih, length_bitsOf,
      List.length_cons]
    ring

/-- Cut into groups of eight, the bits of bytes are the bytes. -/
theorem map_groups_bitsOfBytes (bytes : List UInt8) :
    (groups 8 (bitsOfBytes bytes)).map (fun g ↦ UInt8.ofNat (ofBits g)) = bytes := by
  induction bytes with
  | nil => rw [bitsOfBytes, List.flatMap_nil, groups_nil, List.map_nil]
  | cons b rest ih =>
    rw [bitsOfBytes, List.flatMap_cons, ← bitsOfBytes,
      groups_append (by decide) (length_bitsOf 8 b.toNat), List.map_cons, ih, ofBits_bitsOf,
      Nat.mod_eq_of_lt b.toNat_lt, UInt8.ofNat_toNat]

variable {width : Nat}

/-- **Symbols carry the bits of the bytes** and then fewer zeros than one of them has bits. -/
theorem exists_bits_symbolsOfBytes (hwidth : 0 < width) (bytes : List UInt8) :
    ∃ n < width, (symbolsOfBytes width bytes).flatMap (bitsOf width) =
      bitsOfBytes bytes ++ List.replicate n false := by
  obtain ⟨n, hn, hfill⟩ := exists_flatMap_groups hwidth false (bitsOfBytes bytes)
  refine ⟨n, hn, ?_⟩
  rw [← hfill, symbolsOfBytes, List.flatMap_map, List.flatMap_def, List.flatMap_def]
  exact congrArg List.flatten (List.map_congr_left fun g hg ↦
    bitsOf_ofBits (length_of_mem_groups hg false))

/-- A symbol is a number of `width` bits. -/
theorem lt_of_mem_symbolsOfBytes {bytes : List UInt8} {v : Nat}
    (h : v ∈ symbolsOfBytes width bytes) : v < 2 ^ width := by
  rw [symbolsOfBytes] at h
  obtain ⟨g, hg, rfl⟩ := List.mem_map.1 h
  have hlt := ofBits_lt (g ++ List.replicate (width - g.length) false)
  rwa [length_of_mem_groups hg] at hlt

/-- So the number of symbols is the least that has room for the bits of the bytes. -/
theorem exists_length_symbolsOfBytes (hwidth : 0 < width) (bytes : List UInt8) :
    ∃ n < width, (symbolsOfBytes width bytes).length * width = bytes.length * 8 + n := by
  obtain ⟨n, hn, hbits⟩ := exists_bits_symbolsOfBytes hwidth bytes
  have hlength := congrArg List.length hbits
  refine ⟨n, hn, ?_⟩
  rwa [List.length_flatMap, List.map_congr_left fun v _ ↦ length_bitsOf width v,
    List.map_const', List.sum_replicate_nat, List.length_append, length_bitsOfBytes,
    List.length_replicate] at hlength

/-- **What was regrouped is found again**, as long as zeros that fill a symbol cannot make a
further byte. -/
theorem bytesOfSymbols?_symbolsOfBytes (hwidth : 0 < width) (hbyte : width ≤ 8)
    (bytes : List UInt8) : bytesOfSymbols? width (symbolsOfBytes width bytes) = some bytes := by
  obtain ⟨n, hn, hbits⟩ := exists_bits_symbolsOfBytes hwidth bytes
  have hlength := length_bitsOfBytes bytes
  have hused : (bitsOfBytes bytes ++ List.replicate n false).length / 8 * 8 =
      (bitsOfBytes bytes).length := by
    rw [List.length_append, List.length_replicate]
    omega
  have hzero : (List.replicate n false).length < width ∧ (List.replicate n false).all (! ·) := by
    refine ⟨by rwa [List.length_replicate], List.all_eq_true.2 fun b hb ↦ ?_⟩
    rw [List.eq_of_mem_replicate hb]
    rfl
  rw [bytesOfSymbols?]
  simp only [hbits, hused, List.drop_left, List.take_left, map_groups_bitsOfBytes]
  exact if_pos hzero

end Overlay.Bytes
