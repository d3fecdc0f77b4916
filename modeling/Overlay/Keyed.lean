/-!
# Values by key

A list of pairs that holds at most one value for each key. A key keeps its place when its
value is replaced, and a new key goes to the end.
-/

namespace Overlay.Keyed

variable {κ α : Type} [DecidableEq κ]

/-- The value of a key. -/
def find? (key : κ) : List (κ × α) → Option α
  | [] => none
  | (k, v) :: rest => if k = key then some v else find? key rest

/-- Replaces the value of a key, or adds the key at the end. -/
def put (key : κ) (value : α) : List (κ × α) → List (κ × α)
  | [] => [(key, value)]
  | (k, v) :: rest => if k = key then (k, value) :: rest else (k, v) :: put key value rest

/-- Removes a key. -/
def remove (key : κ) (entries : List (κ × α)) : List (κ × α) :=
  entries.filter fun e ↦ e.1 ≠ key

@[simp] theorem find?_put_self (key : κ) (value : α) (entries : List (κ × α)) :
    find? key (put key value entries) = some value := by
  induction entries with
  | nil => simp [put, find?]
  | cons e rest ih => by_cases h : e.1 = key <;> simp [put, find?, h, ih]

theorem find?_put_of_ne {key other : κ} (h : other ≠ key) (value : α)
    (entries : List (κ × α)) : find? other (put key value entries) = find? other entries := by
  induction entries with
  | nil => simp [put, find?, Ne.symm h]
  | cons e rest ih =>
    by_cases hk : e.1 = key
    · have : ¬ e.1 = other := fun ho ↦ h (ho ▸ hk)
      simp [put, find?, hk, Ne.symm h]
    · by_cases ho : e.1 = other
      · simp [put, find?, ho, h]
      · simp [put, find?, hk, ho, ih]

/-- What is there after a value was put in is this value, or was there before. -/
theorem mem_put {key : κ} {value : α} {entries : List (κ × α)} {e : κ × α}
    (h : e ∈ put key value entries) : e = (key, value) ∨ e ∈ entries := by
  induction entries with
  | nil => exact .inl (List.mem_singleton.1 h)
  | cons first rest ih =>
    rw [put] at h
    split at h
    · next hkey =>
      rcases List.mem_cons.1 h with rfl | hrest
      · exact .inl (congrArg (·, value) hkey)
      · exact .inr (List.mem_cons_of_mem _ hrest)
    · rcases List.mem_cons.1 h with rfl | hrest
      · exact .inr List.mem_cons_self
      · exact (ih hrest).imp_right (List.mem_cons_of_mem _)

theorem mem_of_find? {key : κ} {value : α} {entries : List (κ × α)}
    (h : find? key entries = some value) : (key, value) ∈ entries := by
  induction entries with
  | nil => cases h
  | cons first rest ih =>
    rw [find?] at h
    split at h
    · next hkey =>
      cases h
      exact hkey ▸ List.mem_cons_self
    · exact List.mem_cons_of_mem _ (ih h)

theorem remove_subset (key : κ) (entries : List (κ × α)) : remove key entries ⊆ entries :=
  fun _ h ↦ (List.mem_filter.1 h).1

/-- What the keys are after a value was put in. -/
theorem map_fst_put (key : κ) (value : α) (entries : List (κ × α)) :
    (put key value entries).map Prod.fst =
      if key ∈ entries.map Prod.fst then entries.map Prod.fst
      else entries.map Prod.fst ++ [key] := by
  induction entries with
  | nil => rfl
  | cons e rest ih =>
    by_cases h : e.1 = key
    · simp [put, h]
    · simp only [put, h, if_false, List.map_cons, ih, List.mem_cons, Ne.symm h, false_or]
      split <;> rfl

theorem nodup_keys_put {entries : List (κ × α)} (h : (entries.map Prod.fst).Nodup) (key : κ)
    (value : α) : ((put key value entries).map Prod.fst).Nodup := by
  rw [map_fst_put]
  split
  · exact h
  · next hnew =>
    refine List.nodup_append.2 ⟨h, List.pairwise_singleton _ _, ?_⟩
    rintro k hk _ hkey rfl
    exact hnew (List.mem_singleton.1 hkey ▸ hk)

theorem isSome_find?_iff (key : κ) (entries : List (κ × α)) :
    (find? key entries).isSome ↔ key ∈ entries.map Prod.fst := by
  induction entries with
  | nil => simp [find?]
  | cons e rest ih =>
    by_cases h : e.1 = key
    · simp [find?, h]
    · simp [find?, h, Ne.symm h, ih]

/-- Where no key is there twice, to find a value is to have it. -/
theorem find?_eq_some_iff_mem {entries : List (κ × α)} (h : (entries.map Prod.fst).Nodup)
    (key : κ) (value : α) : find? key entries = some value ↔ (key, value) ∈ entries := by
  induction entries with
  | nil => simp [find?]
  | cons e rest ih =>
    obtain ⟨k, v⟩ := e
    obtain ⟨hfresh, hrest⟩ := List.nodup_cons.1 h
    by_cases hk : k = key
    · subst hk
      have hnot : (k, value) ∉ rest := fun hmem ↦ hfresh (List.mem_map.2 ⟨_, hmem, rfl⟩)
      simp [find?, hnot, eq_comm]
    · simp [find?, hk, Ne.symm hk, ih hrest]

@[simp] theorem find?_remove_self (key : κ) (entries : List (κ × α)) :
    find? key (remove key entries) = none := by
  induction entries with
  | nil => rfl
  | cons e rest ih =>
    by_cases h : e.1 = key
    · simpa [remove, h] using ih
    · simp only [remove, ne_eq, decide_not, List.filter_cons, h, decide_false, Bool.not_false,
        ↓reduceIte, find?]
      simpa [remove] using ih

theorem find?_eq_none_iff (key : κ) (entries : List (κ × α)) :
    find? key entries = none ↔ key ∉ entries.map Prod.fst := by
  rw [← isSome_find?_iff, Option.not_isSome_iff_eq_none]

theorem remove_of_notMem {key : κ} {entries : List (κ × α)} (h : key ∉ entries.map Prod.fst) :
    remove key entries = entries := by
  refine List.filter_eq_self.2 fun e he ↦ decide_eq_true ?_
  rintro rfl
  exact h (List.mem_map_of_mem he)

theorem remove_cons_self (key : κ) (value : α) (rest : List (κ × α)) :
    remove key ((key, value) :: rest) = remove key rest :=
  List.filter_cons_of_neg (by simp)

theorem remove_cons_of_ne {key k : κ} (h : k ≠ key) (value : α) (rest : List (κ × α)) :
    remove key ((k, value) :: rest) = (k, value) :: remove key rest :=
  List.filter_cons_of_pos (decide_eq_true h)

/-- A new key goes to the end. -/
theorem put_of_notMem {key : κ} {entries : List (κ × α)} (h : key ∉ entries.map Prod.fst)
    (value : α) : put key value entries = entries ++ [(key, value)] := by
  induction entries with
  | nil => rfl
  | cons e rest ih =>
    rw [List.map_cons, List.mem_cons, not_or] at h
    obtain ⟨hne, hrest⟩ := h
    rw [put, if_neg (Ne.symm hne), ih hrest]
    rfl

theorem perm_put_of_notMem {key : κ} {entries : List (κ × α)} (h : key ∉ entries.map Prod.fst)
    (value : α) : (put key value entries).Perm ((key, value) :: entries) := by
  rw [put_of_notMem h]
  exact List.perm_append_singleton _ _

/-- Removing a key takes its one entry away and nothing else. -/
theorem perm_remove {entries : List (κ × α)} (h : (entries.map Prod.fst).Nodup) {key : κ}
    {value : α} (hfind : find? key entries = some value) :
    entries.Perm ((key, value) :: remove key entries) := by
  induction entries with
  | nil => cases hfind
  | cons e rest ih =>
    obtain ⟨k, v⟩ := e
    obtain ⟨hnew, hrest⟩ := List.nodup_cons.1 h
    rw [find?] at hfind
    split at hfind
    · next hk =>
      subst hk
      cases hfind
      rw [remove_cons_self, remove_of_notMem hnew]
    · next hk =>
      rw [remove_cons_of_ne hk]
      exact ((ih hrest hfind).cons _).trans (.swap ..)

/-- Putting a value in adds one entry to those of other keys. -/
theorem perm_put {entries : List (κ × α)} (h : (entries.map Prod.fst).Nodup) (key : κ)
    (value : α) : (put key value entries).Perm ((key, value) :: remove key entries) := by
  induction entries with
  | nil => exact .refl _
  | cons e rest ih =>
    obtain ⟨k, v⟩ := e
    obtain ⟨hnew, hrest⟩ := List.nodup_cons.1 h
    rw [put]
    split
    · next hk =>
      subst hk
      rw [remove_cons_self, remove_of_notMem hnew]
    · next hk =>
      rw [remove_cons_of_ne hk]
      exact ((ih hrest).cons _).trans (.swap ..)

/-- The entries of a key, of which there is at most one. -/
theorem filter_key {entries : List (κ × α)} (h : (entries.map Prod.fst).Nodup) (key : κ) :
    entries.filter (fun e ↦ e.1 = key) = ((find? key entries).map (key, ·)).toList := by
  induction entries with
  | nil => rfl
  | cons e rest ih =>
    obtain ⟨k, v⟩ := e
    obtain ⟨hnew, hrest⟩ := List.nodup_cons.1 h
    rw [find?]
    split
    · next hk =>
      subst hk
      have hnone : rest.filter (fun e ↦ e.1 = k) = [] := by
        rw [ih hrest, (find?_eq_none_iff k rest).2 hnew]
        rfl
      rw [List.filter_cons_of_pos (by simp), hnone]
      rfl
    · next hk => rw [List.filter_cons_of_neg (by simpa using hk), ih hrest]

end Overlay.Keyed
