import Mathlib.Data.List.DropRight
import Overlay.Text.Blank

/-!
# Trimming

A text is trimmed by dropping white space from the left and then from the right, so what is
known of `dropWhile` and `rdropWhile` is all that is needed: white space at the ends of a text
makes no difference (`trimChars_pad`), and a text whose ends are not blank stays as it is
(`trimChars_of_ends`). Trimming is idempotent because the right end is trimmed without a new
left end coming up.
-/

namespace Overlay.Text

/-- A text of white space only. -/
def IsBlank (s : List Char) : Prop := ∀ c ∈ s, isBlank c = true

instance (s : List Char) : Decidable (IsBlank s) :=
  decidable_of_iff (s.all isBlank = true) List.all_eq_true

theorem trimChars_eq (s : List Char) :
    trimChars s = (s.dropWhile isBlank).rdropWhile isBlank := rfl

theorem trimChars_eq_nil_iff {s : List Char} : trimChars s = [] ↔ IsBlank s := by
  rw [trimChars_eq, List.rdropWhile_eq_nil_iff]
  constructor
  · intro h c hc
    by_cases hdrop : s.dropWhile isBlank = []
    · exact List.dropWhile_eq_nil_iff.1 hdrop c hc
    · have hhead := List.head_dropWhile_not isBlank hdrop
      rw [h _ (List.head_mem hdrop)] at hhead
      cases hhead
  · intro h c hc
    exact h c ((List.dropWhile_sublist isBlank).subset hc)

/-- White space on the left makes no difference. -/
theorem trimChars_append_left {w : List Char} (hw : IsBlank w) (s : List Char) :
    trimChars (w ++ s) = trimChars s := by
  rw [trimChars_eq, List.dropWhile_append_of_pos hw, trimChars_eq]

/-- White space on the right makes no difference. -/
theorem trimChars_append_right (s : List Char) {w : List Char} (hw : IsBlank w) :
    trimChars (s ++ w) = trimChars s := by
  rw [trimChars_eq, trimChars_eq, List.dropWhile_append]
  split
  · next hnil =>
    -- nothing is left of the text itself, so nothing is left at all
    have hdrop : w.dropWhile isBlank = [] := List.dropWhile_eq_nil_iff.2 hw
    rw [hdrop, List.isEmpty_iff.1 hnil]
  · rw [List.rdropWhile, List.reverse_append,
      List.dropWhile_append_of_pos fun c hc ↦ hw c (List.mem_reverse.1 hc), List.rdropWhile]

/-- **White space around a text** makes no difference. -/
theorem trimChars_pad {before after : List Char} (hbefore : IsBlank before) (s : List Char)
    (hafter : IsBlank after) : trimChars (before ++ s ++ after) = trimChars s := by
  rw [trimChars_append_right _ hafter, trimChars_append_left hbefore]

/-- **A text that neither begins nor ends with white space** is left alone. -/
theorem trimChars_of_ends {s : List Char} (hfirst : ∀ c ∈ s.head?, isBlank c = false)
    (hlast : ∀ c ∈ s.getLast?, isBlank c = false) : trimChars s = s := by
  have hdrop : s.dropWhile isBlank = s := by
    cases s with
    | nil => rfl
    | cons c rest => exact List.dropWhile_cons_of_neg (by simp [hfirst c rfl])
  rw [trimChars_eq, hdrop, List.rdropWhile_eq_self_iff]
  intro hne
  simp [hlast _ (List.getLast_mem_getLast? hne)]

/-- A text without any white space is left alone. -/
theorem trimChars_of_forall {s : List Char} (h : ∀ c ∈ s, isBlank c = false) :
    trimChars s = s :=
  trimChars_of_ends (fun c hc ↦ h c (List.mem_of_head? hc))
    fun c hc ↦ h c (List.mem_of_getLast? hc)

/-- Trimming from the right brings up no new left end. -/
theorem head?_rdropWhile {s : List Char} {c : Char} (hc : isBlank c = false)
    (hs : s.head? = some c) : (s.rdropWhile isBlank).head? = some c := by
  obtain ⟨dropped, hdropped⟩ := List.rdropWhile_prefix isBlank s
  cases hleft : s.rdropWhile isBlank with
  | nil =>
    have hblank := List.rdropWhile_eq_nil_iff.1 hleft c (List.mem_of_head? hs)
    rw [hc] at hblank
    cases hblank
  | cons d rest =>
    rw [hleft] at hdropped
    rwa [← hdropped] at hs

/-- A text that does not begin with white space begins with the same character when trimmed. -/
theorem head?_trimChars_cons {c : Char} (hc : isBlank c = false) (s : List Char) :
    (trimChars (c :: s)).head? = some c := by
  rw [trimChars_eq, List.dropWhile_cons_of_neg (by simp [hc])]
  exact head?_rdropWhile hc rfl

/-- **Trimming is idempotent.** -/
theorem trimChars_trimChars (s : List Char) : trimChars (trimChars s) = trimChars s := by
  have hdrop : (trimChars s).dropWhile isBlank = trimChars s := by
    cases hs : s.dropWhile isBlank with
    | nil => rw [trimChars_eq, hs]; rfl
    | cons c rest =>
      have hc : isBlank c = false := by
        have hhead := List.head?_dropWhile_not isBlank s
        rwa [hs] at hhead
      have htrim : (trimChars s).head? = some c := by
        rw [trimChars_eq]
        exact head?_rdropWhile hc (congrArg List.head? hs)
      obtain ⟨more, hmore⟩ := List.head?_eq_some_iff.1 htrim
      rw [hmore, List.dropWhile_cons_of_neg (by simp [hc])]
  rw [trimChars_eq, hdrop, trimChars_eq, List.rdropWhile_idempotent]

end Overlay.Text
