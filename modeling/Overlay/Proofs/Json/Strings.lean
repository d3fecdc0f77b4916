import Overlay.Proofs.Json.Grammar

/-!
# JSON texts of strings read back

An array that was written denotes its items: the escape of a character is one of its spellings
(`spelling_escape`), so what is put between quotation marks is a literal (`writes_quote`); and the
items of an array are literals with commas between them, each on a line of its own (`cut_lines`).
So it is read back, whatever white space follows it (`stringArray?_prettyArray`).
-/

namespace Overlay.Json

/-! ### Literals -/

/-- The digits that escape a control character name its number. -/
theorem unit?_digits : ∀ n < 0x20,
    unit? '0' '0' (Bytes.Hex.digit ((UInt8.ofNat n).toNat / 16))
      (Bytes.Hex.digit (UInt8.ofNat n).toNat) = some n := by
  decide

/-- **An escape is a spelling** of the character that it was written for. -/
theorem spelling_escape (c : Char) : Spelling c (escape c) := by
  unfold escape
  split
  · exact .letter rfl
  · exact .letter rfl
  · exact .letter rfl
  · exact .letter rfl
  · exact .letter rfl
  · exact .letter rfl
  · exact .letter rfl
  · next hquote hslash _ _ _ _ _ =>
    split
    · next hcontrol =>
      -- the number is below the surrogates
      have hunit := Spelling.unit (unit?_digits c.toNat hcontrol) (by omega)
      rwa [Char.ofNat_toNat] at hunit
    · next hcontrol => exact .plain hcontrol hquote hslash

theorem body_escapes (cs : List Char) : Body cs (cs.flatMap escape) := by
  induction cs with
  | nil => exact .nil
  | cons c rest ih =>
    rw [List.flatMap_cons]
    exact .cons (spelling_escape c) ih

/-- **A literal is one token.** -/
theorem writes_quote (s : String) : Writes (.text s.toList) (quote s).toList := by
  rw [quote, String.toList_ofList]
  exact .literal (body_escapes s.toList)

/-! ### Arrays -/

theorem Cut.spaces {space text : List Char} {tokens : List Token}
    (hspace : space.all isSpace = true) (h : Cut tokens text) : Cut tokens (space ++ text) := by
  induction space with
  | nil => exact h
  | cons c rest ih =>
    rw [List.all_cons, Bool.and_eq_true] at hspace
    exact .space hspace.1 (ih hspace.2)

/-- The line of an item. -/
def itemLine (s : String) : List Char := [' ', ' '] ++ (quote s).toList

theorem cut_itemLine (s : String) {tokens : List Token} {text : List Char}
    (h : Cut tokens text) : Cut (.text s.toList :: tokens) (itemLine s ++ text) := by
  rw [itemLine, List.append_assoc]
  exact .spaces rfl (.token (writes_quote s) h)

/-- **Lines with commas between them** are cut into the tokens of the items. -/
theorem cut_lines (s : String) (items : List String) {text : List Char}
    (h : Cut [.closeArray] text) :
    Cut (.text s.toList :: moreTokens (items.map String.toList))
      ([',', '\n'].intercalate ((s :: items).map itemLine) ++ text) := by
  induction items generalizing s with
  | nil =>
    rw [List.map_singleton, List.intercalate_singleton]
    exact cut_itemLine s h
  | cons t more ih =>
    have hlines : [',', '\n'].intercalate ((s :: t :: more).map itemLine) ++ text =
        itemLine s ++ (',' :: '\n' ::
          ([',', '\n'].intercalate ((t :: more).map itemLine) ++ text)) := by
      rw [List.map_cons, List.map_cons, List.intercalate_cons_cons, ← List.map_cons,
        List.append_assoc, List.append_assoc]
      rfl
    rw [hlines]
    exact cut_itemLine s (@Cut.token _ [','] _ _ (.punctuation rfl) (.space rfl (ih t)))

theorem toList_prettyArray {items : List String} (h : items ≠ []) :
    (prettyArray items).toList =
      ['[', '\n'] ++ [',', '\n'].intercalate (items.map itemLine) ++ ['\n', ']'] := by
  have hempty : ¬ items.isEmpty := fun hempty ↦ h (List.isEmpty_iff.1 hempty)
  have hlines : (items.map fun s ↦ "  " ++ quote s).map String.toList = items.map itemLine := by
    rw [List.map_map]
    exact List.map_congr_left fun s _ ↦ String.toList_append
  rw [prettyArray, if_neg hempty, String.toList_append, String.toList_append,
    String.toList_intercalate, hlines]
  rfl

/-- **An array that was written is read back**, whatever white space follows it. -/
theorem stringArray?_prettyArray {items : List String} (hne : items ≠ []) {space : List Char}
    (hspace : space.all isSpace = true) :
    stringArray? ((prettyArray items).toList ++ space) = some (items.map String.toList) := by
  rw [stringArray?_eq_some_iff, Denotes]
  cases items with
  | nil => exact absurd rfl hne
  | cons s more =>
    have hspaces := Cut.spaces hspace .nil
    rw [List.append_nil] at hspaces
    have hend : Cut [.closeArray] (['\n', ']'] ++ space) :=
      .space rfl (@Cut.token _ [']'] _ _ (.punctuation rfl) hspaces)
    rw [toList_prettyArray hne, List.append_assoc, List.append_assoc]
    exact @Cut.token _ ['['] _ _ (.punctuation rfl) (.space rfl (cut_lines s more hend))

end Overlay.Json
