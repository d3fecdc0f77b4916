import Overlay.Proofs.Contact.Sources

/-!
# A batch parts its entries

A batch puts every entry to one side: to the contacts if it names one, else to the errors, and
blank entries to neither. `Parted` says so entry by entry and in the words of `parse` alone. It
leaves no choice, so the batch is the one way to part the entries (`parted_iff`).

Entries are trimmed twice, by the batch and once more by `parse`. As trimming is idempotent the
second time changes nothing: the trimmed entry is read as the entry itself, and it is also the
text that the error reports (`input_of_error`). What may be done to the entries without a change
to the batch follows from two facts: an entry counts only by what is left of it when trimmed, and
entries of which nothing is left do not count at all (`ofEntries_said`).
-/

namespace Overlay

/-- The text that an error reports. -/
def AddressError.input : AddressError → String
  | .malformed input _ => input
  | .missingPeerId input => input

namespace Contact

open Text (IsBlank)

theorem trim_eq_empty_iff {text : String} : Text.trim text = "" ↔ IsBlank text.toList := by
  rw [← Text.trimChars_eq_nil_iff, Text.trim, ← String.toList_inj, String.toList_ofList]
  rfl

/-- **The text that an error reports** is the text without the white space around it. Only a
blank text is reported as it is. -/
theorem input_of_error {text : String} {e : AddressError} (hblank : Text.trim text ≠ "")
    (h : parse text = .error e) : e.input = Text.trim text := by
  simp only [parse, if_neg hblank] at h
  split at h
  · cases h
    rfl
  · split at h
    · cases h
      rfl
    · cases h

/-! ### Parting entries -/

/-- Entries parted into contacts and errors, each side in the order of the entries. -/
inductive Parted : List String → Batch → Prop
  | nil : Parted [] .empty
  /-- A blank entry goes to neither side. -/
  | blank {entry : String} {rest : List String} {b : Batch} (hblank : IsBlank entry.toList)
      (hrest : Parted rest b) : Parted (entry :: rest) b
  /-- An entry that names a contact goes to the contacts. -/
  | contact {entry : String} {rest : List String} {c : Contact} {contacts : List Contact}
      {errors : List (String × AddressError)} (hblank : ¬ IsBlank entry.toList)
      (hparse : parse entry = .ok c) (hrest : Parted rest ⟨contacts, errors⟩) :
      Parted (entry :: rest) ⟨c :: contacts, errors⟩
  /-- Any other entry goes to the errors, without the white space around it and with the error
  that `parse` gives for what is left, which reports the same text. -/
  | error {entry : String} {rest : List String} {e : AddressError} {contacts : List Contact}
      {errors : List (String × AddressError)} (hblank : ¬ IsBlank entry.toList)
      (hparse : parse (Text.trim entry) = .error e) (hinput : e.input = Text.trim entry)
      (hrest : Parted rest ⟨contacts, errors⟩) :
      Parted (entry :: rest) ⟨contacts, (Text.trim entry, e) :: errors⟩

theorem parted_ofEntries (entries : List String) : Parted entries (Batch.ofEntries entries) := by
  induction entries with
  | nil => exact .nil
  | cons entry rest ih =>
    rw [Batch.ofEntries_cons]
    by_cases hblank : Text.trim entry = ""
    · rw [Batch.ofEntry_of_blank hblank, Batch.empty_append]
      exact .blank (trim_eq_empty_iff.1 hblank) ih
    · cases hparse : parse entry with
      | ok c =>
        rw [Batch.ofEntry_of_contact hparse]
        exact .contact (mt trim_eq_empty_iff.2 hblank) hparse ih
      | error e =>
        rw [Batch.ofEntry_of_error hblank hparse]
        exact .error (mt trim_eq_empty_iff.2 hblank) ((parse_trim hblank).trans hparse)
          (input_of_error hblank hparse) ih

/-- **The batch is the one way to part the entries.** -/
theorem parted_iff {entries : List String} {b : Batch} :
    Parted entries b ↔ b = Batch.ofEntries entries := by
  constructor
  · intro h
    induction h with
    | nil => rfl
    | blank hblank _ ih =>
      rw [Batch.ofEntries_cons, Batch.ofEntry_of_blank (trim_eq_empty_iff.2 hblank),
        Batch.empty_append, ih]
    | contact _ hparse _ ih =>
      rw [Batch.ofEntries_cons, Batch.ofEntry_of_contact hparse, ← ih]
      rfl
    | error hblank hparse _ _ ih =>
      have hsaid := mt trim_eq_empty_iff.1 hblank
      rw [parse_trim hsaid] at hparse
      rw [Batch.ofEntries_cons, Batch.ofEntry_of_error hsaid hparse, ← ih]
      rfl
  · rintro rfl
    exact parted_ofEntries entries

/-! ### What does not count -/

/-- The entries that are not blank. -/
def said (entries : List String) : List String :=
  entries.filter fun entry ↦ ¬ IsBlank entry.toList

theorem said_eq (entries : List String) :
    said entries = entries.filter fun entry ↦ Text.trim entry ≠ "" :=
  List.filter_congr fun _ _ ↦ decide_eq_decide.2 (not_congr trim_eq_empty_iff.symm)

/-- Blank entries make no difference. -/
theorem ofEntries_said (entries : List String) :
    Batch.ofEntries (said entries) = Batch.ofEntries entries := by
  rw [said_eq, Batch.ofEntries_filter]

/-- White space around the entries makes no difference. -/
theorem ofEntries_map_ofList_of_padded {entries : List String} {padded : List (List Char)}
    (h : List.Forall₂ Padded entries padded) :
    Batch.ofEntries (padded.map String.ofList) = Batch.ofEntries entries := by
  rw [← ofEntries_of_padded h, ← Batch.ofEntries_map_trim, List.map_map]
  congr 1
  refine List.map_congr_left fun p _ ↦ ?_
  rw [Function.comp_apply, Text.trim, String.toList_ofList]

/-! ### The partition -/

/-- **A batch is an ordered partition of its entries that loses nothing.**

1. It is the one way to part the entries: every entry that is not blank adds one contact or one
   error, namely what `parse` gives for it, both sides keep the order of the entries, and an
   error stands beside the trimmed entry, which is also the text that it reports.
2. One list of entries after another gives one batch after the other.
3. Blank entries may be put in or left out anywhere.
4. So may white space around entries.
5. Contacts and errors together are as many as the entries that are not blank. -/
theorem batch_parts_entries (entries : List String) :
    (∀ b, Parted entries b ↔ b = Batch.ofEntries entries) ∧
      (∀ more, Batch.ofEntries (entries ++ more) =
        Batch.ofEntries entries ++ Batch.ofEntries more) ∧
      (∀ other, said other = said entries → Batch.ofEntries other = Batch.ofEntries entries) ∧
      (∀ padded, List.Forall₂ Padded entries padded →
        Batch.ofEntries (padded.map String.ofList) = Batch.ofEntries entries) ∧
      (Batch.ofEntries entries).contacts.length + (Batch.ofEntries entries).errors.length =
        (said entries).length := by
  refine ⟨fun b ↦ parted_iff, Batch.ofEntries_append entries, fun other hother ↦ ?_,
    fun padded ↦ ofEntries_map_ofList_of_padded, ?_⟩
  · rw [← ofEntries_said, hother, ofEntries_said]
  · rw [Batch.length_ofEntries, said_eq]

/-- A contact and a name, and among them what is blank in other ways than by spaces. -/
theorem batch_parts_entries_of_blanks :
    let entries := ["/p2p/11", "\u3000", "peer\u200b"]
    let other := ["", "/p2p/11", "peer\u200b", "\u0085\t"]
    let padded := ["\u2003/p2p/11\n".toList, "\u3000".toList, " peer\u200b".toList]
    said other = said entries ∧ List.Forall₂ Padded entries padded ∧
      Batch.ofEntries other = Batch.ofEntries entries ∧
      Batch.ofEntries (padded.map String.ofList) = Batch.ofEntries entries ∧
      Parted entries ⟨[.bare ⟨⟨0, []⟩, rfl⟩],
        [("peer\u200b", .malformed "peer\u200b" "invalid multiaddr")]⟩ := by
  intro entries other padded
  have hsaid : said other = said entries := by decide +kernel
  have hpadded : List.Forall₂ Padded entries padded :=
    .cons (@Padded.intro _ ['\u2003'] ['\n'] (by decide) (by decide))
      (.cons (@Padded.intro _ [] [] (by decide) (by decide))
        (.cons (@Padded.intro _ [' '] [] (by decide) (by decide)) .nil))
  obtain ⟨hparted, -, hother, hpad, -⟩ := batch_parts_entries entries
  exact ⟨hsaid, hpadded, hother other hsaid, hpad padded hpadded,
    (hparted _).2 (by decide +kernel)⟩

end Contact

end Overlay
