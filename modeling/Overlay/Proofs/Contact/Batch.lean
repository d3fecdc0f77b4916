import Overlay.Contact.Batch
import Overlay.Proofs.Text.Blank

/-!
# What a batch holds

A batch is read entry by entry (`ofEntries_append`), and an entry counts only by what is left
of it without the white space around it (`ofEntry_of_trim_eq`). So the contacts of a batch are
those of the entries that name one (`contacts_ofEntries`), blank entries count for nothing, and
every other entry is either a contact or an error (`length_ofEntries`).
-/

namespace Overlay.Contact

/-! ### Reading an entry -/

theorem trim_trim (text : String) : Text.trim (Text.trim text) = Text.trim text := by
  rw [Text.trim, Text.trim, String.toList_ofList, Text.trimChars_trimChars]

/-- A blank text names no contact. -/
theorem parse_of_blank {text : String} (h : Text.trim text = "") :
    parse text = .error (.malformed text "empty address") :=
  if_pos h

/-- White space around a text does not count. -/
theorem parse_trim {text : String} (h : Text.trim text ≠ "") :
    parse (Text.trim text) = parse text := by
  simp only [parse, trim_trim, if_neg h]

/-! ### The contacts of entries -/

/-- The contacts that entries name, in order. -/
def named (entries : List String) : List Contact :=
  entries.filterMap fun entry ↦ (parse entry).toOption

theorem toOption_parse_eq_some_iff {entry : String} {c : Contact} :
    (parse entry).toOption = some c ↔ parse entry = .ok c := by
  cases parse entry with
  | error e => exact ⟨fun h ↦ (by cases h), fun h ↦ by cases h⟩
  | ok c' => exact ⟨fun h ↦ congrArg Except.ok (Option.some.inj h), fun h ↦
      congrArg some (Except.ok.inj h)⟩

theorem mem_named_iff {entries : List String} {c : Contact} :
    c ∈ named entries ↔ ∃ entry ∈ entries, parse entry = .ok c := by
  simp only [named, List.mem_filterMap, toOption_parse_eq_some_iff]

theorem named_eq_nil_iff {entries : List String} :
    named entries = [] ↔ ∀ entry ∈ entries, ∀ c, parse entry ≠ .ok c := by
  simp only [List.eq_nil_iff_forall_not_mem, mem_named_iff, not_exists, not_and]
  exact ⟨fun h entry hentry c ↦ h c entry hentry, fun h c entry hentry ↦ h entry hentry c⟩

theorem named_append (a b : List String) : named (a ++ b) = named a ++ named b :=
  List.filterMap_append

/-- A contact that is named is named by an entry, and those before it by the entries before. -/
theorem named_eq_append_cons_iff {entries : List String} {before after : List Contact}
    {c : Contact} :
    named entries = before ++ c :: after ↔
      ∃ before' entry after', entries = before' ++ entry :: after' ∧ parse entry = .ok c ∧
        named before' = before ∧ named after' = after := by
  constructor
  · intro h
    obtain ⟨first, others, rfl, hfirst, hothers⟩ := List.filterMap_eq_append_iff.1 h
    obtain ⟨skipped, entry, after', rfl, hskipped, hentry, hafter⟩ :=
      List.filterMap_eq_cons_iff.1 hothers
    refine ⟨first ++ skipped, entry, after', (List.append_assoc _ _ _).symm,
      toOption_parse_eq_some_iff.1 hentry, ?_, hafter⟩
    rw [named_append, named, hfirst, named, List.filterMap_eq_nil_iff.2 hskipped, List.append_nil]
  · rintro ⟨before', entry, after', rfl, hentry, rfl, rfl⟩
    rw [named_append, named, named, List.filterMap_cons, hentry]
    rfl

namespace Batch

/-! ### The batch of one entry -/

theorem ofEntry_of_blank {entry : String} (h : Text.trim entry = "") : ofEntry entry = empty :=
  if_pos h

theorem ofEntry_of_contact {entry : String} {c : Contact} (h : parse entry = .ok c) :
    ofEntry entry = ⟨[c], []⟩ := by
  have hblank : Text.trim entry ≠ "" := fun hblank ↦ by
    rw [parse_of_blank hblank] at h
    cases h
  simp only [ofEntry, if_neg hblank, parse_trim hblank, h]

theorem ofEntry_of_error {entry : String} {e : AddressError} (hblank : Text.trim entry ≠ "")
    (h : parse entry = .error e) : ofEntry entry = ⟨[], [(Text.trim entry, e)]⟩ := by
  simp only [ofEntry, if_neg hblank, parse_trim hblank, h]

/-- **Two entries that differ only in the white space around them** are one and the same. -/
theorem ofEntry_of_trim_eq {a b : String} (h : Text.trim a = Text.trim b) :
    ofEntry a = ofEntry b := by
  rw [ofEntry, ofEntry, h]

/-! ### Reading entry by entry -/

@[simp] theorem contacts_append (a b : Batch) : (a ++ b).contacts = a.contacts ++ b.contacts := rfl

@[simp] theorem errors_append (a b : Batch) : (a ++ b).errors = a.errors ++ b.errors := rfl

@[simp] theorem empty_append (b : Batch) : empty ++ b = b := rfl

@[simp] theorem append_empty (b : Batch) : b ++ empty = b := by
  show append b empty = b
  rw [append, empty, List.append_nil, List.append_nil]

theorem append_assoc (a b c : Batch) : a ++ b ++ c = a ++ (b ++ c) := by
  show append (append a b) c = append a (append b c)
  simp only [append, List.append_assoc]

@[simp] theorem ofEntries_cons (entry : String) (rest : List String) :
    ofEntries (entry :: rest) = ofEntry entry ++ ofEntries rest := rfl

theorem ofEntries_append (a b : List String) :
    ofEntries (a ++ b) = ofEntries a ++ ofEntries b := by
  induction a with
  | nil => rfl
  | cons entry rest ih => rw [List.cons_append, ofEntries_cons, ih, ofEntries_cons, append_assoc]

/-- White space around entries makes no difference. -/
theorem ofEntries_map_trim (entries : List String) :
    ofEntries (entries.map Text.trim) = ofEntries entries := by
  induction entries with
  | nil => rfl
  | cons entry rest ih =>
    rw [List.map_cons, ofEntries_cons, ih, ofEntry_of_trim_eq (trim_trim entry), ofEntries_cons]

/-- Blank entries make no difference. -/
theorem ofEntries_filter (entries : List String) :
    ofEntries (entries.filter fun entry ↦ Text.trim entry ≠ "") = ofEntries entries := by
  induction entries with
  | nil => rfl
  | cons entry rest ih =>
    by_cases hblank : Text.trim entry = ""
    · rw [List.filter_cons_of_neg (by simpa using hblank), ih, ofEntries_cons,
        ofEntry_of_blank hblank, empty_append]
    · rw [List.filter_cons_of_pos (by simpa using hblank), ofEntries_cons, ih, ofEntries_cons]

/-- **The contacts of a batch** are those that its entries name. -/
theorem contacts_ofEntries (entries : List String) :
    (ofEntries entries).contacts = named entries := by
  rw [named]
  induction entries with
  | nil => rfl
  | cons entry rest ih =>
    rw [ofEntries_cons, contacts_append, ih, List.filterMap_cons]
    by_cases hblank : Text.trim entry = ""
    · rw [ofEntry_of_blank hblank, parse_of_blank hblank]
      rfl
    · cases h : parse entry with
      | error e => rw [ofEntry_of_error hblank h]; rfl
      | ok c => rw [ofEntry_of_contact h]; rfl

/-- Whether or not it names a contact, an entry that is not blank counts once. -/
theorem length_ofEntries (entries : List String) :
    (ofEntries entries).contacts.length + (ofEntries entries).errors.length =
      (entries.filter fun entry ↦ Text.trim entry ≠ "").length := by
  induction entries with
  | nil => rfl
  | cons entry rest ih =>
    rw [ofEntries_cons, contacts_append, errors_append, List.length_append, List.length_append]
    by_cases hblank : Text.trim entry = ""
    · rw [ofEntry_of_blank hblank, List.filter_cons_of_neg (by simpa using hblank), ← ih]
      simp only [empty, List.length_nil, Nat.zero_add]
    · rw [List.filter_cons_of_pos (by simpa using hblank), List.length_cons, ← ih]
      cases h : parse entry with
      | error e =>
        rw [ofEntry_of_error hblank h, List.length_nil, List.length_singleton]
        omega
      | ok c =>
        rw [ofEntry_of_contact h, List.length_nil, List.length_singleton]
        omega

end Batch

end Overlay.Contact
