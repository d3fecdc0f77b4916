import Overlay.Node.Config
import Overlay.Proofs.Contact.Batch

/-!
# What a configuration makes of its arguments

Bootstrap contacts are supplied in an inline list and in a file, and the configuration counts
both in its own way: the list by the entries that are not empty, the file by the contacts and the
errors that were found in it. `supply` are the entries as they stand in the two texts, and both
counts are counts of these (`length_inlineEntries`, `length_ofEntries_pathSupply`).

So a configuration is decided by two questions that do not speak of counts. `Readable` says that
whatever is read from the arguments can be read; `Hopeless` that bootstrap contacts are required
and were supplied, and that none of them is any good. `ofArguments_eq_ok_iff` gives the
configuration in full.
-/

namespace Overlay.Node.Config

open Contact (Batch named)

/-! ### What is supplied -/

/-- The entries of an inline list: what stands between its commas, unless it is blank. -/
def listSupply (list : Option String) : List String :=
  match list with
  | none => []
  | some text =>
    ((Text.pieces ',' text.toList).map String.ofList).filter fun entry ↦ Text.trim entry ≠ ""

/-- The entries of a file: its lines, unless they are comments or blank. -/
def fileSupply (content : List Char) : List String :=
  (((Text.lines content).map String.ofList).filter fun line ↦
    (Text.trim line).toList.head? ≠ some '#').filter fun line ↦ Text.trim line ≠ ""

/-- The entries of a file that may be absent. -/
def pathSupply (files : Files) (path : Option String) : List String :=
  match path with
  | none => []
  | some path =>
    match files.text path with
    | .error _ => []
    | .ok content => fileSupply content

/-- The entries that were supplied, those of the list before those of the file. -/
def supply (files : Files) (a : RunArguments) : List String :=
  listSupply a.bootstrap ++ pathSupply files a.bootstrapFile

theorem trim_ofList (text : List Char) :
    Text.trim (String.ofList text) = String.ofList (Text.trimChars text) := by
  rw [Text.trim, String.toList_ofList]

/-! ### The list -/

/-- What the configuration reads of a list is what the list supplies, without the white space
around it. -/
theorem inlineEntries_eq (list : Option String) :
    inlineEntries list = (listSupply list).map Text.trim := by
  cases list with
  | none => rfl
  | some text =>
    have hentries : Contact.listEntries text =
        ((Text.pieces ',' text.toList).map String.ofList).map Text.trim := by
      rw [Contact.listEntries, List.map_map]
      exact List.map_congr_left fun p _ ↦ (trim_ofList p).symm
    rw [inlineEntries, hentries, List.filter_map]
    rfl

theorem length_inlineEntries (list : Option String) :
    (inlineEntries list).length = (listSupply list).length := by
  rw [inlineEntries_eq, List.length_map]

/-- **The batch of a list** is that of what the list supplies. -/
theorem ofEntries_inlineEntries (list : Option String) :
    Batch.ofEntries (inlineEntries list) = Batch.ofEntries (listSupply list) := by
  rw [inlineEntries_eq, Batch.ofEntries_map_trim]

/-! ### The file -/

theorem fileEntries_eq (content : List Char) :
    Contact.fileEntries content =
      (((Text.lines content).map String.ofList).filter fun line ↦
        (Text.trim line).toList.head? ≠ some '#').map Text.trim := by
  rw [Contact.fileEntries]
  induction Text.lines content with
  | nil => rfl
  | cons line rest ih =>
    rw [List.map_cons, List.filterMap_cons, List.map_cons]
    by_cases hcomment : (Text.trimChars line).head? = some '#'
    · rw [if_pos hcomment, ih, List.filter_cons_of_neg]
      simpa [trim_ofList] using hcomment
    · rw [if_neg hcomment, ih, List.filter_cons_of_pos, List.map_cons, trim_ofList]
      simpa [trim_ofList] using hcomment

/-- **The batch of a file** is that of what the file supplies. -/
theorem ofFile_eq_ofEntries (content : List Char) :
    Contact.ofFile content = Batch.ofEntries (fileSupply content) := by
  rw [Contact.ofFile, fileEntries_eq, Batch.ofEntries_map_trim, fileSupply, Batch.ofEntries_filter]

/-- A file that is given has to be read, and then it gives what it supplies. -/
theorem fileBatch_eq_ok_iff {files : Files} {path : Option String} {b : Batch} :
    fileBatch files path = .ok b ↔
      (∀ p ∈ path, ∃ content, files.text p = .ok content) ∧
        b = Batch.ofEntries (pathSupply files path) := by
  cases path with
  | none => exact ⟨fun h ↦ ⟨fun p hp ↦ (by cases hp), (Except.ok.inj h).symm⟩, fun h ↦ h.2 ▸ rfl⟩
  | some path =>
    rw [fileBatch, pathSupply]
    cases htext : files.text path with
    | error e =>
      refine ⟨fun h ↦ (by cases h), fun h ↦ ?_⟩
      obtain ⟨content, hcontent⟩ := h.1 path rfl
      cases htext.symm.trans hcontent
    | ok content =>
      simp only [ofFile_eq_ofEntries, Except.ok.injEq]
      refine ⟨fun h ↦ ⟨fun p hp ↦ ?_, h.symm⟩, fun h ↦ h.2.symm⟩
      cases hp
      exact ⟨content, htext⟩

/-- What a file supplies is either a contact or an error. -/
theorem length_ofEntries_pathSupply (files : Files) (path : Option String) :
    (Batch.ofEntries (pathSupply files path)).contacts.length +
      (Batch.ofEntries (pathSupply files path)).errors.length =
        (pathSupply files path).length := by
  have hfull : (pathSupply files path).filter (fun entry ↦ Text.trim entry ≠ "") =
      pathSupply files path := by
    cases path with
    | none => rfl
    | some path =>
      rw [pathSupply]
      cases files.text path with
      | error e => rfl
      | ok content => exact List.filter_eq_self.2 fun entry hentry ↦ (List.mem_filter.1 hentry).2
  rw [Batch.length_ofEntries, hfull]

/-! ### The configuration -/

theorem bind_eq_ok_iff {ε α β : Type} {x : Except ε α} {f : α → Except ε β} {b : β} :
    (x >>= f) = .ok b ↔ ∃ a, x = .ok a ∧ f a = .ok b := by
  constructor
  · intro h
    cases x with
    | error e => cases h
    | ok a => exact ⟨a, rfl, h⟩
  · rintro ⟨a, rfl, h⟩
    exact h

/-- The contact of a text that may be absent. -/
def contactOf (text : Option String) : Option Contact :=
  text.bind fun t ↦ (Contact.parse t).toOption

theorem contact?_eq_ok_iff {wrap : AddressError → ConfigError} {text : Option String}
    {c? : Option Contact} :
    contact? wrap text = .ok c? ↔
      (∀ t ∈ text, ∃ c, Contact.parse t = .ok c) ∧ c? = contactOf text := by
  cases text with
  | none => exact ⟨fun h ↦ ⟨fun t ht ↦ (by cases ht), (Except.ok.inj h).symm⟩, fun h ↦ h.2 ▸ rfl⟩
  | some text =>
    rw [contact?, contactOf, Option.bind_some]
    cases hparse : Contact.parse text with
    | error e =>
      refine ⟨fun h ↦ (by cases h), fun h ↦ ?_⟩
      obtain ⟨c, hc⟩ := h.1 text rfl
      cases hparse.symm.trans hc
    | ok c =>
      refine ⟨fun h ↦ ⟨fun t ht ↦ ?_, (Except.ok.inj h).symm⟩, fun h ↦ congrArg Except.ok h.2.symm⟩
      cases ht
      exact ⟨c, hparse⟩

/-- Whatever is read from the arguments can be read. -/
structure Readable (files : Files) (a : RunArguments) : Prop where
  file : ∀ path ∈ a.bootstrapFile, ∃ content, files.text path = .ok content
  relay : ∀ text ∈ a.relay, ∃ c, Contact.parse text = .ok c
  target : ∀ text ∈ a.target, ∃ c, Contact.parse text = .ok c

/-- The role requires bootstrap contacts, something was supplied, and none of it is a contact. -/
def Hopeless (files : Files) (role : Role) (a : RunArguments) : Prop :=
  role.profile.requiresBootstrap = true ∧ supply files a ≠ [] ∧
    ∀ entry ∈ supply files a, ∀ c, Contact.parse entry ≠ .ok c

/-- The configuration that arguments amount to. -/
def ofSupply (files : Files) (role : Role) (a : RunArguments) : Config where
  role := role
  port := a.port
  keyIndex := a.keyIndex.getD role.defaultKeyIndex
  keyring := a.keyring
  bootstrap := named (supply files a)
  relay := contactOf a.relay
  target := contactOf a.target
  scope := if a.loopback then .loopback else .everywhere

theorem named_supply (files : Files) (a : RunArguments) :
    (Batch.ofEntries (inlineEntries a.bootstrap)).contacts ++
      (Batch.ofEntries (pathSupply files a.bootstrapFile)).contacts = named (supply files a) := by
  rw [ofEntries_inlineEntries, Batch.contacts_ofEntries, Batch.contacts_ofEntries, supply,
    Contact.named_append]

theorem length_supply (files : Files) (a : RunArguments) :
    (inlineEntries a.bootstrap).length +
      (Batch.ofEntries (pathSupply files a.bootstrapFile)).contacts.length +
      (Batch.ofEntries (pathSupply files a.bootstrapFile)).errors.length =
        (supply files a).length := by
  rw [Nat.add_assoc, length_ofEntries_pathSupply, length_inlineEntries, supply, List.length_append]

/-- **The test of the configuration**, which is one on counts, asks whether all is hopeless. -/
theorem hopeless_iff (files : Files) (role : Role) (a : RunArguments) :
    let listed := Batch.ofEntries (inlineEntries a.bootstrap)
    let filed := Batch.ofEntries (pathSupply files a.bootstrapFile)
    (role.profile.requiresBootstrap &&
      (inlineEntries a.bootstrap).length + filed.contacts.length + filed.errors.length != 0 &&
      (listed.contacts ++ filed.contacts).isEmpty) = true ↔ Hopeless files role a := by
  intro listed filed
  rw [length_supply, named_supply, Hopeless, ← Contact.named_eq_nil_iff, Bool.and_eq_true,
    Bool.and_eq_true, bne_iff_ne, List.isEmpty_iff, ne_eq, List.length_eq_zero_iff, and_assoc]

/-- **There is a configuration** exactly if everything can be read and the supply is not hopeless,
and it is the one that the arguments amount to. -/
theorem ofArguments_eq_ok_iff {files : Files} {role : Role} {a : RunArguments} {config : Config} :
    ofArguments files role a = .ok config ↔
      Readable files a ∧ ¬ Hopeless files role a ∧ config = ofSupply files role a := by
  have htest := hopeless_iff files role a
  rw [ofArguments, bind_eq_ok_iff]
  constructor
  · rintro ⟨filed, hfiled, hrest⟩
    obtain ⟨hfile, rfl⟩ := fileBatch_eq_ok_iff.1 hfiled
    by_cases hhopeless : Hopeless files role a
    · rw [if_pos (htest.2 hhopeless)] at hrest
      cases hrest
    · rw [if_neg (htest.not.2 hhopeless)] at hrest
      obtain ⟨relay, hread, hrest⟩ := bind_eq_ok_iff.1 hrest
      obtain ⟨target, hread', hconfig⟩ := bind_eq_ok_iff.1 hrest
      obtain ⟨hrelay, rfl⟩ := contact?_eq_ok_iff.1 hread
      obtain ⟨htarget, rfl⟩ := contact?_eq_ok_iff.1 hread'
      refine ⟨⟨hfile, hrelay, htarget⟩, hhopeless, ?_⟩
      rw [ofSupply, ← named_supply]
      exact (Except.ok.inj hconfig).symm
  · rintro ⟨⟨hfile, hrelay, htarget⟩, hhopeless, rfl⟩
    refine ⟨_, fileBatch_eq_ok_iff.2 ⟨hfile, rfl⟩, ?_⟩
    rw [if_neg (htest.not.2 hhopeless), bind_eq_ok_iff]
    refine ⟨_, contact?_eq_ok_iff.2 ⟨hrelay, rfl⟩, bind_eq_ok_iff.2 ⟨contactOf a.target, ?_, ?_⟩⟩
    · exact contact?_eq_ok_iff.2 ⟨htarget, rfl⟩
    · rw [ofSupply, ← named_supply]
      rfl

end Overlay.Node.Config
