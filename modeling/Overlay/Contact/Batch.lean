import Overlay.Contact

/-!
# Lists of contacts

A batch reads every entry of a list. Blank entries are skipped, and an entry that names no
contact is set aside with the reason, so one stale address does not spoil the others.

Lists come as comma-separated text or as a file with one entry on each line, where lines
that start with a number sign are comments.
-/

namespace Overlay.Contact

/-- The contacts of a list, and the entries that name none. -/
structure Batch where
  contacts : List Contact
  /-- The rejected entries and the reasons, in the order of the list. -/
  errors : List (String × AddressError)
deriving DecidableEq, Repr

namespace Batch

/-- The batch of no entries. -/
def empty : Batch := ⟨[], []⟩

/-- Whether every entry named a contact. -/
def isClean (b : Batch) : Bool := b.errors.isEmpty

/-- One batch after another. -/
def append (a b : Batch) : Batch := ⟨a.contacts ++ b.contacts, a.errors ++ b.errors⟩

instance : Append Batch := ⟨append⟩

/-- The batch of one entry. -/
def ofEntry (entry : String) : Batch :=
  let text := Text.trim entry
  if text = "" then empty
  else match Contact.parse text with
    | .ok contact => ⟨[contact], []⟩
    | .error e => ⟨[], [(text, e)]⟩

/-- Reads every entry. -/
def ofEntries : List String → Batch
  | [] => empty
  | entry :: rest => ofEntry entry ++ ofEntries rest

end Batch

/-- The entries of a comma-separated list, without white space around them. -/
def listEntries (text : String) : List String :=
  (Text.pieces ',' text.toList).map fun p ↦ String.ofList (Text.trimChars p)

/-- The entries of a file: its lines without white space around them, comments left out. -/
def fileEntries (content : List Char) : List String :=
  ((Text.lines content).map Text.trimChars).filterMap fun line ↦
    if line.head? = some '#' then none else some (String.ofList line)

/-- Reads the contacts of a file's content. -/
def ofFile (content : List Char) : Batch := Batch.ofEntries (fileEntries content)

end Overlay.Contact
