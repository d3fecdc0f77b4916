import Overlay.Node.Config
import Overlay.Proofs.Contact.Batch
import Overlay.Proofs.Text.Utf8

/-!
# Lists and files say the same

The same entries can be given between commas or on the lines of a file. The two are read in
different ways: a list is cut at commas; a file is cut into lines, loses the carriage return
that belongs to a line end, and loses its comments. Yet the batch is the same, and it is the
batch of the entries themselves (`list_and_file_agree`).

What a file may look like is said by `Filed`, line by line and without the functions that read
it: white space around entries, blank lines and comments anywhere, both kinds of line ends, and
a last line that need not be ended. The proof follows the lines: a line feed cuts the batch of a
file in two (`ofFile_append_feed`), and a line gives what it holds (`lineBatch_of_holds`). For
a list `Listed` does the same, and a comma cuts.
-/

namespace Overlay

/-! ### Lines -/

namespace Text

theorem lines_append_feed {line : List Char} (h : '\n' ∉ line) (rest : List Char) :
    lines (line ++ '\n' :: rest) = dropReturn line :: lines rest := by
  rw [lines, pieces_append_cons, pieces_of_notMem h, List.singleton_append, lines]
  cases hrest : pieces '\n' rest with
  | nil => exact absurd hrest (pieces_ne_nil '\n' rest)
  | cons p ps => rfl

theorem lines_of_notMem {line : List Char} (h : '\n' ∉ line) :
    lines line = if line.isEmpty then [] else [line] := by
  rw [lines, pieces_of_notMem h, linesOfPieces]

/-- The carriage return of a line end is white space. -/
theorem trimChars_dropReturn (line : List Char) :
    trimChars (dropReturn line) = trimChars line := by
  rw [dropReturn]
  split
  · next hlast =>
    have hblank : IsBlank ['\r'] := by decide
    rw [← trimChars_append_right line.dropLast hblank, List.dropLast_append_getLast? _ hlast]
  · rfl

end Text

namespace Contact

open Text (IsBlank)

/-! ### Written forms -/

/-- An entry with white space around it. -/
inductive Padded (entry : String) : List Char → Prop
  | intro {before after : List Char} (hbefore : IsBlank before) (hafter : IsBlank after) :
      Padded entry (before ++ entry.toList ++ after)

/-- The entries with commas between them. -/
def Listed (entries : List String) (text : List Char) : Prop :=
  ∃ padded, List.Forall₂ Padded entries padded ∧ text = [','].intercalate padded

/-- What a line holds: an entry, or nothing if it is blank or a comment. -/
inductive Holds : List Char → Option String → Prop
  | entry {line : List Char} {entry : String} (h : Padded entry line) : Holds line (some entry)
  | blank {line : List Char} (h : IsBlank line) : Holds line none
  | comment {indent : List Char} (h : IsBlank indent) (text : List Char) :
      Holds (indent ++ '#' :: text) none

/-- The two ways to end a line. -/
inductive LineEnd : List Char → Prop
  | feed : LineEnd ['\n']
  | returnFeed : LineEnd ['\r', '\n']

/-- The entries on lines of a file. The last line is not ended, and it is empty if all that
stand before it are the lines of the file. -/
inductive Filed : List String → List Char → Prop
  | last {line : List Char} {held : Option String} (hfeed : '\n' ∉ line)
      (hline : Holds line held) : Filed held.toList line
  | line {line ending rest : List Char} {held : Option String} {entries : List String}
      (hfeed : '\n' ∉ line) (hline : Holds line held) (hending : LineEnd ending)
      (hrest : Filed entries rest) : Filed (held.toList ++ entries) (line ++ ending ++ rest)

/-! ### Reading a list -/

theorem trimChars_of_padded {entry : String} {text : List Char} (h : Padded entry text) :
    Text.trimChars text = Text.trimChars entry.toList := by
  obtain ⟨hbefore, hafter⟩ := h
  exact Text.trimChars_pad hbefore _ hafter

theorem ofEntry_of_padded {entry : String} {text : List Char} (h : Padded entry text) :
    Batch.ofEntry (String.ofList (Text.trimChars text)) = Batch.ofEntry entry := by
  refine Batch.ofEntry_of_trim_eq ?_
  rw [trimChars_of_padded h]
  exact trim_trim entry

theorem notMem_of_padded {entry : String} {text : List Char} (h : Padded entry text) {c : Char}
    (hblank : Text.isBlank c = false) (hc : c ∉ entry.toList) : c ∉ text := by
  have hpad {w : List Char} (hw : IsBlank w) : c ∉ w := fun hcw ↦ by
    have hcblank := hw c hcw
    rw [hblank] at hcblank
    cases hcblank
  obtain ⟨hbefore, hafter⟩ := h
  rw [List.mem_append, List.mem_append, not_or, not_or]
  exact ⟨⟨hpad hbefore, hc⟩, hpad hafter⟩

theorem ofEntries_of_padded {entries : List String} {padded : List (List Char)}
    (h : List.Forall₂ Padded entries padded) :
    Batch.ofEntries (padded.map fun p ↦ String.ofList (Text.trimChars p)) =
      Batch.ofEntries entries := by
  induction h with
  | nil => rfl
  | cons hfirst hrest ih =>
    rw [List.map_cons, Batch.ofEntries_cons, ih, ofEntry_of_padded hfirst, Batch.ofEntries_cons]

theorem noComma_of_padded {entries : List String} {padded : List (List Char)}
    (hcomma : ∀ entry ∈ entries, ',' ∉ entry.toList) (h : List.Forall₂ Padded entries padded) :
    ∀ p ∈ padded, ',' ∉ p := by
  induction h with
  | nil => exact fun p hp ↦ absurd hp List.not_mem_nil
  | cons hfirst hrest ih =>
    rw [List.forall_mem_cons] at hcomma ⊢
    exact ⟨notMem_of_padded hfirst rfl hcomma.1, ih hcomma.2⟩

/-- **A list gives the batch of its entries.** -/
theorem ofEntries_listEntries {entries : List String} {text : List Char}
    (hcomma : ∀ entry ∈ entries, ',' ∉ entry.toList) (h : Listed entries text) :
    Batch.ofEntries (listEntries (String.ofList text)) = Batch.ofEntries entries := by
  obtain ⟨padded, hpadded, rfl⟩ := h
  rw [listEntries, String.toList_ofList, ← ofEntries_of_padded hpadded]
  cases hpadded with
  | nil => rfl
  | cons hfirst hrest =>
    rw [Text.pieces_intercalate (List.cons_ne_nil _ _)
      (noComma_of_padded hcomma (.cons hfirst hrest))]

/-! ### Reading a file -/

/-- The batch of one line. -/
def lineBatch (line : List Char) : Batch :=
  if (Text.trimChars line).head? = some '#' then .empty
  else Batch.ofEntry (String.ofList (Text.trimChars line))

theorem ofEntries_filterMap (lines : List (List Char)) :
    Batch.ofEntries ((lines.map Text.trimChars).filterMap fun line ↦
      if line.head? = some '#' then none else some (String.ofList line)) =
        lines.foldr (fun line b ↦ lineBatch line ++ b) .empty := by
  induction lines with
  | nil => rfl
  | cons line rest ih =>
    rw [List.map_cons, List.filterMap_cons, List.foldr_cons, ← ih, lineBatch]
    split_ifs <;> rfl

theorem ofFile_eq (content : List Char) :
    ofFile content = (Text.lines content).foldr (fun line b ↦ lineBatch line ++ b) .empty :=
  ofEntries_filterMap _

/-- **A line feed cuts the batch of a file in two.** -/
theorem ofFile_append_feed {line : List Char} (h : '\n' ∉ line) (rest : List Char) :
    ofFile (line ++ '\n' :: rest) = lineBatch line ++ ofFile rest := by
  rw [ofFile_eq, Text.lines_append_feed h, List.foldr_cons, ← ofFile_eq, lineBatch,
    Text.trimChars_dropReturn, ← lineBatch]

/-- A text without a line feed is one line, or none if it is empty. -/
theorem ofFile_of_notMem {line : List Char} (h : '\n' ∉ line) :
    ofFile line = lineBatch line := by
  rw [ofFile_eq, Text.lines_of_notMem h]
  split_ifs with hempty
  · rw [List.isEmpty_iff.1 hempty]
    rfl
  · exact Batch.append_empty _

theorem lineBatch_of_holds {line : List Char} {held : Option String} (h : Holds line held)
    (hcomment : ∀ entry ∈ held, (Text.trim entry).toList.head? ≠ some '#') :
    lineBatch line = Batch.ofEntries held.toList := by
  cases h with
  | @entry _ entry h =>
    have hhead : (Text.trimChars line).head? ≠ some '#' := by
      rw [trimChars_of_padded h, ← String.toList_ofList (l := Text.trimChars entry.toList)]
      exact hcomment entry rfl
    rw [lineBatch, if_neg hhead, ofEntry_of_padded h]
    exact (Batch.append_empty _).symm
  | blank h =>
    rw [lineBatch, Text.trimChars_eq_nil_iff.2 h]
    rfl
  | comment h text =>
    rw [lineBatch, Text.trimChars_append_left h, Text.head?_trimChars_cons rfl, if_pos rfl]
    rfl

/-- **A file gives the batch of its entries.** -/
theorem ofFile_of_filed {entries : List String} {content : List Char} (h : Filed entries content)
    (hcomment : ∀ entry ∈ entries, (Text.trim entry).toList.head? ≠ some '#') :
    ofFile content = Batch.ofEntries entries := by
  induction h with
  | @last line held hfeed hline =>
    rw [ofFile_of_notMem hfeed]
    exact lineBatch_of_holds hline fun entry he ↦ hcomment entry (Option.mem_toList.2 he)
  | @line line ending rest held entries hfeed hline hending hrest ih =>
    have hfirst : lineBatch line = Batch.ofEntries held.toList :=
      lineBatch_of_holds hline fun entry he ↦
        hcomment entry (List.mem_append_left entries (Option.mem_toList.2 he))
    have hothers := ih fun entry he ↦ hcomment entry (List.mem_append_right held.toList he)
    rw [Batch.ofEntries_append, ← hothers, ← hfirst, List.append_assoc]
    cases hending with
    | feed => exact ofFile_append_feed hfeed rest
    | returnFeed =>
      -- the carriage return stays on the line, where it is white space like any other
      have hreturn : IsBlank ['\r'] := by decide
      have hfeed' : '\n' ∉ line ++ ['\r'] := by
        rw [List.mem_append, not_or]
        exact ⟨hfeed, by decide⟩
      have hcut := ofFile_append_feed hfeed' rest
      rw [lineBatch, Text.trimChars_append_right line hreturn, ← lineBatch] at hcut
      rw [← hcut, List.append_assoc]
      rfl

/-! ### The two sources -/

/-- **The inline list and the file are equivalent sources.** Whichever way the entries are
written between commas and on the lines of a file, the same contacts and the same errors come
out in the same order, and they are those of the entries as they are. That no entry holds a line
feed is part of being on a line. -/
theorem list_and_file_agree {entries : List String}
    (hcomma : ∀ entry ∈ entries, ',' ∉ entry.toList)
    (hcomment : ∀ entry ∈ entries, (Text.trim entry).toList.head? ≠ some '#')
    {listed filed : List Char} (hlisted : Listed entries listed) (hfiled : Filed entries filed)
    {files : Files} {path : String} (hbytes : files.bytes path = .ok (Text.Utf8.encode filed)) :
    Node.Config.fileBatch files (some path) =
        .ok (Batch.ofEntries (listEntries (String.ofList listed))) ∧
      Batch.ofEntries (listEntries (String.ofList listed)) = Batch.ofEntries entries := by
  have hlist := ofEntries_listEntries hcomma hlisted
  refine ⟨?_, hlist⟩
  rw [Node.Config.fileBatch]
  simp only [Files.text_of_bytes hbytes, ofFile_of_filed hfiled hcomment, hlist]

/-- Two entries, one of them with a carriage return inside, between blanks in a list; and in a
file with an indented comment, a blank line, both kinds of line ends and no final line feed. -/
theorem list_and_file_agree_of_mixture :
    let entries := ["gar\rbage", "/dns/relay/tcp/1"]
    let listed := "gar\rbage ,\u2003/dns/relay/tcp/1\n".toList
    let filed := "\t# two peers, one stale\r\n \u00a0gar\rbage\n\r\n/dns/relay/tcp/1 ".toList
    let files : Files := ⟨fun _ ↦ .ok (Text.Utf8.encode filed)⟩
    (∀ entry ∈ entries, ',' ∉ entry.toList) ∧
      (∀ entry ∈ entries, (Text.trim entry).toList.head? ≠ some '#') ∧
      Listed entries listed ∧ Filed entries filed ∧
      files.bytes "peers" = .ok (Text.Utf8.encode filed) ∧
      Node.Config.fileBatch files (some "peers") =
        .ok (Batch.ofEntries (listEntries (String.ofList listed))) ∧
      Batch.ofEntries (listEntries (String.ofList listed)) = Batch.ofEntries entries := by
  intro entries listed filed files
  have hcomma : ∀ entry ∈ entries, ',' ∉ entry.toList := by decide
  have hcomment : ∀ entry ∈ entries, (Text.trim entry).toList.head? ≠ some '#' := by decide
  have hlisted : Listed entries listed :=
    ⟨["gar\rbage ".toList, "\u2003/dns/relay/tcp/1\n".toList],
      .cons (@Padded.intro _ [] [' '] (by decide) (by decide))
        (.cons (@Padded.intro _ ['\u2003'] ['\n'] (by decide) (by decide)) .nil),
      by decide⟩
  have hfiled : Filed entries filed := by
    have hcomment : Holds "\t# two peers, one stale".toList none :=
      @Holds.comment ['\t'] (by decide) " two peers, one stale".toList
    have hgarbage : Holds " \u00a0gar\rbage".toList (some "gar\rbage") :=
      .entry (@Padded.intro _ [' ', '\u00a0'] [] (by decide) (by decide))
    have hrelay : Holds "/dns/relay/tcp/1 ".toList (some "/dns/relay/tcp/1") :=
      .entry (@Padded.intro _ [] [' '] (by decide) (by decide))
    have hwritten : filed = "\t# two peers, one stale".toList ++ ['\r', '\n'] ++
        (" \u00a0gar\rbage".toList ++ ['\n'] ++
          ([] ++ ['\r', '\n'] ++ "/dns/relay/tcp/1 ".toList)) := by decide
    rw [hwritten]
    exact .line (by decide) hcomment .returnFeed (.line (by decide) hgarbage .feed
      (.line (by decide) (.blank (by decide)) .returnFeed (.last (by decide) hrelay)))
  exact ⟨hcomma, hcomment, hlisted, hfiled, rfl,
    list_and_file_agree hcomma hcomment hlisted hfiled rfl⟩

end Contact

end Overlay
