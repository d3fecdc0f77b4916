import Overlay.Keyring
import Overlay.Proofs.Json.Grammar
import Overlay.Proofs.Text.Blank
import Overlay.Proofs.Text.Utf8

/-!
# What a key ring file gives

A file is loaded for what it *holds*, the strings of the array that its text denotes. In what bytes
a text is written and what texts denote an array is settled elsewhere; `holds_iff` brings the two
together, and from there on loading looks at the strings alone. `Loads` lists all that it can come
to: the file holds no strings, or an empty array, or a blank string and none before it, or else it
gives the ring of the strings without the white space around them (`loads_of_load`).

An entry is decoded when it is selected, and what is found is told of its index: selecting it
from a ring of its own comes to the same but for the index (`identity_eq_atIndex`). So whatever
stands at the other places makes no difference.
-/

namespace Overlay.Keyring

open Text (IsBlank)

/-! ### Loading -/

/-- The file's text, in UTF-8, denotes the array of these strings. -/
def Holds (files : Files) (path : String) (strings : List (List Char)) : Prop :=
  ∃ text, files.bytes path = .ok (Text.Utf8.encode text) ∧ Json.Denotes text strings

variable {files : Files} {path : String} {strings : List (List Char)}

theorem holds_iff : Holds files path strings ↔
    ∃ content, files.text path = .ok content ∧ Json.stringArray? content = some strings := by
  simp only [Holds, Files.text_eq_ok_iff, Json.stringArray?_eq_some_iff]

/-- A file holds one array at most. -/
theorem Holds.unique {others : List (List Char)} (h : Holds files path strings)
    (h' : Holds files path others) : strings = others := by
  obtain ⟨content, htext, harray⟩ := holds_iff.1 h
  obtain ⟨content', htext', harray'⟩ := holds_iff.1 h'
  rw [htext] at htext'
  cases htext'
  exact Option.some.inj (harray.symm.trans harray')

theorem findIdx?_blank_eq_none_iff :
    strings.findIdx? (fun s ↦ Text.trimChars s = []) = none ↔ ∀ s ∈ strings, ¬ IsBlank s := by
  simp only [List.findIdx?_eq_none_iff, Text.trimChars_eq_nil_iff, decide_eq_false_iff_not]

theorem findIdx?_blank_eq_some_iff {i : Nat} :
    strings.findIdx? (fun s ↦ Text.trimChars s = []) = some i ↔
      ∃ hi : i < strings.length, IsBlank strings[i] ∧ ∀ j (hj : j < i), ¬ IsBlank strings[j] := by
  simp only [List.findIdx?_eq_some_iff_getElem, Text.trimChars_eq_nil_iff, decide_eq_true_eq]

/-- The ring of strings, without the white space around them. -/
def ofStrings (strings : List (List Char)) : Keyring :=
  ⟨strings.map fun s ↦ String.ofList (Text.trimChars s)⟩

/-- All that loading a file can come to. -/
inductive Loads (files : Files) (path : String) : Except KeyringError Keyring → Prop
  | noStrings (reason : String) (h : ∀ strings, ¬ Holds files path strings) :
      Loads files path (.error (.file path reason))
  | empty (h : Holds files path []) : Loads files path (.error (.file path "keyring is empty"))
  | blank {strings : List (List Char)} {i : Nat} (h : Holds files path strings)
      (hi : i < strings.length) (hblank : IsBlank strings[i])
      (hfirst : ∀ j (hj : j < i), ¬ IsBlank strings[j]) :
      Loads files path (.error (.file path s!"entry {i} is blank"))
  | ring {strings : List (List Char)} (h : Holds files path strings) (hne : strings ≠ [])
      (hsaid : ∀ s ∈ strings, ¬ IsBlank s) : Loads files path (.ok (ofStrings strings))

/-- **Loading a file** comes to one of these. -/
theorem loads_of_load {result : Except KeyringError Keyring} (hload : load files path = result) :
    Loads files path result := by
  rw [← hload, load]
  cases htext : files.text path with
  | error e =>
    refine .noStrings e.message fun strings h ↦ ?_
    obtain ⟨content, htext', -⟩ := holds_iff.1 h
    rw [htext] at htext'
    cases htext'
  | ok content =>
    dsimp only
    rw [ofContent]
    cases harray : Json.stringArray? content with
    | none =>
      refine .noStrings ContentError.notStrings.message fun strings h ↦ ?_
      obtain ⟨content', htext', harray'⟩ := holds_iff.1 h
      rw [htext] at htext'
      cases htext'
      rw [harray] at harray'
      cases harray'
    | some strings =>
      have hholds : Holds files path strings := holds_iff.2 ⟨content, htext, harray⟩
      cases strings with
      | nil => exact .empty hholds
      | cons s rest =>
        dsimp only
        cases hfind : (s :: rest).findIdx? fun e ↦ Text.trimChars e = [] with
        | none => exact .ring hholds (List.cons_ne_nil _ _) (findIdx?_blank_eq_none_iff.1 hfind)
        | some i =>
          obtain ⟨hi, hblank, hfirst⟩ := findIdx?_blank_eq_some_iff.1 hfind
          exact .blank hholds hi hblank hfirst

theorem load_of_said (h : Holds files path strings) (hne : strings ≠ [])
    (hsaid : ∀ s ∈ strings, ¬ IsBlank s) : load files path = .ok (ofStrings strings) := by
  generalize hload : load files path = result
  cases loads_of_load hload with
  | noStrings _ hnone => exact absurd h (hnone strings)
  | empty h' => exact absurd (h.unique h') hne
  | blank h' hi hblank =>
    cases h.unique h'
    exact absurd hblank (hsaid _ (List.getElem_mem hi))
  | ring h' => rw [h.unique h']

/-- The first blank string is the reason, if there is one. -/
theorem load_of_blank (h : Holds files path strings) {i : Nat} (hi : i < strings.length)
    (hblank : IsBlank strings[i]) (hfirst : ∀ j (hj : j < i), ¬ IsBlank strings[j]) :
    load files path = .error (.file path s!"entry {i} is blank") := by
  generalize hload : load files path = result
  cases loads_of_load hload with
  | noStrings _ hnone => exact absurd h (hnone strings)
  | empty h' =>
    cases h.unique h'
    exact absurd hi (Nat.not_lt_zero i)
  | @blank _ j h' hj hblank' hfirst' =>
    cases h.unique h'
    -- neither of two first blank strings stands before the other
    rcases Nat.lt_trichotomy i j with hlt | rfl | hlt
    · exact absurd hblank (hfirst' i hlt)
    · rfl
    · exact absurd hblank' (hfirst j hlt)
  | ring h' _ hsaid =>
    cases h.unique h'
    exact absurd hblank (hsaid _ (List.getElem_mem hi))

/-- **A file is loaded** exactly if it holds strings, and no blank one. -/
theorem load_eq_ok_iff {ring : Keyring} : load files path = .ok ring ↔
    ∃ strings, Holds files path strings ∧ strings ≠ [] ∧ (∀ s ∈ strings, ¬ IsBlank s) ∧
      ring = ofStrings strings := by
  constructor
  · intro hload
    cases loads_of_load hload with
    | ring h hne hsaid => exact ⟨_, h, hne, hsaid, rfl⟩
  · rintro ⟨strings, h, hne, hsaid, rfl⟩
    exact load_of_said h hne hsaid

/-- Whatever is wrong with a file, the error names the file. -/
theorem exists_reason_of_load {e : KeyringError} (hload : load files path = .error e) :
    ∃ reason, e = .file path reason := by
  cases loads_of_load hload <;> exact ⟨_, rfl⟩

/-! ### Selecting -/

/-- What selecting a key came to, told of another index. -/
def atIndex (index : Nat) : Except KeyringError Identity → Except KeyringError Identity
  | .ok identity => .ok { identity with index }
  | .error (.decodeFailure _ reason) => .error (.decodeFailure index reason)
  | .error e => .error e

/-- **An entry is selected** as from a ring of its own, but for the index. -/
theorem identity_eq_atIndex {ring : Keyring} {i : Nat} {entry : String}
    (h : ring.entries[i]? = some entry) :
    ring.identity i = atIndex i ((⟨[entry]⟩ : Keyring).identity 0) := by
  rw [identity, h, identity]
  dsimp only [List.getElem?_cons_zero]
  cases decodeEntry entry <;> rfl

theorem identity_of_length_le {ring : Keyring} {i : Nat} (h : ring.size ≤ i) :
    ring.identity i = .error (.indexOutOfRange i ring.size) := by
  rw [identity, List.getElem?_eq_none h]

/-- A failure to decode is that of the entry at the index that was asked for, and is told of this
index. -/
theorem identity_eq_decodeFailure_iff {ring : Keyring} {i index : Nat} {reason : String} :
    ring.identity i = .error (.decodeFailure index reason) ↔
      index = i ∧ ∃ entry e, ring.entries[i]? = some entry ∧ decodeEntry entry = .error e ∧
        reason = e.message := by
  rw [identity]
  constructor
  · intro h
    split at h
    · cases h
    · next entry hentry =>
      split at h
      · next e hdecode =>
        cases h
        exact ⟨rfl, entry, e, hentry, hdecode, rfl⟩
      · cases h
  · rintro ⟨rfl, entry, e, hentry, hdecode, rfl⟩
    simp only [hentry, hdecode]

theorem getElem?_ofStrings {i : Nat} (hi : i < strings.length) :
    (ofStrings strings).entries[i]? = some (String.ofList (Text.trimChars strings[i])) := by
  rw [ofStrings, List.getElem?_map, List.getElem?_eq_getElem hi, Option.map_some]

theorem size_ofStrings (strings : List (List Char)) :
    (ofStrings strings).size = strings.length :=
  List.length_map _

/-! ### Files and identities -/

/-- **A key ring file is loaded as a whole, and each of its entries stands for itself.**

1. A file is loaded exactly if it is the UTF-8 text of a JSON array of strings, one at least and
   none of them blank.
2. If it is not, the error names the file; and if there are blank strings, it names the place of
   the first of them.
3. If it is, then at the index of a string the ring selects what a ring of this string alone,
   without the white space around it, selects at index 0, told of the string's index; beyond the
   last string the index is out of range.
4. A failure to decode is told of the index that was asked for, and the string there is the one
   that is not decoded.
5. Two files with the same string at an index, but for white space around it, select the same
   there, whatever the other strings are. -/
theorem load_whole_select_each (files : Files) (path : String) :
    ((∃ ring, load files path = .ok ring) ↔
        ∃ strings, Holds files path strings ∧ strings ≠ [] ∧ ∀ s ∈ strings, ¬ IsBlank s) ∧
      (∀ e, load files path = .error e → ∃ reason, e = .file path reason) ∧
      (∀ strings i (hi : i < strings.length), Holds files path strings → IsBlank strings[i] →
        (∀ j (hj : j < i), ¬ IsBlank strings[j]) →
          load files path = .error (.file path s!"entry {i} is blank")) ∧
      ∀ ring strings, load files path = .ok ring → Holds files path strings →
        (∀ i (hi : i < strings.length), ring.identity i =
          atIndex i ((⟨[String.ofList (Text.trimChars strings[i])]⟩ : Keyring).identity 0)) ∧
        (∀ i, strings.length ≤ i →
          ring.identity i = .error (.indexOutOfRange i strings.length)) ∧
        (∀ i index reason, ring.identity i = .error (.decodeFailure index reason) ↔
          index = i ∧ ∃ (hi : i < strings.length) (e : EntryError),
            decodeEntry (String.ofList (Text.trimChars strings[i])) = .error e ∧
              reason = e.message) ∧
        ∀ files' path' ring' strings', load files' path' = .ok ring' →
          Holds files' path' strings' → ∀ i (hi : i < strings.length) (hi' : i < strings'.length),
            Text.trimChars strings[i] = Text.trimChars strings'[i] →
              ring.identity i = ring'.identity i := by
  have hring {files : Files} {path : String} {ring : Keyring} {strings : List (List Char)}
      (hload : load files path = .ok ring) (h : Holds files path strings) :
      ring = ofStrings strings := by
    obtain ⟨strings', h', -, -, rfl⟩ := load_eq_ok_iff.1 hload
    rw [h.unique h']
  refine ⟨?_, fun e ↦ exists_reason_of_load, fun strings i hi h ↦ load_of_blank h hi, ?_⟩
  · simp only [load_eq_ok_iff]
    constructor
    · rintro ⟨ring, strings, h, hne, hsaid, -⟩
      exact ⟨strings, h, hne, hsaid⟩
    · rintro ⟨strings, h, hne, hsaid⟩
      exact ⟨_, strings, h, hne, hsaid, rfl⟩
  · intro ring strings hload h
    rw [hring hload h]
    refine ⟨fun i hi ↦ identity_eq_atIndex (getElem?_ofStrings hi), fun i hi ↦ ?_,
      fun i index reason ↦ ?_, fun files' path' ring' strings' hload' h' i hi hi' hsame ↦ ?_⟩
    · rw [← size_ofStrings] at hi ⊢
      exact identity_of_length_le hi
    · rw [identity_eq_decodeFailure_iff]
      refine and_congr_right fun _ ↦ ⟨?_, ?_⟩
      · rintro ⟨entry, e, hentry, hdecode, hreason⟩
        have hi : i < strings.length := by
          rw [← size_ofStrings]
          exact (List.getElem?_eq_some_iff.1 hentry).1
        rw [getElem?_ofStrings hi] at hentry
        cases hentry
        exact ⟨hi, e, hdecode, hreason⟩
      · rintro ⟨hi, e, hdecode, hreason⟩
        exact ⟨_, e, getElem?_ofStrings hi, hdecode, hreason⟩
    · rw [hring hload' h', identity_eq_atIndex (getElem?_ofStrings hi), hsame,
        identity_eq_atIndex (getElem?_ofStrings hi')]

/-- Two files with the same first string. In the one the second string is no key; in the other
there is white space around the first, and an escape for one of its letters. A third file holds
a blank string, and none before it. -/
theorem load_whole_select_each_of_three :
    let files : Files := ⟨fun path ↦ .ok (Text.Utf8.encode (
      if path = "a" then "[\"CAES\", \"garbage\"]".toList
      else if path = "b" then " [\"\\tC\\u0041ES \"]\r\n".toList
      else "[\"CAES\", \"\\u2003\", \"\"]".toList))⟩
    ∃ ring ring', load files "a" = .ok ring ∧ load files "b" = .ok ring' ∧
      ring.identity 0 = ring'.identity 0 ∧
      ring.identity 1 = atIndex 1 ((⟨["garbage"]⟩ : Keyring).identity 0) ∧
      load files "c" = .error (.file "c" "entry 1 is blank") := by
  intro files
  have hholds (path : String) (text : List Char) (strings : List (List Char))
      (hbytes : files.bytes path = .ok (Text.Utf8.encode text))
      (harray : Json.stringArray? text = some strings) : Holds files path strings :=
    ⟨text, hbytes, Json.stringArray?_eq_some_iff.1 harray⟩
  have ha : Holds files "a" ["CAES".toList, "garbage".toList] :=
    hholds "a" _ _ rfl (by decide +kernel)
  have hb : Holds files "b" ["\tCAES ".toList] := hholds "b" _ _ rfl (by decide +kernel)
  have hc : Holds files "c" ["CAES".toList, "\u2003".toList, "".toList] :=
    hholds "c" _ _ rfl (by decide +kernel)
  obtain ⟨hloads, -, -, hselect⟩ := load_whole_select_each files "a"
  obtain ⟨ring, hring⟩ := hloads.2 ⟨_, ha, by decide, by decide⟩
  obtain ⟨hloads', -⟩ := load_whole_select_each files "b"
  obtain ⟨ring', hring'⟩ := hloads'.2 ⟨_, hb, by decide, by decide⟩
  obtain ⟨-, -, hblank, -⟩ := load_whole_select_each files "c"
  obtain ⟨hidentity, -, -, hsame⟩ := hselect ring _ hring ha
  exact ⟨ring, ring', hring, hring',
    hsame files "b" ring' _ hring' hb 0 (by decide) (by decide) (by decide),
    hidentity 1 (by decide), hblank _ 1 (by decide) hc (by decide) (by decide)⟩

end Overlay.Keyring
