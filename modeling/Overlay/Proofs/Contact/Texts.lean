import Overlay.Proofs.AddressBook.History
import Overlay.Proofs.Contact.Batch

/-!
# What contacts print and what texts name

A contact prints as its first address with its id behind it, and the id is left out where the
address ends in it already. Reading takes the id off the end in any case. So a text tells the id
and what stands before it, and no more (`parse_eq_ok_iff`), and printing a contact and reading it
again loses what a text cannot tell: all addresses but the first, an address that is empty, and
whether the address had the id at its end (`parse_render`).

That an address is read back as it was printed is assumed of the one address that is printed
(`Multiaddr.ReadsBack`); it is not true of every list of components, since a name may hold a slash.
What has to be proved besides is that reading does not trim the printed text: it begins with a
slash, since it is read as an address (`head?_of_parse`), and it ends in a symbol of base 58
(`isBlank_eq_false_of_mem_encode`).
-/

namespace Overlay

/-- No symbol of base 58 is white space. -/
theorem Bytes.Positional.isBlank_eq_false_of_mem_encode {c : Char} {bytes : List UInt8}
    (h : c ∈ base58.encode bytes) : Text.isBlank c = false := by
  have hsymbols : base58.symbols.all (fun s ↦ !Text.isBlank s) = true := by decide
  obtain ⟨d, -, rfl⟩ := List.mem_map.1 h
  rw [List.getD_eq_getElem?_getD]
  cases hd : base58.symbols[d]? with
  -- the mark for a digit that the alphabet lacks
  | none => rfl
  | some s =>
    have hs := List.all_eq_true.1 hsymbols s (List.mem_of_getElem? hd)
    rwa [Bool.not_eq_true'] at hs

/-! ### Texts of addresses -/

namespace Multiaddr

/-- The address is read back as it was printed. -/
def ReadsBack (addr : Multiaddr) : Prop := parse addr.render = .ok addr

instance (addr : Multiaddr) : Decidable addr.ReadsBack :=
  inferInstanceAs (Decidable (parse addr.render = .ok addr))

/-- A name with a slash prints as two pieces. -/
example : ¬ ReadsBack [.name .dns "a/b"] := by decide +kernel

/-- What is read is read from the pieces behind the slash at the front. -/
theorem exists_pieces_of_parse {text : String} {addr : Multiaddr} (h : parse text = .ok addr) :
    ∃ ps, text.toList = Text.joinPieces '/' ([] :: ps) ∧ readPieces ps = .ok addr := by
  rw [parse, parseChars] at h
  split at h
  · next ps hpieces =>
    exact ⟨ps, by rw [← hpieces, Text.joinPieces_pieces], h⟩
  · cases h

/-- A text that is read as an address is empty or begins with a slash. -/
theorem head?_of_parse {text : String} {addr : Multiaddr} (h : parse text = .ok addr) :
    ∀ c ∈ text.toList.head?, c = '/' := by
  obtain ⟨ps, htext, -⟩ := exists_pieces_of_parse h
  rw [htext]
  intro c hc
  cases ps with
  | nil => cases hc
  | cons p rest =>
    cases hc
    rfl

theorem map_cons_ne_ok_nil {rest : Except ParseError Multiaddr} {x : Component} :
    rest.map (x :: ·) ≠ .ok [] := by
  cases rest <;> exact fun h ↦ by cases h

/-- Every piece that is read gives a component or is the value of one. -/
theorem eq_nil_of_readPieces {ps : List (List Char)} (h : readPieces ps = .ok []) : ps = [] := by
  cases ps with
  | nil => rfl
  | cons name rest =>
    rw [readPieces.eq_def] at h
    dsimp only at h
    split at h
    · cases h
    · exact absurd h map_cons_ne_ok_nil
    · split at h
      · cases h
      · split at h
        · cases h
        · exact absurd h map_cons_ne_ok_nil

/-- **Only the empty text** is read as the empty address. -/
theorem parse_eq_ok_nil_iff {text : String} : parse text = .ok [] ↔ text = "" := by
  constructor
  · intro h
    obtain ⟨ps, htext, hps⟩ := exists_pieces_of_parse h
    rw [eq_nil_of_readPieces hps] at htext
    exact String.toList_inj.1 htext
  · rintro rfl
    rfl

/-! ### Addresses that end in a peer -/

/-- An address that ends in a peer ends with the symbols of the peer's id. -/
theorem toList_render_concat (base : Multiaddr) (id : PeerId) :
    (render (base ++ [.peer id])).toList =
      (render base).toList ++ ("/p2p/".toList ++ Bytes.Positional.base58.encode id.toBytes) := by
  rw [render, List.map_append, String.join_append, ← render, String.toList_append]
  congr 1
  rw [List.map_singleton, String.toList_join, List.flatMap_singleton, Component.render,
    String.toList_append, PeerId.render]
  exact congrArg ("/p2p/".toList ++ ·) String.toList_ofList

/-- What is printed of an address that ends in a peer is not trimmed when it is read. -/
theorem trim_render_concat {base : Multiaddr} {id : PeerId}
    (h : ReadsBack (base ++ [.peer id])) :
    Text.trim (render (base ++ [.peer id])) = render (base ++ [.peer id]) := by
  rw [Text.trim, ← String.toList_inj, String.toList_ofList]
  refine Text.trimChars_of_ends (fun c hc ↦ ?_) fun c hc ↦ ?_
  · rw [head?_of_parse h c hc]
    rfl
  · have hend : ∀ c ∈ "/p2p/".toList ++ Bytes.Positional.base58.encode id.toBytes,
        Text.isBlank c = false := by
      intro c hc
      rcases List.mem_append.1 hc with hc | hc
      · have hname : "/p2p/".toList.all (fun c ↦ !Text.isBlank c) = true := by decide
        have hc := List.all_eq_true.1 hname c hc
        rwa [Bool.not_eq_true'] at hc
      · exact Bytes.Positional.isBlank_eq_false_of_mem_encode hc
    rw [toList_render_concat, List.getLast?_append_of_ne_nil] at hc
    · exact hend c (List.mem_of_getLast? hc)
    · exact List.append_ne_nil_of_left_ne_nil (by decide) _

end Multiaddr

/-! ### What texts name -/

namespace Contact

/-- The contact with an address, or without any if the address is empty. -/
def located (id : PeerId) (addr : Multiaddr) : Contact := ⟨id, if addr = [] then [] else [addr]⟩

/-- All that reading a text can come to. -/
inductive Reads (text : String) : Except AddressError Contact → Prop
  | blank (h : Text.trim text = "") : Reads text (.error (.malformed text "empty address"))
  | malformed {e : Multiaddr.ParseError} (h : Multiaddr.parse (Text.trim text) = .error e) :
      Reads text (.error (.malformed (Text.trim text) e.message))
  /-- An address that does not end in a peer. -/
  | nameless {before : Multiaddr} {last : Component}
      (h : Multiaddr.parse (Text.trim text) = .ok (before ++ [last]))
      (hlast : ∀ id, last ≠ .peer id) : Reads text (.error (.missingPeerId (Text.trim text)))
  | contact {base : Multiaddr} {id : PeerId}
      (h : Multiaddr.parse (Text.trim text) = .ok (base ++ [.peer id])) :
      Reads text (.ok (located id base))

theorem ofMultiaddr?_concat_peer (base : Multiaddr) (id : PeerId) :
    ofMultiaddr? (base ++ [.peer id]) = some (located id base) := by
  rw [ofMultiaddr?, Multiaddr.endsInPeer?, List.getLast?_concat, List.dropLast_concat, located]

theorem ofMultiaddr?_concat_of_ne {last : Component} (hlast : ∀ id, last ≠ .peer id)
    (before : Multiaddr) : ofMultiaddr? (before ++ [last]) = none := by
  rw [ofMultiaddr?, Multiaddr.endsInPeer?, List.getLast?_concat]
  cases last with
  | peer id => exact absurd rfl (hlast id)
  | _ => rfl

/-- A text that is read as an address that is not empty is not blank. -/
theorem trim_ne_empty_of_parse {text : String} {before : Multiaddr} {last : Component}
    (h : Multiaddr.parse (Text.trim text) = .ok (before ++ [last])) : Text.trim text ≠ "" := by
  intro hblank
  rw [Multiaddr.parse_eq_ok_nil_iff.2 hblank] at h
  exact absurd (Except.ok.inj h).symm (List.append_ne_nil_of_right_ne_nil before (by simp))

/-- **Reading a text** comes to exactly one of these. -/
theorem reads_iff {text : String} {result : Except AddressError Contact} :
    Reads text result ↔ parse text = result := by
  constructor
  · intro h
    cases h with
    | blank h => exact parse_of_blank h
    | malformed h =>
      have hblank : Text.trim text ≠ "" := fun hblank ↦ by
        rw [Multiaddr.parse_eq_ok_nil_iff.2 hblank] at h
        cases h
      simp only [parse, if_neg hblank, h]
    | nameless h hlast =>
      simp only [parse, if_neg (trim_ne_empty_of_parse h), h, ofMultiaddr?_concat_of_ne hlast]
    | contact h =>
      simp only [parse, if_neg (trim_ne_empty_of_parse h), h, ofMultiaddr?_concat_peer]
  · rintro rfl
    by_cases hblank : Text.trim text = ""
    · rw [parse_of_blank hblank]
      exact .blank hblank
    · cases h : Multiaddr.parse (Text.trim text) with
      | error e =>
        simp only [parse, if_neg hblank, h]
        exact .malformed h
      | ok addr =>
        simp only [parse, if_neg hblank, h]
        obtain rfl | ⟨before, last, rfl⟩ := List.eq_nil_or_concat' addr
        · exact absurd (Multiaddr.parse_eq_ok_nil_iff.1 h) hblank
        · by_cases hlast : ∃ id, last = .peer id
          · obtain ⟨id, rfl⟩ := hlast
            rw [ofMultiaddr?_concat_peer]
            exact .contact h
          · rw [not_exists] at hlast
            rw [ofMultiaddr?_concat_of_ne hlast]
            exact .nameless h hlast

/-- What stands before the id at the end of the text is the address of the contact. -/
theorem parse_eq_ok_iff {text : String} {c : Contact} :
    parse text = .ok c ↔
      (c.addresses = [] ∧ Multiaddr.parse (Text.trim text) = .ok [.peer c.id]) ∨
        ∃ addr ≠ [], c.addresses = [addr] ∧
          Multiaddr.parse (Text.trim text) = .ok (addr ++ [.peer c.id]) := by
  rw [← reads_iff]
  constructor
  · intro h
    cases h with
    | @contact base id h =>
      by_cases hbase : base = []
      · subst hbase
        exact .inl ⟨rfl, h⟩
      · exact .inr ⟨base, hbase, if_neg hbase, h⟩
  · obtain ⟨id, addresses⟩ := c
    rintro (⟨rfl, h⟩ | ⟨addr, haddr, rfl, h⟩)
    · exact @Reads.contact _ [] id h
    · have hcontact := Reads.contact h
      rwa [located, if_neg haddr] at hcontact

theorem parse_eq_missingPeerId_iff {text input : String} :
    parse text = .error (.missingPeerId input) ↔
      input = Text.trim text ∧ ∃ before last,
        Multiaddr.parse (Text.trim text) = .ok (before ++ [last]) ∧ ∀ id, last ≠ .peer id := by
  rw [← reads_iff]
  constructor
  · intro h
    cases h with
    | nameless h hlast => exact ⟨rfl, _, _, h, hlast⟩
  · rintro ⟨rfl, before, last, h, hlast⟩
    exact .nameless h hlast

theorem exists_parse_eq_malformed_iff {text : String} :
    (∃ input reason, parse text = .error (.malformed input reason)) ↔
      Text.trim text = "" ∨ ∃ e, Multiaddr.parse (Text.trim text) = .error e := by
  simp only [← reads_iff]
  constructor
  · rintro ⟨input, reason, h⟩
    cases h with
    | blank h => exact .inl h
    | malformed h => exact .inr ⟨_, h⟩
  · rintro (h | ⟨e, h⟩)
    · exact ⟨_, _, .blank h⟩
    · exact ⟨_, _, .malformed h⟩

/-! ### What contacts print -/

/-- **A contact is read back** as its id and what stands before the id in its first address. -/
theorem parse_render {c : Contact} {addr : Multiaddr} {more : List Multiaddr}
    (haddresses : c.addresses = addr :: more) (h : (addr.withPeer c.id).ReadsBack) :
    parse c.render = .ok (located c.id (addr.withoutPeer c.id)) := by
  rw [render, haddresses]
  dsimp only
  rw [Multiaddr.withPeer_eq] at h ⊢
  refine reads_iff.1 (.contact ?_)
  rw [Multiaddr.trim_render_concat h]
  exact h

/-- Nothing is lost if the first address is the only one, and neither empty nor such that its end
looks like the id that is put behind it. -/
theorem located_withoutPeer_eq_iff {c : Contact} {addr : Multiaddr} {more : List Multiaddr}
    (haddresses : c.addresses = addr :: more) :
    located c.id (addr.withoutPeer c.id) = c ↔
      more = [] ∧ addr ≠ [] ∧ addr.endsInPeer? ≠ some c.id := by
  obtain ⟨id, addresses⟩ := c
  subst haddresses
  rw [located, Contact.mk.injEq, and_iff_right rfl, Multiaddr.withoutPeer]
  by_cases hends : addr.endsInPeer? = some id
  · -- what stands before the id is shorter than the address
    rw [if_pos hends]
    refine iff_of_false (fun h ↦ ?_) fun h ↦ h.2.2 hends
    split at h
    · cases h
    · have hshort := congrArg List.length (Multiaddr.eq_dropLast_append hends)
      rw [(List.cons.inj h).1, List.length_append, List.length_singleton] at hshort
      omega
  · rw [if_neg hends]
    by_cases hempty : addr = []
    · rw [if_pos hempty]
      exact iff_of_false (fun h ↦ by cases h) fun h ↦ h.2.1 hempty
    · rw [if_neg hempty, List.cons.injEq, and_iff_right rfl]
      exact ⟨fun h ↦ ⟨h.symm, hempty, hends⟩, fun h ↦ h.1.symm⟩

/-- **What is printed and what is read.**

1. A contact with an address is read back from its text, with the same id. It is the same contact
   exactly if the address is its only one, is not empty, and does not end in the contact's id. All
   that is assumed is that the address that was printed is read back.
2. What a text is read as tells what the text is: a bare peer id, or the contact's only address and
   the id behind it, white space around it apart.
3. A text lacks a peer id exactly if it is a nonempty address whose last component is no peer.
4. A text is malformed exactly if it is blank or no address. -/
theorem texts_and_contacts :
    (∀ (c : Contact) (addr : Multiaddr) (more : List Multiaddr), c.addresses = addr :: more →
        (addr.withPeer c.id).ReadsBack →
        ∃ shown, parse c.render = .ok shown ∧ shown.id = c.id ∧
          (shown = c ↔ more = [] ∧ addr ≠ [] ∧ addr.endsInPeer? ≠ some c.id)) ∧
      (∀ (text : String) (c : Contact), parse text = .ok c ↔
        (c.addresses = [] ∧ Multiaddr.parse (Text.trim text) = .ok [.peer c.id]) ∨
          ∃ addr ≠ [], c.addresses = [addr] ∧
            Multiaddr.parse (Text.trim text) = .ok (addr ++ [.peer c.id])) ∧
      (∀ text, (∃ input, parse text = .error (.missingPeerId input)) ↔
        ∃ before last, Multiaddr.parse (Text.trim text) = .ok (before ++ [last]) ∧
          ∀ id, last ≠ .peer id) ∧
      (∀ text, (∃ input reason, parse text = .error (.malformed input reason)) ↔
        Text.trim text = "" ∨ ∃ e, Multiaddr.parse (Text.trim text) = .error e) := by
  refine ⟨fun c addr more haddresses h ↦ ?_, fun text c ↦ parse_eq_ok_iff, fun text ↦ ?_,
    fun text ↦ exists_parse_eq_malformed_iff⟩
  · exact ⟨_, parse_render haddresses h, rfl, located_withoutPeer_eq_iff haddresses⟩
  · simp only [parse_eq_missingPeerId_iff, exists_eq_left]

/-- A contact at a relay: its address holds another peer and a circuit, and names as they are
written. It is read back from its text, blanks around the text or not. -/
theorem texts_and_contacts_of_relay :
    let relay : PeerId := ⟨⟨0, [1]⟩, rfl⟩
    let addr : Multiaddr := [.name .dns "a relay", .port .tcp 443, .peer relay, .circuit]
    let c : Contact := ⟨⟨⟨0, []⟩, rfl⟩, [addr]⟩
    (addr.withPeer c.id).ReadsBack ∧ addr ≠ [] ∧ addr.endsInPeer? ≠ some c.id ∧
      parse c.render = .ok c ∧ parse ("\u2003" ++ c.render ++ "\r\n") = .ok c := by
  intro relay addr c
  have hreads : (addr.withPeer c.id).ReadsBack := by decide +kernel
  have hempty : addr ≠ [] := List.cons_ne_nil _ _
  have hends : addr.endsInPeer? ≠ some c.id := by decide
  obtain ⟨hprint, hread, -, -⟩ := texts_and_contacts
  obtain ⟨shown, hshown, -, hsame⟩ := hprint c addr [] rfl hreads
  rw [hsame.2 ⟨rfl, hempty, hends⟩] at hshown
  exact ⟨hreads, hempty, hends, hshown,
    (hread _ c).2 (.inr ⟨addr, hempty, rfl, by decide +kernel⟩)⟩

end Contact

end Overlay
