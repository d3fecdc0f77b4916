import Overlay.Keyring
import Overlay.Proofs.Bytes.Base64
import Overlay.Proofs.Json.Strings
import Overlay.Proofs.Text.Blank

/-!
# Key rings read back

The text of fresh keys goes through four formats, and each is read back on its own: the array of
strings and the base 64 of an entry by their own theories, the key message here
(`KeyMessage.decode?_encode`), and the check that the public key belongs to the seed because it
was derived from it (`Keypair.ofMessage_privateMessage`). An entry thus gives its key pair
(`decodeEntry_encodeEntry`), and the file of a list of keys loads as a ring whose identities are
these keys in this order (`load_renderFile`).
-/

namespace Overlay.Keyring

/-! ### Key messages -/

namespace KeyMessage

/-- A number below 128 is one byte. -/
theorem readVarint_cons {b : UInt8} (hb : b.toNat < 128) (rest : List UInt8) :
    readVarint 0 0 (b :: rest) = some (b.toNat, rest) := by
  have hsmall : ¬ 128 ≤ b.toNat := Nat.not_le.2 hb
  show (if 128 ≤ b.toNat then _ else some (0 + b.toNat % 128 * 1, rest)) = _
  rw [if_neg hsmall, Nat.mod_eq_of_lt hb, Nat.mul_one, Nat.zero_add]

/-- A known field is read into the message. -/
theorem readFields_known {bytes rest rest' : List UInt8} {key : Key} {message message' : KeyMessage}
    (fuel : Nat) (hkey : readKey bytes = some (key, rest))
    (hnumber : key.number = 1 ∨ key.number = 2)
    (hknown : readKnown key rest message = some (message', rest')) :
    readFields (fuel + 1) [] message bytes = readFields fuel [] message' rest' := by
  have hbytes : bytes ≠ [] := fun h ↦ by
    rw [h] at hkey
    cases hkey
  rw [readFields]
  · simp only [hkey, if_pos hnumber, hknown]
  · exact fun _ h ↦ hbytes h

/-- **A written message is read back.** -/
theorem decode?_encode {kind : UInt8} {data : List UInt8} (hkind : kind.toNat < 128)
    (hdata : data.length < 128) :
    decode? (encode kind data) = some ⟨UInt32.ofNat kind.toNat, data⟩ := by
  have hlength : (UInt8.ofNat data.length).toNat = data.length :=
    UInt8.toNat_ofNat_of_lt' (Nat.lt_trans hdata (by decide))
  have hkindKey (rest : List UInt8) : readKey (0x08 :: rest) = some (⟨1, 0⟩, rest) := by
    rw [readKey, readVarint_cons (by decide)]
    rfl
  have hkindValue (rest : List UInt8) : readKnown ⟨1, 0⟩ (kind :: rest) empty =
      some (⟨UInt32.ofNat kind.toNat, []⟩, rest) := by
    rw [readKnown, readVarint_cons hkind]
    rfl
  have hdataKey (rest : List UInt8) : readKey (0x12 :: rest) = some (⟨2, 2⟩, rest) := by
    rw [readKey, readVarint_cons (by decide)]
    rfl
  have hdataValue (message : KeyMessage) :
      readKnown ⟨2, 2⟩ (UInt8.ofNat data.length :: data) message =
        some ({ message with data }, []) := by
    rw [readKnown, readVarint_cons (by rwa [hlength])]
    simp [hlength]
  rw [decode?, encode]
  show readFields (data.length + 4) [] empty
    (0x08 :: kind :: 0x12 :: UInt8.ofNat data.length :: data) = _
  rw [readFields_known _ (hkindKey _) (Or.inl rfl) (hkindValue _),
    readFields_known _ (hdataKey _) (Or.inr rfl) (hdataValue _), readFields]

end KeyMessage

/-! ### Entries -/

theorem Keypair.length_data (k : Keypair) : (k.seed ++ k.publicKey).length = 64 := by
  rw [List.length_append, k.length_eq, publicKey, Crypto.Ed25519.length_publicKey]

theorem Keypair.ofData?_data (k : Keypair) : ofData? (k.seed ++ k.publicKey) = some k := by
  have hseed : ofSeed? k.seed = some k := dif_pos k.length_eq
  rw [ofData?, List.take_left' k.length_eq, List.drop_left' k.length_eq, hseed]
  exact if_pos rfl

/-- **A private key message gives its key pair**, because the public key in it was derived from
the seed. -/
theorem Keypair.ofMessage_privateMessage (k : Keypair) : ofMessage k.privateMessage = .ok k := by
  have hlength : (k.seed ++ k.publicKey).length < 128 := by
    rw [k.length_data]
    decide
  have hkind : (UInt32.ofNat ed25519.toNat).toNat = 1 := by decide
  rw [ofMessage, privateMessage, KeyMessage.decode?_encode (by decide) hlength]
  simp only [hkind, k.ofData?_data]

/-- **An entry gives its key pair.** -/
theorem decodeEntry_encodeEntry (k : Keypair) : decodeEntry (encodeEntry k) = .ok k := by
  rw [decodeEntry, encodeEntry, Bytes.Base64.decode_encode]
  simp only [k.ofMessage_privateMessage]

theorem toList_encodeEntry_ne_nil (k : Keypair) : (encodeEntry k).toList ≠ [] :=
  Bytes.Base64.toList_encode_ne_nil (List.cons_ne_nil _ _)

/-- An entry has no white space that trimming would take away. -/
theorem trimChars_encodeEntry (k : Keypair) :
    Text.trimChars (encodeEntry k).toList = (encodeEntry k).toList :=
  Text.trimChars_of_forall fun _ hc ↦ Bytes.Base64.not_blank_of_mem_encode hc

/-! ### Files of fresh keys -/

/-- **The content of a file of fresh keys** is the ring of their entries. -/
theorem ofContent_renderFile {keys : List Keypair} (hne : keys ≠ []) {space : List Char}
    (hspace : space.all Json.isSpace = true) :
    ofContent ((renderFile keys).toList ++ space) = .ok ⟨keys.map encodeEntry⟩ := by
  have hentries : Json.stringArray? ((renderFile keys).toList ++ space) =
      some (keys.map fun k ↦ (encodeEntry k).toList) := by
    rw [renderFile, Json.stringArray?_prettyArray (mt List.map_eq_nil_iff.1 hne) hspace,
      List.map_map]
    rfl
  have hblank : (keys.map fun k ↦ (encodeEntry k).toList).findIdx?
      (fun e ↦ Text.trimChars e = []) = none := by
    refine List.findIdx?_eq_none_iff.2 fun e he ↦ ?_
    obtain ⟨k, -, rfl⟩ := List.mem_map.1 he
    rw [trimChars_encodeEntry]
    exact decide_eq_false (toList_encodeEntry_ne_nil k)
  have htrim : ((keys.map fun k ↦ (encodeEntry k).toList).map fun e ↦
      String.ofList (Text.trimChars e)) = keys.map encodeEntry := by
    rw [List.map_map]
    refine List.map_congr_left fun k _ ↦ ?_
    show String.ofList (Text.trimChars (encodeEntry k).toList) = encodeEntry k
    rw [trimChars_encodeEntry, String.ofList_toList]
  obtain ⟨k, rest, rfl⟩ := List.exists_cons_of_ne_nil hne
  rw [ofContent, hentries]
  simp only [List.map_cons] at hblank htrim ⊢
  simp only [hblank, htrim]

/-- **The key ring round trip.** A file that holds the text of fresh keys, with or without white
space behind it, is loaded; the ring has as many entries as there are keys, each index below that
number selects the key pair at this place with the peer id that it was announced with, and every
other index is out of range. -/
theorem load_renderFile {keys : List Keypair} (hne : keys ≠ []) {space : List Char}
    (hspace : space.all Json.isSpace = true) {files : Files} {path : String}
    (hbytes : files.bytes path = .ok (Text.Utf8.encode ((renderFile keys).toList ++ space))) :
    ∃ ring, load files path = .ok ring ∧ ring.size = keys.length ∧
      (∀ i (hi : i < keys.length), ∃ identity, ring.identity i = .ok identity ∧
        identity.index = i ∧ identity.keypair = keys[i] ∧ identity.peerId = keys[i].peerId) ∧
      ∀ i, keys.length ≤ i → ring.identity i = .error (.indexOutOfRange i keys.length) := by
  have hsize : (⟨keys.map encodeEntry⟩ : Keyring).size = keys.length := List.length_map _
  refine ⟨⟨keys.map encodeEntry⟩, ?_, hsize, fun i hi ↦ ⟨⟨i, keys[i]⟩, ?_, rfl, rfl, rfl⟩,
    fun i hi ↦ ?_⟩
  · rw [load, Files.text_of_bytes hbytes]
    simp only [ofContent_renderFile hne hspace]
  · have hentry : (keys.map encodeEntry)[i]? = some (encodeEntry keys[i]) := by
      rw [List.getElem?_map, List.getElem?_eq_getElem hi]
      rfl
    rw [identity]
    simp only [hentry, decodeEntry_encodeEntry]
  · have hnone : (keys.map encodeEntry)[i]? = none := by
      rw [List.getElem?_map, List.getElem?_eq_none hi]
      rfl
    rw [identity, hsize]
    simp only [hnone]

/-- Two keys, printed with a line feed behind them. -/
theorem load_renderFile_two :
    let first : Keypair := ⟨List.replicate 32 0, rfl⟩
    let second : Keypair := ⟨List.range 32 |>.map UInt8.ofNat, rfl⟩
    let keys := [first, second]
    let files : Files :=
      ⟨fun _ ↦ .ok (Text.Utf8.encode ((renderFile keys).toList ++ ['\n']))⟩
    keys ≠ [] ∧ ['\n'].all Json.isSpace = true ∧
      files.bytes "keyring.json" =
        .ok (Text.Utf8.encode ((renderFile keys).toList ++ ['\n'])) ∧
      ∃ ring, load files "keyring.json" = .ok ring ∧ ring.size = keys.length ∧
        (∀ i (hi : i < keys.length), ∃ identity, ring.identity i = .ok identity ∧
          identity.index = i ∧ identity.keypair = keys[i] ∧ identity.peerId = keys[i].peerId) ∧
        ∀ i, keys.length ≤ i → ring.identity i = .error (.indexOutOfRange i keys.length) := by
  intro first second keys files
  have hne : keys ≠ [] := List.cons_ne_nil _ _
  exact ⟨hne, rfl, rfl, load_renderFile hne rfl rfl⟩

end Overlay.Keyring
