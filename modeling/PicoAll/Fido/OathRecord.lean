import PicoAll.Fido.OathStep
import PicoAll.Fs.TlvEdit

/-!
# Records of OATH credentials

What a record says of its credential (`oathCredential`), and that what the commands do to a record, to
seal its key, to count its moving factor up, to give it another name or to make it longer, changes
what it says in the one place and nowhere else.
-/

namespace PicoAll

open BigEndian ByteBuffer FaultProgram List Function

variable {C : OathCrypto} {data : Bytes} {draw : ℕ}

/-- What a record says: the key, not encrypted, and the values under the other tags. -/
structure OathCredential where
  /-- The type and the hash, the digits, and the secret. -/
  key : Bytes
  /-- The values. -/
  item : ℕ → Option Bytes

/-- The credential of a record. -/
def oathCredential (C : OathCrypto) (data : Bytes) : Option OathCredential :=
  (oathLoadKey C data).toOption.map fun key ↦
    ⟨key, fun tag ↦ if tag = tagKey then none else tlvFindTag tag data⟩

variable {cred : OathCredential} {key : Bytes}

/-- A key is loaded if it is there, can be decrypted, and is long enough. -/
theorem oathLoadKey_ok_iff : oathLoadKey C data = .ok key ↔
    ∃ stored, tlvFindTag tagKey data = some stored ∧ oathDecryptKey C stored = some key ∧
      2 ≤ key.length := by
  rw [oathLoadKey]
  rcases tlvFindTag tagKey data with - | stored
  · simp
  · rcases hkey : oathDecryptKey C stored with - | key'
    · simp [hkey]
    · rcases Nat.lt_or_ge key'.length 2 with hshort | hlong
      · simp only [hkey, if_pos hshort]
        refine ⟨fun h ↦ absurd h (by simp), ?_⟩
        rintro ⟨stored', hfound, hsome, hle⟩
        obtain rfl := Option.some.inj hfound
        obtain rfl := Option.some.inj (hkey.symm.trans hsome)
        omega
      · simp only [hkey, if_neg (Nat.not_lt.mpr hlong)]
        refine ⟨fun h ↦ ⟨stored, rfl, hkey.trans (congrArg some (Except.ok.inj h)), ?_⟩, ?_⟩
        · exact Except.ok.inj h ▸ hlong
        · rintro ⟨stored', hfound, hsome, -⟩
          obtain rfl := Option.some.inj hfound
          exact congrArg Except.ok (Option.some.inj (hkey.symm.trans hsome))

/-- A record says something of a credential when its key can be loaded. -/
theorem oathCredential_eq_some_iff {cred : OathCredential} : oathCredential C data = some cred ↔
    oathLoadKey C data = .ok cred.key ∧
      cred.item = fun tag ↦ if tag = tagKey then none else tlvFindTag tag data := by
  rw [oathCredential, Option.map_eq_some_iff]
  rcases oathLoadKey C data with w | key
  · simp [Except.toOption]
  · constructor
    · rintro ⟨key', hkey, rfl⟩
      exact ⟨congrArg Except.ok (Option.some.inj hkey), rfl⟩
    · rintro ⟨hkey, hitem⟩
      exact ⟨cred.key, congrArg some (Except.ok.inj hkey), by rw [← hitem]⟩

theorem oathLoadKey_of_find {data' : Bytes} (h : tlvFindTag tagKey data' = tlvFindTag tagKey data) :
    oathLoadKey C data' = oathLoadKey C data := by
  rw [oathLoadKey, oathLoadKey, h]

/-- A record whose items are the same but for one says the same but for it. -/
theorem oathCredential_of_find {data' value : Bytes} {tag : ℕ} (htag : tag ≠ tagKey)
    (hcred : oathCredential C data = some cred)
    (h : ∀ t, tlvFindTag t data' = if t = tag then some value else tlvFindTag t data) :
    oathCredential C data' = some { cred with item := Function.update cred.item tag (some value) } := by
  have hkey := oathLoadKey_of_find (C := C) ((h tagKey).trans (if_neg htag.symm))
  rw [oathCredential_eq_some_iff] at hcred ⊢
  refine ⟨hkey.trans hcred.1, funext fun t ↦ ?_⟩
  dsimp only
  rcases eq_or_ne t tag with rfl | hne
  · rw [if_neg htag, h, if_pos rfl, update_self]
  · rw [h, if_neg hne, update_of_ne hne, hcred.2]

/-! ### Sealing the key -/

theorem tlvAppend_header {tag : ℕ} {tagBytes value : Bytes} (htag : TlvTagField tag tagBytes)
    (hlen : value.length ≤ 0xffff) : ∃ header, tlvAppend tag value = header ++ value ∧
      TlvHeader tag value.length header := by
  refine ⟨tagBytes ++ tlvFormatLen value.length, ?_, .mk htag (tlvFormatLen_field hlen)⟩
  cases htag with
  | one b h =>
    have hle : ¬b.toNat > 0xff := by have := b.toNat_lt; omega
    simp [tlvAppend, hle]
  | two b b' h =>
    have hne : b.toNat ≠ 0 := by
      intro hzero
      obtain rfl : b = 0 := UInt8.toNat_inj.mp hzero
      exact absurd h (by decide)
    have hlt := b'.toNat_lt
    have hhigh : (b.toNat * 256 + b'.toNat) / 256 = b.toNat := by omega
    have hlow : UInt8.ofNat (b.toNat * 256 + b'.toNat) = b' := by
      refine UInt8.toNat_inj.mp ?_
      rw [UInt8.toNat_ofNat']
      omega
    simp [tlvAppend, hhigh, hlow, show b.toNat * 256 + b'.toNat > 255 by omega]

/-- Items that are written again are read again. -/
theorem tlvPrefix_append {pairs : List (ℕ × Bytes)}
    (h : ∀ pair ∈ pairs, (∃ tagBytes, TlvTagField pair.1 tagBytes) ∧ pair.2.length ≤ 0xffff) :
    TlvPrefix (pairs.flatMap fun pair ↦ tlvAppend pair.1 pair.2) pairs := by
  induction pairs with
  | nil => exact .nil
  | cons pair pairs ih =>
    obtain ⟨⟨tagBytes, htag⟩, hlen⟩ := h pair (mem_cons_self ..)
    obtain ⟨header, happend, hheader⟩ := tlvAppend_header htag hlen
    rw [flatMap_cons, happend]
    exact hheader.tlvPrefix.append (ih fun pair hpair ↦ h pair (mem_cons_of_mem _ hpair))

/-- The items of a record with another value for the key. -/
def withKey (key : Bytes) (pairs : List (ℕ × Bytes)) : List (ℕ × Bytes) :=
  pairs.map fun pair ↦ (pair.1, if pair.1 = tagKey then key else pair.2)

theorem find_withKey (key : Bytes) (pairs : List (ℕ × Bytes)) (tag : ℕ) :
    ((withKey key pairs).find? (·.1 = tag)).map (·.2) =
      ((pairs.find? (·.1 = tag)).map (·.2)).map fun value ↦ if tag = tagKey then key else value := by
  rw [withKey, find?_map, Option.map_map, Option.map_map]
  refine Option.map_congr fun pair hpair ↦ ?_
  have htag : pair.1 = tag := by simpa using find?_some hpair
  simp [htag]

/-- What is written for a key that is not encrypted yet. -/
theorem oathSealedData_of_plain (hkey : tlvFindTag tagKey data = some key)
    (hplain : oathKeyIsSecure key = false) :
    oathSealedData C draw data = (oathEncryptKey C draw key).map fun encrypted ↦
      (withKey encrypted (tlvPairs data)).flatMap fun pair ↦ tlvAppend pair.1 pair.2 := by
  simp only [oathSealedData, hkey, hplain, withKey, tlvPairs, map_map, flatMap_map]
  rfl

theorem oathSealedData_of_none (hkey : tlvFindTag tagKey data = none) :
    oathSealedData C draw data = some data := by
  simp only [oathSealedData, hkey]

theorem oathSealedData_of_secure (hkey : tlvFindTag tagKey data = some key)
    (hsecure : oathKeyIsSecure key = true) : oathSealedData C draw data = some data := by
  simp only [oathSealedData, hkey, hsecure, if_true]

theorem oathEncryptKey_spec {encrypted : Bytes} (h : oathEncryptKey C draw key = some encrypted) :
    encrypted.length ≤ 0xffff ∧ (key ≠ [] → oathKeyIsSecure encrypted = true ∧
      oathDecryptKey C encrypted = some key) := by
  have hover : oathSecureKeyOverhead = 33 := rfl
  rw [oathEncryptKey, hover] at h
  split_ifs at h with hlen
  obtain rfl := Option.some.inj h
  have hlength : (oathSecureKeyHeader ++ C.encryptWithAad draw key).length = 33 + key.length := by
    rw [length_append, C.length_encryptWithAad, oathSecureKeyHeader]
    simp only [length_cons, length_nil]
    omega
  refine ⟨by omega, fun hne ↦ ?_⟩
  have hpos := length_pos_iff.mpr hne
  have hsecure : oathKeyIsSecure (oathSecureKeyHeader ++ C.encryptWithAad draw key) = true := by
    rw [oathKeyIsSecure, hlength, hover, Bool.and_eq_true]
    exact ⟨decide_eq_true (by omega), by simp [oathSecureKeyHeader]⟩
  refine ⟨hsecure, ?_⟩
  rw [oathDecryptKey, if_neg (by omega), if_pos hsecure,
    drop_left' (show oathSecureKeyHeader.length = 5 from rfl), C.decryptWithAad_encryptWithAad]

/-- A key that is not encrypted is decrypted to itself. -/
theorem oathDecryptKey_of_plain {stored : Bytes} (hplain : oathKeyIsSecure stored = false)
    (h : oathDecryptKey C stored = some key) : stored = key := by
  have hnot : ¬oathKeyIsSecure stored = true := by simp [hplain]
  rw [oathDecryptKey, if_neg hnot] at h
  split_ifs at h
  exact Option.some.inj h

/-- A record whose key is sealed, or need not be, in its place. -/
structure SealedOf (C : OathCrypto) (data content : Bytes) : Prop where
  /-- It says what the record says. -/
  reads : ∀ cred, oathCredential C data = some cred → oathCredential C content = some cred
  /-- It is made of whole items if the record was. -/
  complete : TlvComplete data → TlvComplete content
  /-- It is not sealed again. -/
  settled : ∀ cred, oathCredential C data = some cred →
    ∀ draw, oathSealedData C draw content = some content

/-- **Sealing** a key. -/
theorem oathSealedData_spec {content : Bytes} (h : oathSealedData C draw data = some content) :
    SealedOf C data content := by
  rcases hkey : tlvFindTag tagKey data with - | key
  · obtain rfl := Option.some.inj (h.symm.trans (oathSealedData_of_none hkey))
    exact ⟨fun _ h ↦ h, id, fun _ _ _ ↦ oathSealedData_of_none hkey⟩
  rcases hsecure : oathKeyIsSecure key with - | -
  · rw [oathSealedData_of_plain hkey hsecure, Option.map_eq_some_iff] at h
    obtain ⟨encrypted, hencrypted, rfl⟩ := h
    obtain ⟨hlen, hreads⟩ := oathEncryptKey_spec hencrypted
    have hprefix : TlvPrefix ((withKey encrypted (tlvPairs data)).flatMap
        fun pair ↦ tlvAppend pair.1 pair.2) (withKey encrypted (tlvPairs data)) := by
      refine tlvPrefix_append fun pair hpair ↦ ?_
      rw [withKey, tlvPairs, map_map, mem_map] at hpair
      obtain ⟨item, hitem, rfl⟩ := hpair
      obtain ⟨htag, hvalue⟩ := tlvItems_field hitem
      refine ⟨htag, ?_⟩
      dsimp only [comp_apply]
      split_ifs
      · exact hlen
      · exact hvalue
    have hfind : ∀ tag, tlvFindTag tag ((withKey encrypted (tlvPairs data)).flatMap
        fun pair ↦ tlvAppend pair.1 pair.2) =
          (tlvFindTag tag data).map fun value ↦ if tag = tagKey then encrypted else value := by
      intro tag
      rw [tlvFindTag_eq, hprefix.pairs_eq, find_withKey, ← tlvFindTag_eq]
    have hkey' := (hfind tagKey).trans (congrArg (Option.map _) hkey)
    -- the key that is loaded is the one that was sealed
    have hload : ∀ cred, oathCredential C data = some cred → cred.key = key ∧ 2 ≤ key.length := by
      intro cred hcred
      obtain ⟨hok, -⟩ := oathCredential_eq_some_iff.mp hcred
      obtain ⟨stored, hstored, hdecrypt, hlong⟩ := oathLoadKey_ok_iff.mp hok
      obtain rfl := Option.some.inj (hkey.symm.trans hstored)
      obtain rfl := oathDecryptKey_of_plain hsecure hdecrypt
      exact ⟨rfl, hlong⟩
    have hne : ∀ cred, oathCredential C data = some cred → key ≠ [] := by
      rintro cred hcred rfl
      exact absurd (hload cred hcred).2 (by simp)
    refine ⟨fun cred hcred ↦ ?_, fun _ ↦ hprefix.complete, fun cred hcred draw ↦ ?_⟩
    · rw [oathCredential_eq_some_iff]
      obtain ⟨rfl, hlong⟩ := hload cred hcred
      refine ⟨oathLoadKey_ok_iff.mpr ⟨_, hkey', (hreads (hne cred hcred)).2, hlong⟩, ?_⟩
      rw [(oathCredential_eq_some_iff.mp hcred).2]
      funext tag
      rw [hfind]
      split_ifs with htag
      · rfl
      · rw [Option.map_id']
    · exact oathSealedData_of_secure hkey' (hreads (hne cred hcred)).1
  · obtain rfl := Option.some.inj (h.symm.trans (oathSealedData_of_secure hkey hsecure))
    exact ⟨fun _ h ↦ h, id, fun _ _ _ ↦ oathSealedData_of_secure hkey hsecure⟩

/-! ### Editing an item -/

section Edit

variable {item : TlvItem} {before header : Bytes} {tag : ℕ}

theorem tlvFindTag_of_find (h : tlvFind tag data = some item) :
    tlvFindTag tag data = some item.value := by
  rw [tlvFindTag, h]
  rfl

theorem slice_context (h : TlvContext data item before header) {n : ℕ} (hn : n ≤ item.value.length) :
    slice data (tlvOffset data item) n = item.value.take n := by
  conv_lhs => rw [h.offset, h.split, append_assoc (before ++ header)]
  rw [slice, drop_left, take_append_of_le_length hn]

theorem patch_context (h : TlvContext data item before header) {bytes : Bytes}
    (hlen : bytes.length ≤ item.value.length) :
    patch data (tlvOffset data item) bytes =
      before ++ header ++ (bytes ++ item.value.drop bytes.length) ++ item.rest := by
  conv_lhs => rw [h.offset, h.split, append_assoc (before ++ header)]
  rw [patch, take_left, drop_append, drop_eq_nil_of_le (by omega), nil_append,
    Nat.add_sub_cancel_left, drop_append_of_le_length hlen]
  simp only [append_assoc]

/-- A record in which an item has another header and another value. -/
structure EditOf (C : OathCrypto) (data : Bytes) (tag : ℕ) (value data' : Bytes) : Prop where
  /-- It says what the record says but for the one value. -/
  reads : tag ≠ tagKey → ∀ cred, oathCredential C data = some cred →
    oathCredential C data' = some { cred with item := Function.update cred.item tag (some value) }
  /-- It is made of whole items if the record was. -/
  complete : TlvComplete data → TlvComplete data'

theorem TlvContext.edit (h : TlvContext data item before header) {header' value : Bytes}
    (hheader : TlvHeader item.tag value.length header') :
    EditOf C data item.tag value (before ++ header' ++ value ++ item.rest) where
  reads htag _ hcred := oathCredential_of_find htag hcred (h.findTag_replace hheader)
  complete hcomplete := h.complete_replace hcomplete hheader

/-- **Patching a value.** -/
theorem editOf_patch {bytes : Bytes} (hitem : tlvFind tag data = some item)
    (hne : item.value ≠ []) (hlen : bytes.length ≤ item.value.length) :
    EditOf C data tag (bytes ++ item.value.drop bytes.length)
      (patch data (tlvOffset data item) bytes) := by
  obtain ⟨rfl, before, header, hcontext⟩ := tlvFind_context hitem (.inl (by simp [hne]))
  have hlength : (bytes ++ item.value.drop bytes.length).length = item.value.length := by
    rw [length_append, length_drop]
    omega
  rw [patch_context hcontext hlen]
  exact hcontext.edit (hlength ▸ hcontext.header)

end Edit

/-! ### What the commands do to a record -/

/-- The name is repeated in the metadata. -/
theorem oathCredentialMetadata_spec {metadata : Bytes}
    (h : oathCredentialMetadata data = some metadata) :
    tlvFindTag tagName metadata = tlvFindTag tagName data ∧ metadata ≠ [] ∧
      metadata.length ≤ 0xffff := by
  obtain ⟨name, hname, h⟩ := Option.bind_eq_some_iff.mp h
  obtain ⟨key, -, h⟩ := Option.bind_eq_some_iff.mp h
  obtain ⟨hbad, h⟩ := Option.ite_none_left_eq_some.mp h
  obtain rfl := Option.some.inj h
  have hlen : name.length ≤ 0xffff := by
    rw [tlvFindTag, Option.map_eq_some_iff] at hname
    obtain ⟨item, hitem, rfl⟩ := hname
    exact (tlvItems_field (mem_of_find?_eq_some hitem)).2
  obtain ⟨header, happend, hheader⟩ := tlvAppend_header (.one 0x71 (by decide)) hlen
  have happend : tlvAppend tagName name = header ++ name := happend
  have hprefix : TlvPrefix (tlvAppend tagName name) [(tagName, name)] := happend ▸ hheader.tlvPrefix
  refine ⟨?_, ?_, Nat.le_of_not_lt fun hlt ↦ hbad (.inr hlt)⟩
  · rw [append_assoc, append_assoc, hprefix.findTag_append, tlvFindTag_eq tagName (tlvAppend ..),
      hprefix.pairs_eq, hname]
    rfl
  · simp [tlvAppend]

end PicoAll
