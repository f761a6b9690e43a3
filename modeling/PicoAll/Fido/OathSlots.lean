import PicoAll.Fido.OathRecord

/-!
# Slots of OATH credentials

A slot holds a credential (`OathHolds`) when its record says so and, in a container, its metadata has
the name. A credential that is written is held (`wp_oathCredentialWrite`), and the commands that are
not about one credential leave what the slots hold alone (`keeps_quiet`).
-/

namespace PicoAll

open FaultProgram ByteBuffer BigEndian List

variable {A : Outcome → Prop} {C : OathCrypto} {d : OathDevice} {cred : OathCredential}
  {data : Bytes} {i : Fin maxOathCred}

/-- `oath_credential_open`, of a content. -/
def contentOpen (content : OathContent) (object : OathObject) : Option Bytes :=
  if content.object object = [] ∨ (content.object object).length > 0xffff then none
  else some (content.object object)

theorem oathCredentialOpen_eq (d : OathDevice) (i : Fin maxOathCred) (object : OathObject) :
    oathCredentialOpen d i object = (d.read (.cred i)).bind (contentOpen · object) :=
  rfl

/-- What a record with a sealed key takes can be read back. -/
def SealedFits (C : OathCrypto) (data : Bytes) : Prop :=
  ∀ draw content, oathSealedData C draw data = some content → content.length ≤ 0xffff

/-- A content holds a credential. -/
structure OathHolds (C : OathCrypto) (cred : OathCredential) (content : OathContent) : Prop where
  /-- The record can be read. -/
  opens : contentOpen content .credential = some (content.object .credential)
  /-- It says what the credential is. -/
  reads : oathCredential C (content.object .credential) = some cred
  /-- So can the metadata. -/
  openMetadata : contentOpen content .metadata = some (content.object .metadata)
  /-- They have the name. -/
  named : tlvFindTag tagName (content.object .metadata) = cred.item tagName
  /-- There is room for its key to be sealed. -/
  fits : ∀ record, content = .plain record → SealedFits C record

variable {content : OathContent} {tag : ℕ}

theorem contentOpen_of {object : OathObject} (hne : content.object object ≠ [])
    (hlen : (content.object object).length ≤ 0xffff) :
    contentOpen content object = some (content.object object) :=
  if_neg (not_or.mpr ⟨hne, Nat.not_lt.mpr hlen⟩)

theorem length_of_contentOpen {object : OathObject} {record : Bytes}
    (h : contentOpen content object = some record) :
    record = content.object object ∧ record ≠ [] ∧ record.length ≤ 0xffff := by
  rw [contentOpen] at h
  split_ifs at h with hbad
  obtain rfl := Option.some.inj h
  rw [not_or, not_lt] at hbad
  exact ⟨rfl, hbad⟩

theorem ne_nil_of_oathCredential (h : oathCredential C data = some cred) : data ≠ [] := by
  rintro rfl
  obtain ⟨hkey, -⟩ := oathCredential_eq_some_iff.mp h
  obtain ⟨stored, hstored, -⟩ := oathLoadKey_ok_iff.mp hkey
  simp [tlvFindTag, tlvFind, tlvItems, tlvItemsFuel] at hstored

theorem item_of_oathCredential (h : oathCredential C data = some cred) (htag : tag ≠ tagKey) :
    cred.item tag = tlvFindTag tag data := by
  rw [(oathCredential_eq_some_iff.mp h).2]
  exact if_neg htag

/-! ### Writing -/

/-- A record with a sealed key holds what the record says. -/
theorem oathHolds_plain {content : Bytes} {draw : ℕ} (hcred : oathCredential C data = some cred)
    (hfits : SealedFits C data) (hsealed : oathSealedData C draw data = some content) :
    OathHolds C cred (.plain content) := by
  have hspec := oathSealedData_spec hsealed
  have hreads := hspec.reads cred hcred
  have hne := ne_nil_of_oathCredential hreads
  have hlen := hfits draw content hsealed
  refine ⟨contentOpen_of hne hlen, hreads, contentOpen_of hne hlen,
    (item_of_oathCredential hreads (by decide)).symm, fun record hrecord draw' content' h ↦ ?_⟩
  obtain rfl : content = record := OathContent.plain.inj hrecord
  obtain rfl := Option.some.inj ((hspec.settled cred hcred draw').symm.trans h)
  exact hlen

/-- A container holds what its record says. -/
theorem oathHolds_container {metadata : Bytes} (hcred : oathCredential C data = some cred)
    (hlen : data.length ≤ 0xffff) (hmetadata : oathCredentialMetadata data = some metadata) :
    OathHolds C cred (.container data metadata) := by
  obtain ⟨hname, hne, hle⟩ := oathCredentialMetadata_spec hmetadata
  exact ⟨contentOpen_of (ne_nil_of_oathCredential hcred) hlen, hcred, contentOpen_of hne hle,
    hname.trans (item_of_oathCredential hcred (by decide)).symm, fun _ h ↦ by cases h⟩

section Write

variable {Q : Unit → OathDevice → Prop} {E : Exit OathError → OathDevice → Prop}

/-- What comes of a write of slot `i`: an outcome, and a content that satisfies `P` if it was
written. -/
structure SlotWrite (d : OathDevice) (i : Fin maxOathCred) (P : OathContent → Prop)
    (Q : Unit → OathDevice → Prop) (E : Exit OathError → OathDevice → Prop) : Prop where
  kept : ∀ e d', d'.files = d.files → E e d'
  written : ∀ content d', P content → d'.files = d.files.write (.cred i) (some content) →
    (d.outcome (.cred i) = .ok → Q () d') ∧ (d.outcome (.cred i) = .late → E (.code .storage) d')

theorem wp_oathPutCredentialData (h : SlotWrite d i (fun content ↦
    ∃ draw sealed, oathSealedData C draw data = some sealed ∧ content = .plain sealed) Q E) :
    wp A (oathPutCredentialData C i data) Q E d := by
  refine wp_get ?_
  rcases hsealed : oathSealedData C d.ram.draws data with - | content
  · exact wp_fail (h.kept _ _ rfl)
  · have hwritten := h.written _ ((d.setRam fun ram ↦ { ram with draws := ram.draws + 1 }).written
      (.cred i) (some (.plain content))) ⟨_, _, hsealed, rfl⟩ rfl
    exact wp_bind (wp_oathModifyRam (wp_put hwritten.1 (fun _ ↦ h.kept _ _ rfl) hwritten.2
      fun _ ↦ h.kept _ _ rfl))

/-- **Writing a credential.** -/
theorem wp_oathCredentialWrite (hlen : data.length ≤ 0xffff)
    (hcred : oathCredential C data = some cred)
    (hfits : ∀ record, d.read (.cred i) = some (.plain record) → SealedFits C data)
    (h : SlotWrite d i (OathHolds C cred) Q E) : wp A (oathCredentialWrite C i data) Q E d := by
  have hcontainer : wp A (oathContainerWrite i data) Q E d := by
    rw [oathContainerWrite]
    rcases hmetadata : oathCredentialMetadata data with - | metadata
    · exact wp_fail (h.kept _ _ rfl)
    · have hwritten := h.written (.container data metadata) (d.written (.cred i) (some _))
        (oathHolds_container hcred hlen hmetadata) rfl
      exact wp_put hwritten.1 (fun _ ↦ h.kept _ _ rfl) hwritten.2 fun _ ↦ h.kept _ _ rfl
  refine wp_get ?_
  rw [Nat.mod_eq_of_lt (by omega), take_length]
  rcases hread : d.read (.cred i) with - | ((- | ⟨b, bs⟩) | _)
  · exact hcontainer
  · exact hcontainer
  · refine wp_oathPutCredentialData ⟨h.kept, fun content d' hcontent ↦ h.written content d' ?_⟩
    obtain ⟨draw, sealed, hsealed, rfl⟩ := hcontent
    exact oathHolds_plain hcred (hfits _ hread) hsealed
  · exact hcontainer

/-- Sealing the key of a credential that a slot holds. -/
theorem wp_oathMigrateCredential {content : OathContent} (hread : d.read (.cred i) = some content)
    (hholds : OathHolds C cred content) (hsame : Q () d) (h : SlotWrite d i (OathHolds C cred) Q E) :
    wp A (oathMigrateCredential C i) Q E d := by
  refine wp_get ?_
  rw [hread]
  rcases content with data | _
  · dsimp only
    rcases tlvFindTag tagKey data with - | key
    · exact wp_pure hsame
    · refine wp_return hsame fun _ ↦ wp_oathPutCredentialData ⟨h.kept,
        fun content d' hcontent ↦ h.written content d' ?_⟩
      obtain ⟨draw, sealed, hsealed, rfl⟩ := hcontent
      exact oathHolds_plain hholds.reads (hholds.fits data rfl) hsealed
  · exact wp_pure hsame

end Write

/-! ### Counting up -/

/-- The credential with the next moving factor. -/
def OathCredential.advanced (cred : OathCredential) : OathCredential :=
  { cred with item := Function.update cred.item tagImf ((cred.item tagImf).map fun imf ↦
      beBytes 8 (beNat (imf.take 8) + 1) ++ imf.drop 8) }

theorem length_tlvAppend {value value' : Bytes} (h : value.length = value'.length) :
    (tlvAppend tag value).length = (tlvAppend tag value').length := by
  simp [tlvAppend, h]

/-- There is room for another value of the same length. -/
theorem SealedFits.patch {item : TlvItem} {bytes : Bytes} (h : SealedFits C data)
    (htag : tag ≠ tagKey) (hitem : tlvFind tag data = some item) (hne : item.value ≠ [])
    (hlen : bytes.length ≤ item.value.length) :
    SealedFits C (patch data (tlvOffset data item) bytes) := by
  obtain ⟨rfl, before, header, hcontext⟩ := tlvFind_context hitem (.inl (by simp [hne]))
  have hvalue : (bytes ++ item.value.drop bytes.length).length = item.value.length := by
    rw [length_append, length_drop]
    omega
  have hheader := hvalue ▸ hcontext.header
  rw [patch_context hcontext hlen]
  generalize bytes ++ item.value.drop bytes.length = value at hvalue hheader
  have hlength : (before ++ header ++ value ++ item.rest).length = data.length := by
    rw [hcontext.split]
    simp [hvalue]
  have hkey : tlvFindTag tagKey (before ++ header ++ value ++ item.rest) = tlvFindTag tagKey data :=
    (hcontext.findTag_replace hheader tagKey).trans (if_neg htag.symm)
  intro draw content hcontent
  rcases hfind : tlvFindTag tagKey data with - | key
  · rw [oathSealedData_of_none (hkey.trans hfind)] at hcontent
    obtain rfl := Option.some.inj hcontent
    exact hlength ▸ h draw data (oathSealedData_of_none hfind)
  rcases hsecure : oathKeyIsSecure key with - | -
  · rw [oathSealedData_of_plain (hkey.trans hfind) hsecure, Option.map_eq_some_iff] at hcontent
    obtain ⟨encrypted, hencrypted, rfl⟩ := hcontent
    have hsealed := (oathSealedData_of_plain hfind hsecure).trans (congrArg (Option.map _) hencrypted)
    refine (le_of_eq ?_).trans (h draw _ hsealed)
    -- the items have the lengths they had
    have hpairs : tlvPairs data = tlvPairs before ++ (item.tag, item.value) :: tlvPairs item.rest := by
      conv_lhs => rw [hcontext.split, hcontext.pairs_replace hcontext.header]
    rw [hcontext.pairs_replace hheader, hpairs]
    simp only [withKey, map_append, map_cons, flatMap_append, flatMap_cons,
      length_append, if_neg htag, length_tlvAppend hvalue]
  · rw [oathSealedData_of_secure (hkey.trans hfind) hsecure] at hcontent
    obtain rfl := Option.some.inj hcontent
    exact hlength ▸ h draw data (oathSealedData_of_secure hfind hsecure)

/-- **Counting the moving factor up.** -/
theorem wp_hotpAdvance {imf : TlvItem} {Q : Bytes → OathDevice → Prop}
    {E : Exit OathError → OathDevice → Prop} (hread : d.read (.cred i) = some content)
    (hholds : OathHolds C cred content)
    (himf : tlvFind tagImf (content.object .credential) = some imf) (hlen : 8 ≤ imf.value.length)
    (hkept : ∀ e d', e ≠ .code (.sw swOk) → d'.files = d.files → E e d')
    (hwritten : ∀ content d', OathHolds C cred.advanced content →
      d'.files = d.files.write (.cred i) (some content) →
      (d.outcome (.cred i) = .ok → Q (imf.value.take 8) d') ∧
      (d.outcome (.cred i) = .late → E (.code (.sw swMemoryFailure)) d')) :
    wp A (hotpAdvance C i (content.object .credential) imf) Q E d := by
  have hne : imf.value ≠ [] := ne_nil_of_length_pos (by omega)
  obtain ⟨-, before, header, hcontext⟩ := tlvFind_context himf (.inl (by simp [hne]))
  have hslice := slice_context hcontext hlen
  have hbytes : (beBytes 8 (beNat (imf.value.take 8) + 1)).length ≤ imf.value.length := by
    exact hlen
  obtain ⟨-, -, hle⟩ := length_of_contentOpen hholds.opens
  have hpatched := (editOf_patch (C := C) himf hne hbytes).reads (by decide) cred hholds.reads
  rw [length_beBytes] at hpatched
  have hcred : ({ cred with item := Function.update cred.item tagImf (some
      (beBytes 8 (beNat (imf.value.take 8) + 1) ++ imf.value.drop 8)) } : OathCredential) =
        cred.advanced := by
    rw [OathCredential.advanced, item_of_oathCredential hholds.reads (by decide),
      tlvFindTag_of_find himf]
    rfl
  rw [hcred] at hpatched
  have hlength : (patch (content.object .credential) (tlvOffset (content.object .credential) imf)
      (beBytes 8 (beNat (imf.value.take 8) + 1))).length ≤ 0xffff := by
    rw [length_patch]
    · exact hle
    · have hsplit := congrArg List.length hcontext.split
      simp only [length_append] at hsplit
      rw [hcontext.offset, length_beBytes, length_append]
      omega
  rw [hotpAdvance, hslice]
  refine wp_bind (wp_guardSw (fun _ ↦ wp_bind (wp_onStorageError (F := fun e d' ↦
    d'.files = d.files ∨ e = .code .storage ∧ E (.code (.sw swMemoryFailure)) d')
    (wp_oathCredentialWrite hlength hpatched (fun record hrecord ↦ ?_)
      ⟨fun e d' h ↦ .inl h, fun content d' hcontent hfiles ↦
        ⟨fun hok ↦ wp_pure ((hwritten content d' hcontent hfiles).1 hok), fun hlate ↦
          .inr ⟨rfl, (hwritten content d' hcontent hfiles).2 hlate⟩⟩⟩) ?_ ?_)) fun _ ↦
            hkept _ _ (by decide) rfl)
  · obtain rfl := Option.some.inj (hread.symm.trans hrecord)
    exact (hholds.fits record rfl).patch (by decide) himf hne hbytes
  · rintro r d' (hfiles | ⟨-, hE⟩)
    · exact hkept _ _ (by decide) hfiles
    · exact hE
  · rintro d' (hfiles | ⟨hcut, -⟩)
    · exact hkept _ _ (by decide) hfiles
    · cases hcut

/-! ### Commands that are not about one credential -/

/-- `I` is about the contents of the slots only. -/
def OfSlots (I : OathDevice → Prop) : Prop :=
  ∀ d d' : OathDevice, (∀ f : OathFile, ¬f.IsProtection → d'.files.view f = d.files.view f ∧
    ∀ a ∈ d'.files.stale f, a ∈ d.files.stale f) → I d → I d'

/-- The commands that are not about one credential. -/
def OathCommand.IsQuiet : OathCommand → Prop
  | put _ | delete _ | rename _ | calculate .. | reset .. => False
  | _ => True

section OfSlots

variable {I : OathDevice → Prop} (hI : OfSlots I)

include hI

theorem OfSlots.ram (g : OathRam → OathRam) : Preserves I (oathModifyRam g) :=
  keeps_oathModifyRam fun d ↦ hI d _ fun _ _ ↦ ⟨rfl, fun _ h ↦ h⟩

theorem OfSlots.put {f : OathFile} (hf : f.IsProtection) (a : Option OathContent) :
    Preserves I (put OathError.storage f a) := by
  refine Keeps.put (fun d ↦ hI d _ fun _ _ ↦ ⟨rfl, fun _ h ↦ h⟩) fun d ↦ hI d _ fun g hg ↦ ?_
  have hne : g ≠ f := fun h ↦ hg (h ▸ hf)
  refine ⟨WriteBack.write_view_of_ne hne, fun _ h ↦ ?_⟩
  rwa [show (d.written f a).files.stale g = _ from WriteBack.write_stale_of_ne hne] at h

theorem OfSlots.pinClosed : PinClosed I where
  ram := hI.ram
  write _ _ := hI.put (.inr rfl) _
  sync A d h := by
    have hsynced : I (d.synced .otpPin) :=
      hI d _ (fun _ _ ↦ ⟨rfl, fun _ h ↦ absurd h not_mem_nil⟩) h
    have hattempted : I (d.attempted .otpPin) := hI d _ (fun _ _ ↦ ⟨rfl, fun _ h ↦ h⟩) h
    exact wp_sync (fun _ ↦ ⟨hsynced, trivial⟩) (fun _ ↦ hattempted) (fun _ ↦ hsynced)
      fun _ ↦ hattempted

theorem OfSlots.oathPutCodeKey (key : Bytes) : Preserves I (oathPutCodeKey C key) := by
  refine .get fun d ↦ ?_
  rcases (if oathKeyIsSecure key = true then some key
    else oathEncryptKey C d.ram.draws key) with - | content
  · exact .fail _
  · exact .bind (hI.ram _) fun _ _ ↦ hI.put (.inl rfl) _

theorem OfSlots.cmdSetCode (data : Bytes) : Preserves I (cmdSetCode C data) := by
  have hdelete : Preserves I deleteCode := by
    refine .get fun d ↦ .bind (Keeps.resultOf (.ite (fun _ ↦ hI.put (.inl rfl) _)
      fun _ ↦ .pure trivial)) fun r _ ↦ .bind (hI.ram _) fun _ _ ↦ ?_
    rcases r with e | u
    · exact .fail _
    · exact .pure trivial
  exact .bind keeps_requireValidated fun _ _ ↦ .ite (fun _ ↦ hdelete) fun _ ↦
    .bind keeps_liftSw fun key _ ↦ .ite (fun _ ↦ hdelete) fun _ ↦ .bind (hI.ram _) fun _ _ ↦
    .get fun _ ↦ .bind (.ite (fun _ ↦ keeps_onStorageError _ (hI.put (.inr rfl) _))
      fun _ ↦ .pure trivial) fun _ _ ↦ .bind (hI.ram _) fun _ _ ↦
    .bind (keeps_onStorageError _ (hI.oathPutCodeKey key)) fun _ _ ↦ .bind (hI.ram _) fun _ _ ↦
    .pure trivial

/-- **A command that is not about one credential** leaves what the slots hold alone, if the sealing of
the keys does. -/
theorem keeps_quiet (hmigrate : ∀ i, Preserves I (oathMigrateCredential C i))
    {c : OathCommand} (hc : c.IsQuiet) : Preserves I (c.run C) := by
  have hchain : ChainClosed I := fun d _ ↦ hI d _ fun _ _ ↦ ⟨rfl, fun _ h ↦ h⟩
  refine keeps_run (fun d ↦ hchain d .none) ?_
  cases c with
  | select => exact keeps_selectOath (fun g _ ↦ hI.ram g) hI.oathPutCodeKey hmigrate
  | deselect => exact .bind (hI.ram _) fun _ _ ↦ .pure trivial
  | setCode data => exact hI.cmdSetCode data
  | list data => exact keeps_cmdList hchain data
  | validate data => exact keeps_cmdValidate (fun g _ ↦ hI.ram g) (hI.ram _) data
  | calculateAll p2 data => exact keeps_cmdCalculateAll hchain p2 data
  | sendRemaining => exact keeps_cmdSendRemaining hchain
  | verifyCode data touched => exact keeps_cmdVerifyHotp data touched
  | getCredential data => exact keeps_cmdGetCredential data
  | verifyPin data => exact hI.pinClosed.cmdVerifyOtpPin data
  | changePin data => exact hI.pinClosed.cmdChangeOtpPin data
  | setPin data => exact hI.pinClosed.cmdSetOtpPin data
  | put | delete | rename | calculate | reset => exact absurd hc (by simp [OathCommand.IsQuiet])

end OfSlots

end PicoAll
