import PicoAll.Fs.SlotLayout

/-!
# OpenPGP and PIV keys

`key_container.c` of the OpenPGP application: one container for each key, with its private and its
public part. The container of a key is named by the key's file, which becomes a marker; its files
have the low byte of that name. There is no clean-up: what a manifest no longer names stays until
its file is written again.
-/

namespace PicoAll

open FaultProgram BigEndian

abbrev openpgpKeyObjectPrivate : UInt16 := 1

abbrev openpgpKeyObjectPublic : UInt16 := 2

abbrev openpgpKeyContainerPolicyId : UInt16 := 0x0500

variable (fid : UInt16) (containerId : UInt32)

/-- `openpgp_key_container_is_piv`: `EF_PIV_KEY_RETIRED1` to `EF_PIV_KEY_RETIRED20`, the active keys
and `EF_PIV_KEY_ATTESTATION`. -/
def openpgpKeyContainerIsPiv : Bool :=
  (decide (0x0082 ≤ fid) && decide (fid ≤ 0x0092)) ||
    (fid == 0x0094 || fid == 0x0095 || fid == 0x0096) ||
    (decide (0x009a ≤ fid) && decide (fid ≤ 0x009e)) || fid == 0x00fb

/-- `openpgp_key_container_supported`: `EF_PK_SIG`, `EF_PK_DEC`, `EF_PK_AUT`, `EF_AES_KEY` and the
PIV keys. -/
def openpgpKeyContainerSupported : Bool :=
  fid == 0x10d1 || fid == 0x10d2 || fid == 0x10d3 || fid == 0x00d5 || openpgpKeyContainerIsPiv fid

def openpgpKeyDomain : UInt8 :=
  if openpgpKeyContainerIsPiv fid then 1 else 0

def openpgpKeyManifestFid (slot : Fin 2) : ℕ :=
  prefixedFid (if slot = 0 then 0xd0 else 0xd1) fid.toUInt8

/-- The prefix in `openpgp_key_record_fid`. -/
def openpgpKeyRecordPrefix (slot : Fin 2) (objectType : UInt16) : ℕ :=
  (if slot = 0 then 0xd2 else 0xd4) + (if objectType = openpgpKeyObjectPublic then 1 else 0)

def openpgpKeyRecordFid (slot : Fin 2) (objectType : UInt16) : ℕ :=
  prefixedFid (openpgpKeyRecordPrefix slot objectType) fid.toUInt8

def openpgpKeyObjectTypeValid (objectType : UInt16) : Bool :=
  objectType == openpgpKeyObjectPrivate || objectType == openpgpKeyObjectPublic

/-- The content of a marker: four bytes of magic, a version, the key's file id and three reserved
bytes. -/
def openpgpKeyMarker : Bytes :=
  [0x50, 0x4b, 0x47, 0x31, 1] ++ beBytes 2 fid.toNat ++ [0, 0, 0]

def openpgpKeyPolicyHash (sha256 : Bytes → Bytes) (policyId : UInt16) : Except Status Bytes :=
  if policyId ≠ openpgpKeyContainerPolicyId then .error .wrongData
  else fileObjectPolicyHash sha256 internalPolicy

def openpgpKeyRecordIdValid (object : FileObjectDescriptor) : Bool :=
  openpgpKeyObjectTypeValid object.objectType && decide (object.recordId.toNat ≤ UINT16_MAX) &&
    (object.recordId.toNat == openpgpKeyRecordFid fid 0 object.objectType ||
      object.recordId.toNat == openpgpKeyRecordFid fid 1 object.objectType)

def openpgpKeyLayoutRecordFid (object : FileObjectDescriptor) :
    Except Status ℕ :=
  if !openpgpKeyRecordIdValid containerId.toUInt16 object then .error .wrongData
  else .ok object.recordId.toNat

/-- The id of a record is its file, which the slot and the type give. -/
def openpgpKeyLayoutRecordAllocate (targetSlot : Fin 2) (write : FileObjectContainerWrite)
    (_auth : FileObjectAuthenticator) :
    FsProg TxnRam (UInt64 × ℕ) :=
  if !openpgpKeyObjectTypeValid write.objectType then
    FaultProgram.fail .nullParam
  else
    let fid := openpgpKeyRecordFid containerId.toUInt16 targetSlot write.objectType
    pure (.ofNat fid, fid)

/-- What may be written to the container. -/
def openpgpKeyLayoutWriteValid (write : FileObjectContainerWrite) : Bool :=
  if !openpgpKeyObjectTypeValid write.objectType || write.objectTag != 0 ||
      write.policyId != openpgpKeyContainerPolicyId || decide (write.keyDomain > 1) then
    false
  else if write.objectType = openpgpKeyObjectPrivate then
    write.protection == protectionAeadSecret && write.flags == flagMutable ||| flagNonExportable
  else
    write.protection == protectionAuthenticatedPublic &&
      write.flags == flagMutable ||| flagGenericReadable

def openpgpKeyLayoutDescriptorValid (object : FileObjectDescriptor) : Bool :=
  object.objectTag == 0 && object.keyDomain == openpgpKeyDomain containerId.toUInt16 &&
    openpgpKeyRecordIdValid containerId.toUInt16 object

/-- `openpgp_key_marker_write`. The key's file is in the application's static table, where
`file_search_by_fid` looks. -/
def openpgpKeyMarkerWrite : FsProg TxnRam Unit := do
  match ← fileSearch fid.toNat with
  | none => FaultProgram.fail .fileNotFound
  | some _ =>
    filePutData fid.toNat (openpgpKeyMarker fid)
    flashCommitSync

def openpgpKeyLayoutActivate : FsProg TxnRam Unit := do
  let fid := containerId.toUInt16
  if (← fileSearch fid.toNat) = some (openpgpKeyMarker fid) then
    pure ()
  else
    openpgpKeyMarkerWrite fid

def openpgpKeyLayoutDeactivate : FsProg TxnRam Unit := do
  match ← fileSearch containerId.toUInt16.toNat with
  | none => FaultProgram.fail .fileNotFound
  | some _ => filePutData containerId.toUInt16.toNat []

/-- The container of an OpenPGP key. -/
def openpgpKeyContainerLayout (sha256 : Bytes → Bytes) : FileObjectContainerLayout where
  namespaceId := 5
  containerKind := 1
  manifestFid containerId := openpgpKeyManifestFid containerId.toUInt16
  recordFid := openpgpKeyLayoutRecordFid
  recordAllocate := openpgpKeyLayoutRecordAllocate
  policyHash := openpgpKeyPolicyHash sha256
  writeValid := openpgpKeyLayoutWriteValid
  descriptorValid := openpgpKeyLayoutDescriptorValid
  activate := openpgpKeyLayoutActivate
  deactivate := openpgpKeyLayoutDeactivate
  retire _ _ _ _ _ := pure ()
  rollbackNewRecords := true

/-! ### The rules -/

section Rules

variable {sha256 : Bytes → Bytes} (fid : UInt16) {object : FileObjectDescriptor}

theorem openpgp_recordFid_eq_ok {recordFid : ℕ} :
    (openpgpKeyContainerLayout sha256).recordFid fid.toUInt32 object = .ok recordFid ↔
      openpgpKeyRecordIdValid fid object = true ∧ recordFid = object.recordId.toNat := by
  show openpgpKeyLayoutRecordFid fid.toUInt32 object = .ok recordFid ↔ _
  rw [openpgpKeyLayoutRecordFid, UInt16.toUInt16_toUInt32]
  split_ifs with h
  · rw [Bool.not_eq_true'] at h
    simp [h]
  · rw [Bool.not_eq_true', Bool.not_eq_false] at h
    simp [h, eq_comm]

theorem openpgpKeyRecordFid_range (slot : Fin 2) (objectType : UInt16) :
    0xd200 ≤ openpgpKeyRecordFid fid slot objectType ∧
      openpgpKeyRecordFid fid slot objectType < 0xd600 := by
  have hlt := fid.toUInt8.toNat_lt
  rw [openpgpKeyRecordFid, openpgpKeyRecordPrefix, prefixedFid]
  split_ifs <;> omega

theorem openpgpKeyManifestFid_range (slot : Fin 2) :
    0xd000 ≤ openpgpKeyManifestFid fid slot ∧ openpgpKeyManifestFid fid slot < 0xd200 := by
  have hlt := fid.toUInt8.toNat_lt
  rw [openpgpKeyManifestFid, prefixedFid]
  split_ifs <;> omega

theorem openpgpKeyRecordIdValid_range (h : openpgpKeyRecordIdValid fid object = true) :
    0xd200 ≤ object.recordId.toNat ∧ object.recordId.toNat < 0xd600 := by
  rw [openpgpKeyRecordIdValid, Bool.and_eq_true, Bool.or_eq_true, beq_iff_eq, beq_iff_eq] at h
  rcases h.2 with h | h <;> rw [h] <;> exact openpgpKeyRecordFid_range fid _ _

/-- The prefix of a record file gives the type away. -/
theorem openpgpKeyRecordPrefix_inj : ∀ objectType ∈ [openpgpKeyObjectPrivate, openpgpKeyObjectPublic],
    ∀ objectType' ∈ [openpgpKeyObjectPrivate, openpgpKeyObjectPublic], ∀ slot slot' : Fin 2,
      openpgpKeyRecordPrefix slot objectType = openpgpKeyRecordPrefix slot' objectType' →
        objectType = objectType' := by
  decide

theorem mem_openpgpKeyTypes {objectType : UInt16}
    (h : openpgpKeyObjectTypeValid objectType = true) :
    objectType ∈ [openpgpKeyObjectPrivate, openpgpKeyObjectPublic] := by
  simpa [openpgpKeyObjectTypeValid] using h

/-- The writes of an application set the domain of their key. -/
def OpenpgpKeyWrite (write : FileObjectContainerWrite) : Prop :=
  write.keyDomain = openpgpKeyDomain fid

theorem openpgpKeyLayoutWriteValid_fields {write : FileObjectContainerWrite}
    (h : openpgpKeyLayoutWriteValid write = true) :
    openpgpKeyObjectTypeValid write.objectType = true ∧ write.objectTag = 0 := by
  rw [openpgpKeyLayoutWriteValid] at h
  split_ifs at h with hrefused <;>
    (simp only [Bool.or_eq_true, Bool.not_eq_true', not_or, Bool.not_eq_false, bne_iff_ne, ne_eq,
      not_not] at hrefused; exact ⟨hrefused.1.1.1, hrefused.1.1.2⟩)

/-- The file of a part of a key. -/
def openpgpKeyNumber (slot : Fin 2) (key : UInt16 × UInt16) : ℕ :=
  openpgpKeyRecordFid fid slot key.1

/-- The numbering of the OpenPGP and PIV keys. -/
theorem openpgpKeyNumbering : SlotNumbering (openpgpKeyContainerLayout sha256) fid.toUInt32
    (OpenpgpKeyWrite fid) (openpgpKeyNumber fid)
    (fun key ↦ openpgpKeyObjectTypeValid key.1 = true ∧ key.2 = 0) where
  allocate slot write auth hkey := by
    obtain ⟨hkey, -⟩ : openpgpKeyObjectTypeValid write.objectType = true ∧ write.objectTag = 0 :=
      hkey
    show openpgpKeyLayoutRecordAllocate fid.toUInt32 slot write auth = _
    simp only [openpgpKeyLayoutRecordAllocate, hkey, UInt16.toUInt16_toUInt32]
    rfl
  key_of_writeValid _ h := openpgpKeyLayoutWriteValid_fields h
  recordFid _ _ _ hfid := ((openpgp_recordFid_eq_ok fid).mp hfid).2
  accepts slot write generation hallowed h := by
    obtain ⟨htype, htag⟩ := openpgpKeyLayoutWriteValid_fields h
    have hrange := openpgpKeyRecordFid_range fid slot write.objectType
    have hid := toNat_recordId (hrange.2.trans (by decide))
    have hvalid : openpgpKeyRecordIdValid fid (write.descriptor generation
        (.ofNat (openpgpKeyNumber fid slot write.key))) = true := by
      simp only [openpgpKeyRecordIdValid, FileObjectContainerWrite.descriptor, htype,
        openpgpKeyNumber, FileObjectContainerWrite.key, hid, Bool.and_eq_true, Bool.or_eq_true,
        beq_iff_eq, decide_eq_true_eq]
      exact ⟨⟨trivial, Nat.le_of_lt_succ (hrange.2.trans (by decide))⟩,
        slot_cases (fun slot ↦ openpgpKeyRecordFid fid slot write.objectType) _⟩
    refine ⟨?_, (openpgp_recordFid_eq_ok fid).mpr ⟨hvalid, hid.symm⟩⟩
    show openpgpKeyLayoutDescriptorValid fid.toUInt32 _ = true
    rw [openpgpKeyLayoutDescriptorValid, UInt16.toUInt16_toUInt32, hvalid]
    simp only [FileObjectContainerWrite.descriptor, htag, show write.keyDomain = _ from hallowed,
      beq_self_eq_true, Bool.and_self]
  number_inj slot slot' key key' hkey hkey' h := by
    refine Prod.ext ?_ (hkey.2.trans hkey'.2.symm)
    rw [openpgpKeyNumber, openpgpKeyNumber, openpgpKeyRecordFid, openpgpKeyRecordFid,
      prefixedFid_inj] at h
    exact openpgpKeyRecordPrefix_inj _ (mem_openpgpKeyTypes hkey.1) _ (mem_openpgpKeyTypes hkey'.1)
      _ _ h.1
  number_pos slot key _ := by
    have h := (openpgpKeyRecordFid_range fid slot key.1).1
    exact Nat.lt_of_lt_of_le (by decide) h
  number_lt slot key _ := (openpgpKeyRecordFid_range fid slot key.1).2.trans (by decide)

/-- The files of a container are not the files of keys. -/
theorem openpgp_containerFid {f : ℕ}
    (h : ContainerFid (openpgpKeyContainerLayout sha256) fid.toUInt32 f) : 0xd000 ≤ f := by
  rcases h with ⟨slot, rfl⟩ | ⟨object, -, hfid⟩
  · show 0xd000 ≤ openpgpKeyManifestFid fid.toUInt32.toUInt16 slot
    exact (openpgpKeyManifestFid_range _ slot).1
  · obtain ⟨hvalid, rfl⟩ := (openpgp_recordFid_eq_ok fid).mp hfid
    have hrecord := (openpgpKeyRecordIdValid_range fid hvalid).1
    omega

theorem openpgpKeyContainerSupported_lt {fid : UInt16}
    (h : openpgpKeyContainerSupported fid = true) : fid.toNat < 0xd000 := by
  simp only [openpgpKeyContainerSupported, openpgpKeyContainerIsPiv, Bool.or_eq_true,
    Bool.and_eq_true, beq_iff_eq, decide_eq_true_eq, UInt16.le_iff_toNat_le,
    ← UInt16.toNat_inj] at h
  have h1 : (0x10d1 : UInt16).toNat = 0x10d1 := rfl
  have h2 : (0x10d2 : UInt16).toNat = 0x10d2 := rfl
  have h3 : (0x10d3 : UInt16).toNat = 0x10d3 := rfl
  have h4 : (0x00d5 : UInt16).toNat = 0x00d5 := rfl
  have h5 : (0x0092 : UInt16).toNat = 0x0092 := rfl
  have h6 : (0x0094 : UInt16).toNat = 0x0094 := rfl
  have h7 : (0x0095 : UInt16).toNat = 0x0095 := rfl
  have h8 : (0x0096 : UInt16).toNat = 0x0096 := rfl
  have h9 : (0x009e : UInt16).toNat = 0x009e := rfl
  have h10 : (0x00fb : UInt16).toNat = 0x00fb := rfl
  omega

/-- **OpenPGP and PIV keys keep to the rules.** -/
theorem openpgpKeyLayoutSpec (hfid : openpgpKeyContainerSupported fid = true) :
    ContainerLayoutSpec (openpgpKeyContainerLayout sha256) fid.toUInt32 (OpenpgpKeyWrite fid) where
  valid := rfl
  manifest_ne slot := by
    show openpgpKeyManifestFid _ _ ≠ openpgpKeyManifestFid _ _
    rw [openpgpKeyManifestFid, openpgpKeyManifestFid, ne_eq, prefixedFid_inj, not_and_or]
    left
    revert slot
    decide
  record_ne_manifest object f slot _ hf := by
    obtain ⟨hvalid, rfl⟩ := (openpgp_recordFid_eq_ok fid).mp hf
    have hrecord := (openpgpKeyRecordIdValid_range fid hvalid).1
    have hmanifest := (openpgpKeyManifestFid_range fid.toUInt32.toUInt16 slot).2
    show _ ≠ openpgpKeyManifestFid fid.toUInt32.toUInt16 slot
    omega
  allocate := (openpgpKeyNumbering fid).wp_recordAllocate
  activate A s := by
    have hconfined : Confined (· = fid.toUInt32.toUInt16.toNat)
        (openpgpKeyLayoutActivate fid.toUInt32) :=
      .bind (.fileSearch _) fun _ ↦ .ite (.pure _) (.bind (.fileSearch _) fun
        | none => .fail _
        | some _ => .bind (.filePutData (F := (· = _)) rfl _) fun _ ↦ .flashCommitSync)
    refine hconfined.untouched ?_ A s
    rintro f rfl hcontainer
    have hle := openpgp_containerFid fid hcontainer
    have hlt := openpgpKeyContainerSupported_lt hfid
    rw [UInt16.toUInt16_toUInt32] at hle
    omega
  deactivate A s := by
    have hconfined : Confined (· = fid.toUInt32.toUInt16.toNat)
        (openpgpKeyLayoutDeactivate fid.toUInt32) :=
      .bind (.fileSearch _) fun
        | none => .fail _
        | some _ => .filePutData (F := (· = _)) rfl _
    refine wp_mono (hconfined.untouched ?_ A s) (fun _ _ h f hf ↦ .inl (h f hf)) fun _ _ _ ↦ trivial
    rintro f rfl hcontainer
    have hle := openpgp_containerFid fid hcontainer
    have hlt := openpgpKeyContainerSupported_lt hfid
    rw [UInt16.toUInt16_toUInt32] at hle
    omega
  retire _ _ _ _ _ _ _ := wp_pure ⟨rfl, fun _ _ _ _ ↦ rfl, .inl rfl⟩

end Rules

end PicoAll
