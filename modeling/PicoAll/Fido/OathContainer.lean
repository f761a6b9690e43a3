import PicoAll.Fs.SlotLayout

/-!
# OATH credentials

`oath_container.c`: one container for each OATH credential, with the credential and its metadata,
which are always written together.
-/

namespace PicoAll

open FaultProgram BigEndian UInt8

/-- `FIDO_OATH_OBJECT_CREDENTIAL`. -/
abbrev oathObjectCredential : UInt16 := 1

/-- `FIDO_OATH_OBJECT_METADATA`. -/
abbrev oathObjectMetadata : UInt16 := 2

/-- `FIDO_OATH_POLICY_ID`. -/
abbrev oathPolicyId : UInt16 := 0x0201

variable (containerId : UInt32) (slot : UInt8) (manifestSlot : Fin 2) (objectType : UInt16)

/-- `EF_OATH_CRED`, of a credential's slot. -/
def oathMarkerFid : ℕ :=
  prefixedFid 0xba slot

def oathManifestFid : ℕ :=
  prefixedFid (if manifestSlot = 0 then 0xb0 else 0xb1) slot

def oathRecordPrefix : ℕ :=
  if manifestSlot = 0 then (if objectType = oathObjectCredential then 0xb2 else 0xb3)
  else (if objectType = oathObjectCredential then 0xb4 else 0xb5)

def oathRecordFid : ℕ :=
  prefixedFid (oathRecordPrefix manifestSlot objectType) slot

def oathObjectTypeValid : Bool :=
  objectType == oathObjectCredential || objectType == oathObjectMetadata

def oathRecordIdValid (object : FileObjectDescriptor) : Bool :=
  oathObjectTypeValid object.objectType && decide (object.recordId.toNat ≤ UINT16_MAX) &&
    (object.recordId.toNat == oathRecordFid slot 0 object.objectType ||
      object.recordId.toNat == oathRecordFid slot 1 object.objectType)

def oathLayoutRecordFid (object : FileObjectDescriptor) :
    Except Status ℕ :=
  if containerId > 0xff ∨ !oathRecordIdValid containerId.toUInt8 object then
    .error .wrongData
  else
    .ok object.recordId.toNat

def oathLayoutRecordAllocate (targetSlot : Fin 2) (write : FileObjectContainerWrite)
    (_auth : FileObjectAuthenticator) :
    FsProg TxnRam (UInt64 × ℕ) :=
  if containerId > 0xff ∨ !oathObjectTypeValid write.objectType then
    FaultProgram.fail .nullParam
  else
    let fid := oathRecordFid containerId.toUInt8 targetSlot write.objectType
    pure (.ofNat fid, fid)

def oathPolicyHash (sha256 : Bytes → Bytes) (policyId : UInt16) : Except Status Bytes :=
  if policyId ≠ oathPolicyId then .error .wrongData
  else fileObjectPolicyHash sha256 internalPolicy

/-- The protection, flags and group that go with a type. -/
def oathClassValid (protection : UInt8) (flags transactionGroup : UInt16) :
    Bool :=
  if objectType = oathObjectCredential then
    protection == protectionAeadSecret &&
      flags == flagMutable ||| flagNonExportable ||| flagTransactionGroup && transactionGroup == 1
  else
    protection == protectionAuthenticatedPublic &&
      flags == flagMutable ||| flagTransactionGroup && transactionGroup == 1

def oathLayoutWriteValid (write : FileObjectContainerWrite) : Bool :=
  oathObjectTypeValid write.objectType && write.objectTag == 0 && write.policyId == oathPolicyId &&
    write.keyDomain == 0 &&
    oathClassValid write.objectType write.protection write.flags write.transactionGroup

def oathLayoutDescriptorValid (object : FileObjectDescriptor) : Bool :=
  decide (containerId ≤ 0xff) && object.objectTag == 0 && object.policyId == oathPolicyId &&
    object.keyDomain == 0 && oathRecordIdValid containerId.toUInt8 object &&
    oathClassValid object.objectType object.protection object.flags object.transactionGroup

/-- The record files of a slot, by type. -/
def oathRecordFids : List ℕ :=
  [oathObjectCredential, oathObjectMetadata].map (oathRecordFid slot manifestSlot)

/-- `oath_layout_activate`: the marker is written unless it is there. -/
def oathLayoutActivate : FsProg TxnRam Unit :=
  markerActivate (oathMarkerFid containerId.toUInt8)
    (containerMarker [0x50, 0x4b, 0x4f, 0x31] containerId.toUInt8)

def oathLayoutRetire (_candidates : Fin 2 → Option FileObjectManifest) (next : FileObjectManifest)
    (_currentSlot : Option (Fin 2)) (targetSlot : Fin 2) :
    FsProg TxnRam Unit :=
  sweep (retireFids (oathManifestFid containerId.toUInt8) (oathRecordFids containerId.toUInt8) next
    targetSlot)

def oathLayoutDeactivate : FsProg TxnRam Unit := do
  forEach fileDeletePresent
    (oathRecordFids containerId.toUInt8 0 ++ oathRecordFids containerId.toUInt8 1)
  fileDeletePresent (oathMarkerFid containerId.toUInt8)

/-- The container of an OATH credential. -/
def oathContainerLayout (sha256 : Bytes → Bytes) : FileObjectContainerLayout where
  namespaceId := 3
  containerKind := 2
  manifestFid containerId := oathManifestFid containerId.toUInt8
  recordFid := oathLayoutRecordFid
  recordAllocate := oathLayoutRecordAllocate
  policyHash := oathPolicyHash sha256
  writeValid := oathLayoutWriteValid
  descriptorValid := oathLayoutDescriptorValid
  activate := oathLayoutActivate
  deactivate := oathLayoutDeactivate
  retire := oathLayoutRetire
  rollbackNewRecords := false

/-! ### The rules -/

section Rules

variable {sha256 : Bytes → Bytes} (slot : UInt8) {object : FileObjectDescriptor}

theorem oath_recordFid_eq_ok {fid : ℕ} :
    (oathContainerLayout sha256).recordFid slot.toUInt32 object = .ok fid ↔
      oathRecordIdValid slot object = true ∧ fid = object.recordId.toNat := by
  exact @slotRecordFid_eq_ok fid slot (oathRecordIdValid · object) _

theorem oathRecordFid_range (manifestSlot : Fin 2) (objectType : UInt16) :
    0xb200 ≤ oathRecordFid slot manifestSlot objectType ∧
      oathRecordFid slot manifestSlot objectType < 0xb600 := by
  have hlt := slot.toNat_lt
  rw [oathRecordFid, oathRecordPrefix, prefixedFid]
  split_ifs <;> omega

theorem oathManifestFid_range (manifestSlot : Fin 2) :
    0xb000 ≤ oathManifestFid slot manifestSlot ∧ oathManifestFid slot manifestSlot < 0xb200 := by
  have hlt := slot.toNat_lt
  rw [oathManifestFid, prefixedFid]
  split_ifs <;> omega

theorem oathRecordIdValid_range (h : oathRecordIdValid slot object = true) :
    0xb200 ≤ object.recordId.toNat ∧ object.recordId.toNat < 0xb600 := by
  simp only [oathRecordIdValid, Bool.and_eq_true, Bool.or_eq_true, beq_iff_eq] at h
  obtain ⟨-, h | h⟩ := h <;> rw [h] <;> exact oathRecordFid_range slot _ _

/-- The prefix of a record file gives the type away. -/
theorem oathRecordPrefix_inj : ∀ objectType ∈ [oathObjectCredential, oathObjectMetadata],
    ∀ objectType' ∈ [oathObjectCredential, oathObjectMetadata],
    ∀ manifestSlot manifestSlot' : Fin 2,
      oathRecordPrefix manifestSlot objectType = oathRecordPrefix manifestSlot' objectType' →
        objectType = objectType' := by
  decide

theorem mem_oathTypes {objectType : UInt16} (h : oathObjectTypeValid objectType = true) :
    objectType ∈ [oathObjectCredential, oathObjectMetadata] := by
  simpa [oathObjectTypeValid] using h

/-- The file of a key of a credential. -/
def oathNumber (manifestSlot : Fin 2) (key : UInt16 × UInt16) : ℕ :=
  oathRecordFid slot manifestSlot key.1

/-- The numbering of an OATH credential. -/
theorem oathNumbering : SweepNumbering (oathContainerLayout sha256) slot.toUInt32
    (fun _ ↦ True) (oathNumber slot)
    (fun key ↦ oathObjectTypeValid key.1 = true ∧ key.2 = 0) (oathRecordFids slot) where
  allocate manifestSlot write auth hkey := by
    obtain ⟨hkey, -⟩ : oathObjectTypeValid write.objectType = true ∧ write.objectTag = 0 := hkey
    show oathLayoutRecordAllocate slot.toUInt32 manifestSlot write auth = _
    have hle : ¬slot.toUInt32 > 0xff := UInt32.not_lt.mpr (toUInt32_le slot)
    simp only [oathLayoutRecordAllocate, hkey, hle, toUInt8_toUInt32]
    rfl
  key_of_writeValid write h := by
    replace h : oathLayoutWriteValid write = true := h
    simp only [oathLayoutWriteValid, Bool.and_eq_true, beq_iff_eq] at h
    exact ⟨h.1.1.1.1, h.1.1.1.2⟩
  recordFid object fid _ hfid := ((oath_recordFid_eq_ok slot).mp hfid).2
  accepts manifestSlot write generation _ h := by
    replace h : oathLayoutWriteValid write = true := h
    simp only [oathLayoutWriteValid, Bool.and_eq_true, beq_iff_eq] at h
    obtain ⟨⟨⟨⟨htype, htag⟩, hpolicy⟩, hdomain⟩, hclass⟩ := h
    have hrange := oathRecordFid_range slot manifestSlot write.objectType
    have hid := toNat_recordId (hrange.2.trans (by decide))
    have hvalid : oathRecordIdValid slot (write.descriptor generation
        (.ofNat (oathNumber slot manifestSlot write.key))) = true := by
      simp only [oathRecordIdValid, FileObjectContainerWrite.descriptor, htype, oathNumber,
        FileObjectContainerWrite.key, hid, Bool.and_eq_true, Bool.or_eq_true, beq_iff_eq,
        decide_eq_true_eq]
      exact ⟨⟨trivial, Nat.le_of_lt_succ (hrange.2.trans (by decide))⟩,
        slot_cases (fun manifestSlot ↦ oathRecordFid slot manifestSlot write.objectType) _⟩
    refine ⟨?_, (oath_recordFid_eq_ok slot).mpr ⟨hvalid, hid.symm⟩⟩
    show oathLayoutDescriptorValid slot.toUInt32 _ = true
    rw [oathLayoutDescriptorValid, toUInt8_toUInt32, hvalid]
    simp only [toUInt32_le, FileObjectContainerWrite.descriptor, htag, hpolicy, hdomain, hclass,
      decide_true, beq_self_eq_true, Bool.and_self]
  number_inj manifestSlot manifestSlot' key key' hkey hkey' h := by
    refine Prod.ext ?_ (hkey.2.trans hkey'.2.symm)
    rw [oathNumber, oathNumber, oathRecordFid, oathRecordFid, prefixedFid_inj] at h
    exact oathRecordPrefix_inj _ (mem_oathTypes hkey.1) _ (mem_oathTypes hkey'.1) _ _ h.1
  number_pos manifestSlot key _ := by
    have h := (oathRecordFid_range slot manifestSlot key.1).1
    exact Nat.lt_of_lt_of_le (by decide) h
  number_lt manifestSlot key _ := (oathRecordFid_range slot manifestSlot key.1).2.trans (by decide)
  manifest_ne manifestSlot := by
    show oathManifestFid _ _ ≠ oathManifestFid _ _
    rw [oathManifestFid, oathManifestFid, ne_eq, prefixedFid_inj, not_and_or]
    left
    revert manifestSlot
    decide
  record_ne_manifest object fid manifestSlot _ hfid := by
    obtain ⟨hvalid, rfl⟩ := (oath_recordFid_eq_ok slot).mp hfid
    have hrecord := (oathRecordIdValid_range slot hvalid).1
    have hmanifest := oathManifestFid_range slot manifestSlot
    show _ ≠ oathManifestFid slot.toUInt32.toUInt8 manifestSlot
    rw [toUInt8_toUInt32]
    omega
  recordFids_ne_manifest manifestSlot manifestSlot' hmem := by
    obtain ⟨objectType, -, heq⟩ := List.mem_map.mp hmem
    have hrecord := (oathRecordFid_range slot manifestSlot' objectType).1
    have hmanifest := oathManifestFid_range slot manifestSlot
    replace heq : oathRecordFid slot manifestSlot' objectType =
      oathManifestFid slot.toUInt32.toUInt8 manifestSlot := heq
    rw [toUInt8_toUInt32] at heq
    omega
  number_mem manifestSlot key hkey := List.mem_map_of_mem (mem_oathTypes hkey.1)

/-- The marker is not one of the container's files. -/
theorem oath_marker_ne {fid : ℕ} (h : ContainerFid (oathContainerLayout sha256) slot.toUInt32 fid) :
    fid ≠ oathMarkerFid slot.toUInt32.toUInt8 := by
  have hmarker : 0xba00 ≤ oathMarkerFid slot.toUInt32.toUInt8 := Nat.le_add_right ..
  rcases h with ⟨manifestSlot, rfl⟩ | ⟨object, -, hfid⟩
  · have hmanifest := (oathManifestFid_range slot manifestSlot).2
    show oathManifestFid slot.toUInt32.toUInt8 manifestSlot ≠ _
    rw [toUInt8_toUInt32] at hmarker ⊢
    omega
  · obtain ⟨hvalid, rfl⟩ := (oath_recordFid_eq_ok slot).mp hfid
    have hrecord := (oathRecordIdValid_range slot hvalid).2
    omega

theorem oath_retire_eq (candidates : Fin 2 → Option FileObjectManifest)
    (next : FileObjectManifest) (currentSlot : Option (Fin 2)) (targetSlot : Fin 2) :
    (oathContainerLayout sha256).retire slot.toUInt32 candidates next currentSlot targetSlot =
      sweep (retireFids ((oathContainerLayout sha256).manifestFid slot.toUInt32)
        (oathRecordFids slot) next targetSlot) := by
  show oathLayoutRetire slot.toUInt32 candidates next currentSlot targetSlot =
    sweep (retireFids (oathManifestFid slot.toUInt32.toUInt8) (oathRecordFids slot) next targetSlot)
  rw [oathLayoutRetire, toUInt8_toUInt32]

/-- **OATH credentials keep to the rules.** -/
theorem oathLayoutSpec :
    ContainerLayoutSpec (oathContainerLayout sha256) slot.toUInt32 fun _ ↦ True where
  valid := rfl
  manifest_ne := (oathNumbering slot).manifest_ne
  record_ne_manifest := (oathNumbering slot).record_ne_manifest
  allocate := (oathNumbering slot).wp_recordAllocate
  activate A s := by
    refine (confined_markerActivate (F := (· = oathMarkerFid slot.toUInt32.toUInt8)) rfl
      _).untouched ?_ A s
    rintro fid rfl hfid
    exact absurd rfl (oath_marker_ne slot hfid)
  deactivate A s := by
    refine wp_seq (wp_forEach (I := Shrunk s) (fun _ ↦ .inl rfl) fun fid _ s₁ hs₁ ↦
      wp_fileDeletePresent_shrunk hs₁) (fun _ s₁ h ↦ ?_) fun _ _ _ ↦ trivial
    exact wp_mono (wp_fileDeletePresent_shrunk h) (fun _ _ h fid _ ↦ h fid) fun _ _ _ ↦ trivial
  retire A candidates next _ targetSlot s hcandidates := by
    rw [oath_retire_eq]
    exact (oathNumbering slot).wp_retire A s hcandidates

theorem oathLayoutSweeps : LayoutSweeps (oathContainerLayout sha256) slot.toUInt32 := by
  intro candidates next currentSlot targetSlot s hcandidates
  rw [oath_retire_eq]
  exact (oathNumbering slot).wp_retire_unreferenced s hcandidates

end Rules

end PicoAll
