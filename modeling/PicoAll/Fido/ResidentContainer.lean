import PicoAll.Fs.SlotLayout

/-!
# Resident credentials

`resident_container.c`: one container for each resident credential, with up to seven objects. The
container id is the credential's slot, a byte. Private keys and states had other numbers once, and
the layout still accepts them; it allocates none of them.
-/

namespace PicoAll

open FaultProgram BigEndian UInt8 List

/-- `FIDO_RESIDENT_OBJECT_METADATA`. -/
abbrev residentObjectMetadata : UInt16 := 5

/-- `FIDO_RESIDENT_OBJECT_PRIVATE_KEY`. -/
abbrev residentObjectPrivateKey : UInt16 := 6

/-- `FIDO_RESIDENT_OBJECT_STATE`. -/
abbrev residentObjectState : UInt16 := 7

/-- `FIDO_RESIDENT_POLICY_ID`. -/
abbrev residentPolicyId : UInt16 := 0x0200

/-- `EF_CRED`, of a credential's slot. -/
def residentMarkerFid (slot : UInt8) : ℕ :=
  prefixedFid 0xcf slot

def residentManifestFid (slot : UInt8) (manifestSlot : Fin 2) : ℕ :=
  prefixedFid (if manifestSlot = 0 then 0xd1 else 0xd2) slot

/-- The file of a record goes by the credential, the slot and the type. -/
def residentRecordFid (slot : UInt8) (manifestSlot : Fin 2) (objectType : UInt16) : ℕ :=
  if objectType = residentObjectMetadata then
    prefixedFid (if manifestSlot = 0 then 0xdb else 0xdc) slot
  else if objectType = residentObjectPrivateKey then
    prefixedFid (if manifestSlot = 0 then 0xe0 else 0xe1) slot
  else if objectType = residentObjectState then
    prefixedFid (if manifestSlot = 0 then 0xe2 else 0xe3) slot
  else
    prefixedFid ((if manifestSlot = 0 then 0xd3 else 0xd7) + objectType.toNat - 1) slot

def residentRecordFidLegacy (slot : UInt8) (manifestSlot : Fin 2) (objectType : UInt16) : ℕ :=
  if objectType = residentObjectMetadata then
    prefixedFid (if manifestSlot = 0 then 0xdb else 0xdc) slot
  else
    prefixedFid ((if manifestSlot = 0 then 0xd3 else 0xd7) + objectType.toNat - 1) slot

def residentObjectTypeValid (objectType : UInt16) : Bool :=
  decide (1 ≤ objectType) && decide (objectType ≤ residentObjectState)

def residentRecordIdValid (slot : UInt8) (object : FileObjectDescriptor) : Bool :=
  residentObjectTypeValid object.objectType && decide (object.recordId.toNat ≤ UINT16_MAX) &&
    (object.recordId.toNat == residentRecordFid slot 0 object.objectType ||
      object.recordId.toNat == residentRecordFid slot 1 object.objectType ||
      ((object.objectType == residentObjectPrivateKey || object.objectType == residentObjectState) &&
        (object.recordId.toNat == residentRecordFidLegacy slot 0 object.objectType ||
          object.recordId.toNat == residentRecordFidLegacy slot 1 object.objectType)))

def residentLayoutRecordFid (containerId : UInt32) (object : FileObjectDescriptor) :
    Except Status ℕ :=
  if containerId > 0xff ∨ !residentRecordIdValid containerId.toUInt8 object then
    .error .wrongData
  else
    .ok object.recordId.toNat

def residentLayoutRecordAllocate (containerId : UInt32) (targetSlot : Fin 2)
    (write : FileObjectContainerWrite) (_auth : FileObjectAuthenticator) :
    FsProg TxnRam (UInt64 × ℕ) :=
  if containerId > 0xff ∨ !residentObjectTypeValid write.objectType then
    FaultProgram.fail .nullParam
  else
    let fid := residentRecordFid containerId.toUInt8 targetSlot write.objectType
    pure (.ofNat fid, fid)

def residentPolicyHash (sha256 : Bytes → Bytes) (policyId : UInt16) : Except Status Bytes :=
  if policyId ≠ residentPolicyId then .error .wrongData
  else fileObjectPolicyHash sha256 internalPolicy

def residentLayoutWriteValid (write : FileObjectContainerWrite) : Bool :=
  residentObjectTypeValid write.objectType && write.objectTag == 0 &&
    write.policyId == residentPolicyId && write.keyDomain == 0

def residentLayoutDescriptorValid (containerId : UInt32) (object : FileObjectDescriptor) : Bool :=
  decide (containerId ≤ 0xff) && object.objectTag == 0 &&
    residentRecordIdValid containerId.toUInt8 object

/-- The record files of a slot, by type. -/
def residentRecordFids (slot : UInt8) (manifestSlot : Fin 2) : List ℕ :=
  [1, 2, 3, 4, 5, 6, 7].map (residentRecordFid slot manifestSlot)

/-- `resident_layout_activate`: the marker is written unless it is there. -/
def residentLayoutActivate [FileDeletion] (containerId : UInt32) : FsProg TxnRam Unit :=
  markerActivate (residentMarkerFid containerId.toUInt8)
    (containerMarker [0x50, 0x4b, 0x46, 0x31] containerId.toUInt8)

def residentLayoutRetire [FileDeletion] (containerId : UInt32)
    (_candidates : Fin 2 → Option FileObjectManifest) (next : FileObjectManifest)
    (_currentSlot : Option (Fin 2)) (targetSlot : Fin 2) : FsProg TxnRam Unit :=
  sweep (retireFids (residentManifestFid containerId.toUInt8)
    (residentRecordFids containerId.toUInt8) next targetSlot)

def residentLayoutDeactivate [FileDeletion] (containerId : UInt32) : FsProg TxnRam Unit := do
  sweep (residentRecordFids containerId.toUInt8 0 ++ residentRecordFids containerId.toUInt8 1)
  fileDeletePresent (residentMarkerFid containerId.toUInt8)

/-- The container of a resident credential. -/
def residentContainerLayout [FileDeletion] (sha256 : Bytes → Bytes) : FileObjectContainerLayout where
  namespaceId := 2
  containerKind := 1
  manifestFid containerId := residentManifestFid containerId.toUInt8
  recordFid := residentLayoutRecordFid
  recordAllocate := residentLayoutRecordAllocate
  policyHash := residentPolicyHash sha256
  writeValid := residentLayoutWriteValid
  descriptorValid := residentLayoutDescriptorValid
  activate := residentLayoutActivate
  deactivate := residentLayoutDeactivate
  retire := residentLayoutRetire
  rollbackNewRecords := true

/-! ### The rules -/

section Rules

variable {sha256 : Bytes → Bytes} (slot : UInt8)

/-- The types of a credential's objects. -/
abbrev residentTypes : List UInt16 :=
  [1, 2, 3, 4, 5, 6, 7]

theorem mem_residentTypes {objectType : UInt16} (h : residentObjectTypeValid objectType = true) :
    objectType ∈ residentTypes := by
  rw [residentObjectTypeValid, Bool.and_eq_true, decide_eq_true_eq, decide_eq_true_eq,
    UInt16.le_iff_toNat_le, UInt16.le_iff_toNat_le] at h
  have hone : (1 : UInt16).toNat = 1 := rfl
  have hseven : residentObjectState.toNat = 7 := rfl
  have hcases : objectType.toNat = 1 ∨ objectType.toNat = 2 ∨ objectType.toNat = 3 ∨
      objectType.toNat = 4 ∨ objectType.toNat = 5 ∨ objectType.toNat = 6 ∨
      objectType.toNat = 7 := by omega
  simp only [residentTypes, mem_cons, not_mem_nil, or_false, ← UInt16.toNat_inj]
  exact hcases

/-! The slot is the low byte of every file, so that everything there is to know about the files can
be read off those of slot zero. -/

theorem residentManifestFid_eq (manifestSlot : Fin 2) :
    residentManifestFid slot manifestSlot = residentManifestFid 0 manifestSlot + slot.toNat :=
  prefixedFid_eq ..

theorem residentRecordFid_eq (manifestSlot : Fin 2) (objectType : UInt16) :
    residentRecordFid slot manifestSlot objectType =
      residentRecordFid 0 manifestSlot objectType + slot.toNat := by
  rw [residentRecordFid, residentRecordFid]
  split_ifs <;> exact prefixedFid_eq ..

theorem residentRecordFidLegacy_eq (manifestSlot : Fin 2) (objectType : UInt16) :
    residentRecordFidLegacy slot manifestSlot objectType =
      residentRecordFidLegacy 0 manifestSlot objectType + slot.toNat := by
  rw [residentRecordFidLegacy, residentRecordFidLegacy]
  split_ifs <;> exact prefixedFid_eq ..

theorem residentRecordFid_inj : ∀ objectType ∈ residentTypes, ∀ objectType' ∈ residentTypes,
    ∀ manifestSlot manifestSlot' : Fin 2,
      residentRecordFid 0 manifestSlot objectType = residentRecordFid 0 manifestSlot' objectType' →
        objectType = objectType' := by
  decide

theorem residentRecordFid_range : ∀ objectType ∈ residentTypes, ∀ manifestSlot : Fin 2,
    (0xd300 ≤ residentRecordFid 0 manifestSlot objectType ∧
      residentRecordFid 0 manifestSlot objectType ≤ 0xe300) ∧
    0xd300 ≤ residentRecordFidLegacy 0 manifestSlot objectType ∧
      residentRecordFidLegacy 0 manifestSlot objectType ≤ 0xe300 := by
  decide

theorem residentManifestFid_lt (manifestSlot : Fin 2) :
    0xd100 ≤ residentManifestFid slot manifestSlot ∧
      residentManifestFid slot manifestSlot < 0xd300 := by
  have hlt := slot.toNat_lt
  rw [residentManifestFid, prefixedFid]
  split_ifs <;> omega

/-- The files of a credential's records lie above its manifests. -/
theorem residentRecordIdValid_range {object : FileObjectDescriptor}
    (h : residentRecordIdValid slot object = true) :
    0xd300 ≤ object.recordId.toNat ∧ object.recordId.toNat < 0xe400 := by
  simp only [residentRecordIdValid, Bool.and_eq_true, Bool.or_eq_true, beq_iff_eq] at h
  have hlt := slot.toNat_lt
  have hrange := residentRecordFid_range object.objectType (mem_residentTypes h.1.1)
  have h0 := hrange 0
  have h1 := hrange 1
  obtain ⟨-, (h | h) | ⟨-, h | h⟩⟩ := h <;>
    simp only [residentRecordFid_eq slot, residentRecordFidLegacy_eq slot] at h <;> omega

theorem resident_recordFid_eq_ok {object : FileObjectDescriptor} {fid : ℕ} :
    (residentContainerLayout sha256).recordFid slot.toUInt32 object = .ok fid ↔
      residentRecordIdValid slot object = true ∧ fid = object.recordId.toNat := by
  exact @slotRecordFid_eq_ok fid slot (residentRecordIdValid · object) _

/-- The file of a key of a credential. -/
def residentNumber (manifestSlot : Fin 2) (key : UInt16 × UInt16) : ℕ :=
  residentRecordFid slot manifestSlot key.1

theorem residentNumber_range (manifestSlot : Fin 2) {key : UInt16 × UInt16}
    (hkey : residentObjectTypeValid key.1 = true) :
    0xd300 ≤ residentNumber slot manifestSlot key ∧
      residentNumber slot manifestSlot key < 0xe400 := by
  have hlt := slot.toNat_lt
  have hrange := (residentRecordFid_range key.1 (mem_residentTypes hkey) manifestSlot).1
  rw [residentNumber, residentRecordFid_eq]
  omega

theorem residentLayoutWriteValid_fields {write : FileObjectContainerWrite}
    (h : residentLayoutWriteValid write = true) :
    residentObjectTypeValid write.objectType = true ∧ write.objectTag = 0 := by
  simp only [residentLayoutWriteValid, Bool.and_eq_true, beq_iff_eq] at h
  exact ⟨h.1.1.1, h.1.1.2⟩

/-- The numbering of a resident credential. -/
theorem residentNumbering : SweepNumbering (residentContainerLayout sha256) slot.toUInt32
    (fun _ ↦ True) (residentNumber slot)
    (fun key ↦ residentObjectTypeValid key.1 = true ∧ key.2 = 0) (residentRecordFids slot) where
  allocate manifestSlot write auth hkey := by
    obtain ⟨hkey, -⟩ : residentObjectTypeValid write.objectType = true ∧ write.objectTag = 0 := hkey
    show residentLayoutRecordAllocate slot.toUInt32 manifestSlot write auth = _
    have hle : ¬slot.toUInt32 > 0xff := UInt32.not_lt.mpr (toUInt32_le slot)
    simp only [residentLayoutRecordAllocate, hkey, hle, toUInt8_toUInt32]
    rfl
  key_of_writeValid write h := residentLayoutWriteValid_fields h
  recordFid object fid _ hfid := ((resident_recordFid_eq_ok slot).mp hfid).2
  accepts manifestSlot write generation _ h := by
    obtain ⟨htype, htag⟩ := residentLayoutWriteValid_fields h
    have hrange := @residentNumber_range slot manifestSlot write.key htype
    have hid := toNat_recordId (hrange.2.trans (by decide))
    have hvalid : residentRecordIdValid slot (write.descriptor generation
        (.ofNat (residentNumber slot manifestSlot write.key))) = true := by
      simp only [residentRecordIdValid, FileObjectContainerWrite.descriptor, htype, hid,
        Bool.and_eq_true, Bool.or_eq_true, beq_iff_eq, decide_eq_true_eq]
      exact ⟨⟨trivial, Nat.le_of_lt_succ (hrange.2.trans (by decide))⟩,
        .inl (slot_cases (fun manifestSlot ↦ residentNumber slot manifestSlot write.key) _)⟩
    refine ⟨?_, (resident_recordFid_eq_ok slot).mpr ⟨hvalid, hid.symm⟩⟩
    show residentLayoutDescriptorValid slot.toUInt32 _ = true
    rw [residentLayoutDescriptorValid, toUInt8_toUInt32, hvalid]
    simp only [toUInt32_le, FileObjectContainerWrite.descriptor, htag, decide_true,
      beq_self_eq_true, Bool.and_self]
  number_inj manifestSlot manifestSlot' key key' hkey hkey' h := by
    refine Prod.ext ?_ (hkey.2.trans hkey'.2.symm)
    rw [residentNumber, residentNumber, residentRecordFid_eq, residentRecordFid_eq slot,
      Nat.add_right_cancel_iff] at h
    exact residentRecordFid_inj _ (mem_residentTypes hkey.1) _ (mem_residentTypes hkey'.1) _ _ h
  number_pos manifestSlot key hkey := by
    have h := residentNumber_range slot manifestSlot hkey.1
    omega
  number_lt manifestSlot key hkey := by
    have h := residentNumber_range slot manifestSlot hkey.1
    omega
  manifest_ne manifestSlot := by
    show residentManifestFid _ _ ≠ residentManifestFid _ _
    rw [residentManifestFid_eq, residentManifestFid_eq _ manifestSlot]
    have hne : ∀ i : Fin 2, residentManifestFid 0 i.rev ≠ residentManifestFid 0 i := by decide
    have h := hne manifestSlot
    omega
  record_ne_manifest object fid manifestSlot _ hfid := by
    obtain ⟨hvalid, rfl⟩ := (resident_recordFid_eq_ok slot).mp hfid
    have hrecord := (residentRecordIdValid_range slot hvalid).1
    have hmanifest := residentManifestFid_lt slot manifestSlot
    show _ ≠ residentManifestFid slot.toUInt32.toUInt8 manifestSlot
    rw [toUInt8_toUInt32]
    omega
  recordFids_ne_manifest manifestSlot manifestSlot' hmem := by
    obtain ⟨objectType, htype, heq⟩ := mem_map.mp hmem
    have hrecord := (residentRecordFid_range objectType htype manifestSlot').1.1
    have hmanifest := residentManifestFid_lt slot manifestSlot
    rw [residentRecordFid_eq] at heq
    replace heq : residentRecordFid 0 manifestSlot' objectType + slot.toNat =
      residentManifestFid slot.toUInt32.toUInt8 manifestSlot := heq
    rw [toUInt8_toUInt32] at heq
    omega
  number_mem manifestSlot key hkey := mem_map_of_mem (mem_residentTypes hkey.1)

/-- The marker is not one of the container's files. -/
theorem resident_marker_ne {fid : ℕ}
    (h : ContainerFid (residentContainerLayout sha256) slot.toUInt32 fid) :
    fid ≠ residentMarkerFid slot.toUInt32.toUInt8 := by
  have hmarker : residentMarkerFid slot.toUInt32.toUInt8 < 0xd000 := by
    have hlt := slot.toNat_lt
    rw [toUInt8_toUInt32, residentMarkerFid, prefixedFid]
    omega
  rcases h with ⟨manifestSlot, rfl⟩ | ⟨object, -, hfid⟩
  · have hmanifest := (residentManifestFid_lt slot manifestSlot).1
    show residentManifestFid slot.toUInt32.toUInt8 manifestSlot ≠ _
    rw [toUInt8_toUInt32] at hmarker ⊢
    omega
  · obtain ⟨hvalid, rfl⟩ := (resident_recordFid_eq_ok slot).mp hfid
    have hrecord := (residentRecordIdValid_range slot hvalid).1
    omega

theorem resident_retire_eq (candidates : Fin 2 → Option FileObjectManifest)
    (next : FileObjectManifest) (currentSlot : Option (Fin 2)) (targetSlot : Fin 2) :
    (residentContainerLayout sha256).retire slot.toUInt32 candidates next currentSlot targetSlot =
      sweep (retireFids ((residentContainerLayout sha256).manifestFid slot.toUInt32)
        (residentRecordFids slot) next targetSlot) := by
  show residentLayoutRetire slot.toUInt32 candidates next currentSlot targetSlot =
    sweep (retireFids (residentManifestFid slot.toUInt32.toUInt8) (residentRecordFids slot) next
      targetSlot)
  rw [residentLayoutRetire, toUInt8_toUInt32]

/-- **Resident credentials keep to the rules.** -/
theorem residentLayoutSpec :
    ContainerLayoutSpec (residentContainerLayout sha256) slot.toUInt32 fun _ ↦ True where
  valid := rfl
  manifest_ne := (residentNumbering slot).manifest_ne
  record_ne_manifest := (residentNumbering slot).record_ne_manifest
  allocate := (residentNumbering slot).wp_recordAllocate
  activate A s := by
    refine (confined_markerActivate (F := (· = residentMarkerFid slot.toUInt32.toUInt8)) rfl
      _).untouched ?_ A s
    rintro fid rfl hfid
    exact absurd rfl (resident_marker_ne slot hfid)
  deactivate A s := by
    refine wp_seq (wp_sweep A _ s) (fun _ s₁ h ↦ ?_) fun _ _ _ ↦ trivial
    exact wp_mono (wp_fileDeletePresent_shrunk h.shrunk) (fun _ _ h fid _ ↦ h fid)
      fun _ _ _ ↦ trivial
  retire A candidates next _ targetSlot s hcandidates := by
    rw [resident_retire_eq]
    exact (residentNumbering slot).wp_retire A s hcandidates

theorem residentLayoutSweeps :
    LayoutSweeps (residentContainerLayout sha256) slot.toUInt32 := by
  intro candidates next currentSlot targetSlot s hcandidates
  rw [resident_retire_eq]
  exact (residentNumbering slot).wp_retire_unreferenced s hcandidates

end Rules

end PicoAll
