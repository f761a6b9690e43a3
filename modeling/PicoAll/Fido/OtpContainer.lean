import PicoAll.Fs.SlotLayout

/-!
# The OTP bank as a container

The layout of `otp_container.c`: one container with, for each of the four OTP slots, a secret and
its metadata, and an index that says which slots are active. An object's record has a number in
each manifest slot, which its type and its tag give.
-/

namespace PicoAll

open FaultProgram BigEndian

/-- `FIDO_OTP_SLOT_COUNT`. -/
abbrev otpSlotCount : UInt16 := 4

/-- `FIDO_OTP_OBJECT_SECRET`. -/
abbrev otpObjectSecret : UInt16 := 1

/-- `FIDO_OTP_OBJECT_METADATA`. -/
abbrev otpObjectMetadata : UInt16 := 2

/-- `FIDO_OTP_OBJECT_INDEX`. -/
abbrev otpObjectIndex : UInt16 := 3

/-- `FIDO_OTP_POLICY_ID`. -/
abbrev otpPolicyId : UInt16 := 0x0400

/-- `FIDO_OTP_TRANSACTION_GROUP`. -/
abbrev otpTransactionGroup : UInt16 := 1

/-- `FIDO_OTP_RECORD_COUNT`. -/
abbrev otpRecordCount : ℕ := 9

variable (slot : Fin 2)

def otpManifestFid : ℕ :=
  prefixedFid (if slot = 0 then 0xb6 else 0xb7) 0

def otpRecordIndex (objectType objectTag : UInt16) : UInt8 :=
  if objectType = otpObjectSecret then objectTag.toUInt8
  else if objectType = otpObjectMetadata then otpSlotCount.toUInt8 + objectTag.toUInt8
  else 8

/-- `FIDO_OTP_RECORD_PREFIX_0` and `FIDO_OTP_RECORD_PREFIX_1`. -/
def otpRecordPrefix : ℕ :=
  if slot = 0 then 0xb8 else 0xb9

def otpRecordFid (objectType objectTag : UInt16) : ℕ :=
  prefixedFid (otpRecordPrefix slot) (otpRecordIndex objectType objectTag)

def otpObjectIdentityValid (objectType objectTag : UInt16) : Bool :=
  if objectType = otpObjectIndex then
    objectTag == 0
  else
    (objectType == otpObjectSecret || objectType == otpObjectMetadata) &&
      decide (objectTag < otpSlotCount)

def otpRecordIdValid (object : FileObjectDescriptor) : Bool :=
  object.recordId.toNat == otpRecordFid 0 object.objectType object.objectTag ||
    object.recordId.toNat == otpRecordFid 1 object.objectType object.objectTag

def otpPolicyHash (sha256 : Bytes → Bytes) (policyId : UInt16) : Except Status Bytes :=
  if policyId ≠ otpPolicyId then .error .wrongData
  else fileObjectPolicyHash sha256 internalPolicy

def otpLayoutRecordFid (_containerId : UInt32) (object : FileObjectDescriptor) :
    Except Status ℕ :=
  if !otpObjectIdentityValid object.objectType object.objectTag || !otpRecordIdValid object then
    .error .wrongData
  else
    .ok object.recordId.toNat

def otpLayoutRecordAllocate (_containerId : UInt32) (targetSlot : Fin 2)
    (write : FileObjectContainerWrite) (_auth : FileObjectAuthenticator) :
    FsProg TxnRam (UInt64 × ℕ) :=
  if !otpObjectIdentityValid write.objectType write.objectTag then
    FaultProgram.fail .nullParam
  else
    let fid := otpRecordFid targetSlot write.objectType write.objectTag
    pure (.ofNat fid, fid)

/-- The protection and flags that go with a type. -/
def otpClassValid (objectType : UInt16) (protection : UInt8) (flags : UInt16) : Bool :=
  if objectType = otpObjectSecret then
    protection == protectionAeadSecret &&
      flags == flagMutable ||| flagNonExportable ||| flagTransactionGroup
  else
    protection == protectionAuthenticatedPublic && flags == flagMutable ||| flagTransactionGroup

def otpLayoutWriteValid (write : FileObjectContainerWrite) : Bool :=
  otpObjectIdentityValid write.objectType write.objectTag && write.policyId == otpPolicyId &&
    write.keyDomain == 0 && write.transactionGroup == otpTransactionGroup &&
    otpClassValid write.objectType write.protection write.flags

def otpLayoutDescriptorValid (_containerId : UInt32) (object : FileObjectDescriptor) : Bool :=
  otpObjectIdentityValid object.objectType object.objectTag && object.policyId == otpPolicyId &&
    object.keyDomain == 0 && object.transactionGroup == otpTransactionGroup &&
    otpRecordIdValid object && otpClassValid object.objectType object.protection object.flags

/-- The record files of a slot, by index. -/
def otpRecordFids : List ℕ :=
  (List.range otpRecordCount).map fun index ↦ prefixedFid (otpRecordPrefix slot) (.ofNat index)

def otpLayoutRetire (_containerId : UInt32) (_candidates : Fin 2 → Option FileObjectManifest)
    (next : FileObjectManifest) (_currentSlot : Option (Fin 2)) (targetSlot : Fin 2) :
    FsProg TxnRam Unit :=
  sweep (retireFids otpManifestFid otpRecordFids next targetSlot)

/-- The container of the OTP slots. -/
def otpContainerLayout (sha256 : Bytes → Bytes) : FileObjectContainerLayout where
  namespaceId := 4
  containerKind := 3
  manifestFid _ := otpManifestFid
  recordFid := otpLayoutRecordFid
  recordAllocate := otpLayoutRecordAllocate
  policyHash := otpPolicyHash sha256
  writeValid := otpLayoutWriteValid
  descriptorValid := otpLayoutDescriptorValid
  activate _ := pure ()
  deactivate _ := pure ()
  retire := otpLayoutRetire
  rollbackNewRecords := false

/-! ### The rules -/

section Rules

variable {sha256 : Bytes → Bytes} {containerId : UInt32} {object : FileObjectDescriptor}

theorem otp_recordFid_eq_ok {fid : ℕ} :
    (otpContainerLayout sha256).recordFid containerId object = .ok fid ↔
      otpObjectIdentityValid object.objectType object.objectTag = true ∧
        otpRecordIdValid object = true ∧ fid = object.recordId.toNat := by
  show otpLayoutRecordFid containerId object = .ok fid ↔ _
  rw [otpLayoutRecordFid]
  split_ifs with h
  · rw [Bool.or_eq_true, Bool.not_eq_true', Bool.not_eq_true'] at h
    rcases h with h | h <;> simp [h]
  · rw [Bool.or_eq_true, Bool.not_eq_true', Bool.not_eq_true', not_or, Bool.not_eq_false,
      Bool.not_eq_false] at h
    simp [h.1, h.2, eq_comm]

theorem otpRecordFid_range (slot : Fin 2) (objectType objectTag : UInt16) :
    0xb800 ≤ otpRecordFid slot objectType objectTag ∧
      otpRecordFid slot objectType objectTag < 0xba00 := by
  have hlt := (otpRecordIndex objectType objectTag).toNat_lt
  rw [otpRecordFid, prefixedFid, otpRecordPrefix]
  split_ifs <;> omega

theorem otpManifestFid_range (slot : Fin 2) :
    0xb600 ≤ otpManifestFid slot ∧ otpManifestFid slot < 0xb800 := by
  rw [otpManifestFid, prefixedFid]
  split_ifs <;> decide

theorem otpRecordIdValid_range (h : otpRecordIdValid object = true) :
    0xb800 ≤ object.recordId.toNat ∧ object.recordId.toNat < 0xba00 := by
  rw [otpRecordIdValid, Bool.or_eq_true, beq_iff_eq, beq_iff_eq] at h
  rcases h with h | h <;> rw [h] <;> exact otpRecordFid_range _ _ _

/-- The keys of the bank. -/
def otpKeys : List (UInt16 × UInt16) :=
  [(1, 0), (1, 1), (1, 2), (1, 3), (2, 0), (2, 1), (2, 2), (2, 3), (3, 0)]

theorem mem_otpKeys {key : UInt16 × UInt16} (h : otpObjectIdentityValid key.1 key.2 = true) :
    key ∈ otpKeys := by
  obtain ⟨objectType, objectTag⟩ := key
  have htag (hlt : objectTag < otpSlotCount) :
      objectTag = 0 ∨ objectTag = 1 ∨ objectTag = 2 ∨ objectTag = 3 := by
    rw [UInt16.lt_iff_toNat_lt] at hlt
    simp only [← UInt16.toNat_inj]
    have hfour : otpSlotCount.toNat = 4 := rfl
    have h0 : (0 : UInt16).toNat = 0 := rfl
    have h1 : (1 : UInt16).toNat = 1 := rfl
    have h2 : (2 : UInt16).toNat = 2 := rfl
    have h3 : (3 : UInt16).toNat = 3 := rfl
    omega
  rw [otpObjectIdentityValid] at h
  split_ifs at h with hindex
  · have hzero : objectTag = 0 := by simpa using h
    rw [show objectType = 3 from hindex, hzero]
    decide
  · rw [Bool.and_eq_true, Bool.or_eq_true, beq_iff_eq, beq_iff_eq, decide_eq_true_eq] at h
    obtain ⟨htype, hlt⟩ := h
    rcases htype with rfl | rfl <;> rcases htag hlt with rfl | rfl | rfl | rfl <;> decide

/-- The bank's file of a key. -/
def otpNumber (slot : Fin 2) (key : UInt16 × UInt16) : ℕ :=
  otpRecordFid slot key.1 key.2

/-- The index of a record gives its key away. -/
theorem otpRecordIndex_inj : ∀ key ∈ otpKeys, ∀ key' ∈ otpKeys,
    otpRecordIndex key.1 key.2 = otpRecordIndex key'.1 key'.2 → key = key' := by
  decide

theorem otpRecordIndex_lt : ∀ key ∈ otpKeys,
    ∃ index ∈ List.range otpRecordCount, UInt8.ofNat index = otpRecordIndex key.1 key.2 := by
  decide

theorem otpManifestFid_ne : ∀ slot : Fin 2, otpManifestFid slot.rev ≠ otpManifestFid slot := by
  decide

theorem otpManifestFid_notMem : ∀ slot slot' : Fin 2, otpManifestFid slot ∉ otpRecordFids slot' := by
  decide

/-- The numbering of the OTP slots. -/
theorem otpNumbering : SweepNumbering (otpContainerLayout sha256) containerId (fun _ ↦ True)
    otpNumber (fun key ↦ otpObjectIdentityValid key.1 key.2 = true) otpRecordFids where
  allocate slot write auth hkey := by
    replace hkey : otpObjectIdentityValid write.objectType write.objectTag = true := hkey
    show otpLayoutRecordAllocate containerId slot write auth = _
    simp only [otpLayoutRecordAllocate, hkey]
    rfl
  key_of_writeValid write h := by
    replace h : otpLayoutWriteValid write = true := h
    simp only [otpLayoutWriteValid, Bool.and_eq_true] at h
    exact h.1.1.1.1
  recordFid object fid _ hfid := (otp_recordFid_eq_ok.mp hfid).2.2
  accepts slot write generation _ h := by
    replace h : otpLayoutWriteValid write = true := h
    simp only [otpLayoutWriteValid, Bool.and_eq_true, beq_iff_eq] at h
    obtain ⟨⟨⟨⟨hkey, hpolicy⟩, hdomain⟩, hgroup⟩, hclass⟩ := h
    have hrange := otpRecordFid_range slot write.objectType write.objectTag
    have hid := toNat_recordId (hrange.2.trans (by decide))
    have hvalid : otpRecordIdValid (write.descriptor generation
        (.ofNat (otpNumber slot write.key))) = true := by
      simp only [otpRecordIdValid, FileObjectContainerWrite.descriptor, otpNumber,
        FileObjectContainerWrite.key, hid, Bool.or_eq_true, beq_iff_eq]
      exact slot_cases (fun slot ↦ otpRecordFid slot write.objectType write.objectTag) _
    refine ⟨?_, otp_recordFid_eq_ok.mpr ⟨hkey, hvalid, hid.symm⟩⟩
    show otpLayoutDescriptorValid containerId _ = true
    rw [otpLayoutDescriptorValid, hvalid]
    simp only [FileObjectContainerWrite.descriptor, hkey, hpolicy, hdomain, hgroup, hclass,
      beq_self_eq_true, Bool.and_self]
  number_inj slot slot' key key' hkey hkey' h := by
    rw [otpNumber, otpNumber, otpRecordFid, otpRecordFid, prefixedFid_inj] at h
    exact otpRecordIndex_inj key (mem_otpKeys hkey) key' (mem_otpKeys hkey') h.2
  number_pos slot key _ := by
    have h := (otpRecordFid_range slot key.1 key.2).1
    exact Nat.lt_of_lt_of_le (by decide) h
  number_lt slot key _ := (otpRecordFid_range slot key.1 key.2).2.trans (by decide)
  manifest_ne := otpManifestFid_ne
  record_ne_manifest object fid slot _ hfid := by
    obtain ⟨-, hvalid, rfl⟩ := otp_recordFid_eq_ok.mp hfid
    have hrecord := (otpRecordIdValid_range hvalid).1
    have hmanifest := (otpManifestFid_range slot).2
    show _ ≠ otpManifestFid slot
    omega
  recordFids_ne_manifest := otpManifestFid_notMem
  number_mem slot key hkey := by
    obtain ⟨index, hindex, heq⟩ := otpRecordIndex_lt key (mem_otpKeys hkey)
    exact List.mem_map.mpr ⟨index, hindex, by rw [heq]; rfl⟩

/-- **The OTP bank keeps to the rules.** -/
theorem otpLayoutSpec : ContainerLayoutSpec (otpContainerLayout sha256) containerId
    fun _ ↦ True where
  valid := rfl
  manifest_ne := otpNumbering.manifest_ne
  record_ne_manifest := otpNumbering.record_ne_manifest
  allocate := otpNumbering.wp_recordAllocate
  activate _ _ := wp_pure fun _ _ ↦ rfl
  deactivate _ _ := wp_pure fun _ _ ↦ .inl rfl
  retire A _ _ _ _ s hcandidates := otpNumbering.wp_retire A s hcandidates

theorem otpLayoutSweeps : LayoutSweeps (otpContainerLayout sha256) containerId :=
  fun _ _ _ _ s hcandidates ↦ otpNumbering.wp_retire_unreferenced s hcandidates

end Rules

end PicoAll
