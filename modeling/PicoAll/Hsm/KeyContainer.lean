import PicoAll.Fs.RecordId

/-!
# HSM keys

`key_container.c` of the HSM: one container for each key, with the private key and what goes with
it. Record ids come from an allocator that all keys share, which skips the ids whose file is taken,
so that a record never lands on another one. The clean-up deletes what the overwritten manifest
named and neither of the remaining two does; the records of the manifest before the current one
stay.
-/

namespace PicoAll

open FaultProgram BigEndian List

abbrev hsmObjectKeyPolicyId : UInt16 := 0x0101

abbrev hsmKeyInternalPolicyId : UInt16 := 0x01ff

abbrev hsmKeyAllocatorMarkerFid : ℕ := 0xd2ef

abbrev hsmKeyRecordFidMask : ℕ := 0x1fff

def hsmKeyAllocatorMarkerMagic : Bytes :=
  [0x50, 0x4b, 0x41, 0x31]

/-- `hsm_object_key_policy`: three rules, for a user, an administrator and the firmware. -/
def hsmObjectKeyPolicy : Bytes :=
  [1, 3,
    0x0f, 0x7c, 0x00, 0x00, 0x04, 0x46, 0x00, 0x00, 0x00, 0x00, 0x00, 0x01, 0x00, 0x00,
    0x0f, 0x7c, 0x00, 0x00, 0x04, 0x4a, 0x00, 0x00, 0x00, 0x00, 0x00, 0x01, 0x00, 0x00,
    0x0f, 0x7c, 0x00, 0x00, 0x04, 0x60, 0x00, 0x00, 0x00, 0x00, 0x00, 0x01, 0x00, 0x00]

abbrev objectNamespaceHsm : ℕ := 1

theorem objectNamespaceHsm_lt : objectNamespaceHsm < 256 ^ 2 := by decide

/-- The transaction that the last record id is kept in. -/
def hsmKeyRecordIdLayout : FileObjectTxnLayout where
  namespaceId := objectNamespaceHsm
  objectType := 0xfffe
  objectId := 0
  recordFid slot := if slot = 0 then 0xd2f0 else 0xd2f1
  commitFid slot := if slot = 0 then 0xd2f2 else 0xd2f3
  namespaceId_lt := objectNamespaceHsm_lt
  objectType_lt := by decide
  objectId_lt := by decide
  recordFid_lt := by decide
  commitFid_lt := by decide

def hsmKeyManifestFid (keyId : UInt8) (slot : Fin 2) : ℕ :=
  prefixedFid (if slot = 0 then 0xd0 else 0xd1) keyId

/-- `hsm_key_record_fid`. The mask leaves the bits of `HSM_KEY_RECORD_FID_MIN` alone. -/
def hsmKeyRecordFid (recordId : UInt64) : ℕ :=
  0xe000 + recordId.toNat % (hsmKeyRecordFidMask + 1)

/-- The file of a key's marker, under `HSM_OBJECT_PREFIX`. -/
def hsmKeyMarkerFid (keyId : UInt8) : ℕ :=
  prefixedFid 0xc7 keyId

/-- `hsm_key_allocator_claim`: the allocator's files are taken, unless they are someone else's. -/
def hsmKeyAllocatorClaim : FsProg TxnRam Unit := do
  if (← fileSearch hsmKeyAllocatorMarkerFid) = some hsmKeyAllocatorMarkerMagic then
    pure ()
  else if (← fileSearch hsmKeyAllocatorMarkerFid).isSome ∨
      (← fileSearch (hsmKeyRecordIdLayout.recordFid 0)).isSome ∨
      (← fileSearch (hsmKeyRecordIdLayout.recordFid 1)).isSome ∨
      (← fileSearch (hsmKeyRecordIdLayout.commitFid 0)).isSome ∨
      (← fileSearch (hsmKeyRecordIdLayout.commitFid 1)).isSome then
    FaultProgram.fail .wrongData
  else do
    fileObjectContainerReplaceFile hsmKeyAllocatorMarkerFid hsmKeyAllocatorMarkerMagic
    flashCommitSync

/-- The loop of `hsm_key_record_id_allocate`, for a number of attempts. -/
def hsmKeyRecordIdAttempts (auth : FileObjectAuthenticator) : ℕ → FsProg TxnRam UInt64
  | 0 => FaultProgram.fail .noMemory
  | attempts + 1 => do
    let recordId ← fileObjectRecordIdAllocate (fun _ ↦ false) hsmKeyRecordIdLayout auth
    let file ← fileSearch (hsmKeyRecordFid recordId)
    if hsmKeyRecordFid recordId ≠ UINT16_MAX ∧ file = none then
      pure recordId
    else
      hsmKeyRecordIdAttempts auth attempts

def hsmKeyRecordIdAllocate (auth : FileObjectAuthenticator) : FsProg TxnRam UInt64 := do
  hsmKeyAllocatorClaim
  hsmKeyRecordIdAttempts auth (hsmKeyRecordFidMask + 1)

def hsmKeyPolicyHash (sha256 : Bytes → Bytes) (policyId : UInt16) : Except Status Bytes :=
  if policyId = hsmObjectKeyPolicyId then fileObjectPolicyHash sha256 hsmObjectKeyPolicy
  else if policyId = hsmKeyInternalPolicyId then fileObjectPolicyHash sha256 internalPolicy
  else .error .wrongData

def hsmKeyLayoutRecordFid (_containerId : UInt32) (object : FileObjectDescriptor) :
    Except Status ℕ :=
  if hsmKeyRecordFid object.recordId = UINT16_MAX then .error .wrongData
  else .ok (hsmKeyRecordFid object.recordId)

def hsmKeyLayoutRecordAllocate (_containerId : UInt32) (_targetSlot : Fin 2)
    (_write : FileObjectContainerWrite) (auth : FileObjectAuthenticator) :
    FsProg TxnRam (UInt64 × ℕ) := do
  let recordId ← hsmKeyRecordIdAllocate auth
  return (recordId, hsmKeyRecordFid recordId)

/-- `hsm_key_layout_activate`: the marker is written unless it is there. -/
def hsmKeyLayoutActivate (containerId : UInt32) : FsProg TxnRam Unit := do
  let keyId := containerId.toUInt8
  let marker := containerMarker [0x50, 0x4b, 0x48, 0x31] keyId
  if (← fileSearch (hsmKeyMarkerFid keyId)) = some marker then
    pure ()
  else do
    fileObjectContainerReplaceFile (hsmKeyMarkerFid keyId) marker
    flashCommitSync

def hsmKeyLayoutDeactivate (containerId : UInt32) : FsProg TxnRam Unit :=
  fileDeletePresent (hsmKeyMarkerFid containerId.toUInt8)

/-- The record ids that `hsm_key_layout_retire` deletes. -/
def hsmKeyRetired (candidates : Fin 2 → Option FileObjectManifest) (next : FileObjectManifest)
    (currentSlot : Option (Fin 2)) (targetSlot : Fin 2) : List UInt64 :=
  match candidates targetSlot with
  | none => []
  | some overwritten =>
    (overwritten.objects.map (·.recordId)).filter fun recordId ↦
      !fileObjectContainerReferences next recordId &&
        !(currentSlot.bind candidates).any (fileObjectContainerReferences · recordId)

def hsmKeyLayoutRetire (_containerId : UInt32) (candidates : Fin 2 → Option FileObjectManifest)
    (next : FileObjectManifest) (currentSlot : Option (Fin 2)) (targetSlot : Fin 2) :
    FsProg TxnRam Unit :=
  sweep ((hsmKeyRetired candidates next currentSlot targetSlot).map hsmKeyRecordFid)

/-- The container of an HSM key. -/
def hsmKeyContainerLayout (sha256 : Bytes → Bytes) : FileObjectContainerLayout where
  namespaceId := 1
  containerKind := 1
  manifestFid containerId := hsmKeyManifestFid containerId.toUInt8
  recordFid := hsmKeyLayoutRecordFid
  recordAllocate := hsmKeyLayoutRecordAllocate
  policyHash := hsmKeyPolicyHash sha256
  writeValid _ := true
  descriptorValid _ _ := true
  activate := hsmKeyLayoutActivate
  deactivate := hsmKeyLayoutDeactivate
  retire := hsmKeyLayoutRetire
  rollbackNewRecords := true

/-! ### The rules -/

section Rules

variable {sha256 : Bytes → Bytes} {containerId : UInt32} {fid : ℕ}

theorem hsm_recordFid_eq_ok {object : FileObjectDescriptor} :
    (hsmKeyContainerLayout sha256).recordFid containerId object = .ok fid ↔
      hsmKeyRecordFid object.recordId ≠ UINT16_MAX ∧ fid = hsmKeyRecordFid object.recordId := by
  show hsmKeyLayoutRecordFid containerId object = .ok fid ↔ _
  rw [hsmKeyLayoutRecordFid]
  split_ifs with h
  · simp [h]
  · simp [h, eq_comm]

theorem hsmKeyManifestFid_range (keyId : UInt8) (slot : Fin 2) :
    0xd000 ≤ hsmKeyManifestFid keyId slot ∧ hsmKeyManifestFid keyId slot < 0xd200 := by
  have hlt := keyId.toNat_lt
  rw [hsmKeyManifestFid, prefixedFid]
  split_ifs <;> omega

theorem hsmKeyMarkerFid_range (keyId : UInt8) :
    0xc700 ≤ hsmKeyMarkerFid keyId ∧ hsmKeyMarkerFid keyId < 0xc800 := by
  have hlt := keyId.toNat_lt
  rw [hsmKeyMarkerFid, prefixedFid]
  omega

/-- The files of a container are manifests or records. -/
theorem hsm_containerFid (h : ContainerFid (hsmKeyContainerLayout sha256) containerId fid) :
    0xd000 ≤ fid ∧ fid < 0xd200 ∨ 0xe000 ≤ fid := by
  rcases h with ⟨slot, rfl⟩ | ⟨object, -, hfid⟩
  · exact .inl (hsmKeyManifestFid_range containerId.toUInt8 slot)
  · obtain ⟨-, rfl⟩ := hsm_recordFid_eq_ok.mp hfid
    exact .inr (Nat.le_add_right ..)

/-- The allocator's own files. -/
def HsmAllocatorFid (fid : ℕ) : Prop :=
  fid = hsmKeyAllocatorMarkerFid ∨ TxnFid hsmKeyRecordIdLayout fid

theorem hsmAllocatorFid_range (h : HsmAllocatorFid fid) : 0xd200 ≤ fid ∧ fid < 0xd300 := by
  rcases h with rfl | ⟨slot, rfl | rfl⟩
  · exact ⟨by decide, by decide⟩
  · revert slot
    decide
  · revert slot
    decide

theorem confined_hsmKeyAllocatorClaim : Confined HsmAllocatorFid hsmKeyAllocatorClaim :=
  .bind (.fileSearch _) fun _ ↦ .ite (.pure _) (.bind (.fileSearch _) fun _ ↦
    .bind (.fileSearch _) fun _ ↦ .bind (.fileSearch _) fun _ ↦ .bind (.fileSearch _) fun _ ↦
    .bind (.fileSearch _) fun _ ↦ .ite (.fail _)
      (.bind (.replaceFile (.inl rfl) _) fun _ ↦ .flashCommitSync))

/-- The files other than the allocator's are as they were. -/
abbrev HsmFrame (s s' : FsState TxnRam) : Prop :=
  ∀ fid, ¬HsmAllocatorFid fid → s'.files fid = s.files fid

/-- **An allocated id** has a file, which is not there yet. By induction on the attempts. -/
theorem wp_hsmKeyRecordIdAttempts {A : Outcome → Prop} {auth : FileObjectAuthenticator}
    (attempts : ℕ) (s : FsState TxnRam) :
    wp A (hsmKeyRecordIdAttempts auth attempts)
      (fun r s' ↦ HsmFrame s s' ∧ r ≠ 0 ∧ hsmKeyRecordFid r ≠ UINT16_MAX ∧
        s'.files (hsmKeyRecordFid r) = none)
      (fun _ s' ↦ HsmFrame s s') s := by
  induction attempts generalizing s with
  | zero => exact wp_fail fun _ _ ↦ rfl
  | succ attempts ih =>
    have hframe {s s' : FsState TxnRam}
        (h : ∀ fid, ¬TxnFid hsmKeyRecordIdLayout fid → s'.files fid = s.files fid) :
        HsmFrame s s' := fun fid hfid ↦ h fid fun htxn ↦ hfid (.inr htxn)
    refine wp_seq (wp_fileObjectRecordIdAllocate A s) ?_ fun _ _ h ↦ hframe h
    rintro r s₁ ⟨hs₁, hr⟩
    refine wp_bind (wp_fileSearch (wp_ite (fun h ↦ wp_pure ⟨hframe hs₁, hr, h⟩) fun _ ↦ ?_))
    refine wp_mono (ih s₁) (fun r s₂ h ↦ ⟨fun fid hfid ↦ ?_, h.2⟩) fun _ s₂ h fid hfid ↦ ?_
    · exact (h.1 fid hfid).trans (hframe hs₁ fid hfid)
    · exact (h fid hfid).trans (hframe hs₁ fid hfid)

theorem hsmFrame_untouched {s s' : FsState TxnRam} (h : HsmFrame s s') :
    Untouched (hsmKeyContainerLayout sha256) containerId s s' := by
  intro fid hfid
  refine h fid fun hallocator ↦ ?_
  have hrange := hsmAllocatorFid_range hallocator
  rcases hsm_containerFid hfid with hfid | hfid <;> omega

theorem wp_hsmKeyLayoutRecordAllocate (A : Outcome → Prop) (slot : Fin 2)
    (write : FileObjectContainerWrite) (auth : FileObjectAuthenticator) (s : FsState TxnRam) :
    wp A ((hsmKeyContainerLayout sha256).recordAllocate containerId slot write auth)
      (fun r s' ↦ HsmFrame s s' ∧ r.1 ≠ 0 ∧ r.2 = hsmKeyRecordFid r.1 ∧ r.2 ≠ UINT16_MAX ∧
        s.files r.2 = none)
      (fun _ s' ↦ HsmFrame s s') s := by
  refine wp_bind (wp_then (confined_hsmKeyAllocatorClaim A s) fun _ s₁ hs₁ ↦ ?_)
  refine wp_mono (wp_hsmKeyRecordIdAttempts _ s₁) ?_ fun _ s₂ h fid hfid ↦
    (h fid hfid).trans (hs₁ fid hfid)
  rintro r s₂ ⟨hs₂, hr, hmax, hfree⟩
  have hframe : HsmFrame s s₂ := fun fid hfid ↦ (hs₂ fid hfid).trans (hs₁ fid hfid)
  refine wp_pure ⟨hframe, hr, rfl, hmax, ?_⟩
  rw [← hframe, hfree]
  intro hallocator
  have hrange := hsmAllocatorFid_range hallocator
  have hle : 0xe000 ≤ hsmKeyRecordFid r := Nat.le_add_right ..
  omega

/-- **HSM keys keep to the rules.** -/
theorem hsmKeyLayoutSpec :
    ContainerLayoutSpec (hsmKeyContainerLayout sha256) containerId fun _ ↦ True where
  valid := rfl
  manifest_ne slot := by
    show hsmKeyManifestFid _ _ ≠ hsmKeyManifestFid _ _
    rw [hsmKeyManifestFid, hsmKeyManifestFid, ne_eq, prefixedFid_inj, not_and_or]
    left
    revert slot
    decide
  record_ne_manifest object fid slot _ hfid := by
    obtain ⟨-, rfl⟩ := hsm_recordFid_eq_ok.mp hfid
    have hmanifest := (hsmKeyManifestFid_range containerId.toUInt8 slot).2
    have hle : 0xe000 ≤ hsmKeyRecordFid object.recordId := Nat.le_add_right ..
    show _ ≠ hsmKeyManifestFid containerId.toUInt8 slot
    omega
  allocate A slot write auth s _ _ := by
    refine wp_mono (wp_hsmKeyLayoutRecordAllocate A slot write auth s) ?_
      fun _ _ h ↦ hsmFrame_untouched h
    rintro ⟨recordId, fid⟩ s' ⟨hframe, hid, hfid, hmax, hfree⟩
    obtain rfl : fid = hsmKeyRecordFid recordId := hfid
    refine ⟨hsmFrame_untouched hframe, hid, fun _ ↦ rfl,
      fun generation ↦ hsm_recordFid_eq_ok.mpr ⟨hmax, rfl⟩, ?_, ?_⟩
    · rintro object f - - - hpresent - rfl
      exact hpresent hfree
    · rintro object - - hpresent
      exact absurd hfree hpresent
  activate A s := by
    have hconfined : Confined (· = hsmKeyMarkerFid containerId.toUInt8)
        (hsmKeyLayoutActivate containerId) :=
      .bind (.fileSearch _) fun _ ↦ .ite (.pure _)
        (.bind (.replaceFile (F := (· = _)) rfl _) fun _ ↦ .flashCommitSync)
    refine hconfined.untouched ?_ A s
    rintro fid rfl hfid
    have hrange := hsmKeyMarkerFid_range containerId.toUInt8
    rcases hsm_containerFid hfid with hfid | hfid <;> omega
  deactivate A s :=
    wp_mono (wp_fileDeletePresent_shrunk (fun _ ↦ .inl rfl)) (fun _ _ h fid _ ↦ h fid)
      fun _ _ _ ↦ trivial
  retire A candidates next currentSlot targetSlot s hcandidates := by
    have hretired {s' : FsState TxnRam} (hs' : Shrunk s s')
        (hframe : ∀ fid, fid ∉ (hsmKeyRetired candidates next currentSlot targetSlot).map
          hsmKeyRecordFid → s'.files fid = s.files fid) :
        Retired (hsmKeyContainerLayout sha256) containerId s s' next targetSlot := by
      refine ⟨hframe _ fun hmem ↦ ?_, fun object hobject fid hfid ↦ hframe fid fun hmem ↦ ?_, hs' _⟩
      · obtain ⟨recordId, -, heq⟩ := mem_map.mp hmem
        have hmanifest := (hsmKeyManifestFid_range containerId.toUInt8 targetSlot).2
        have hle : 0xe000 ≤ hsmKeyRecordFid recordId := Nat.le_add_right ..
        replace heq : hsmKeyRecordFid recordId = hsmKeyManifestFid containerId.toUInt8 targetSlot :=
          heq
        omega
      · -- a record that the next manifest names has an id that it names
        obtain ⟨recordId, hrecord, rfl⟩ := mem_map.mp hmem
        rw [hsmKeyRetired] at hrecord
        rcases hoverwritten : candidates targetSlot with - | overwritten
        · rw [hoverwritten] at hrecord
          cases hrecord
        · rw [hoverwritten, mem_filter, Bool.and_eq_true] at hrecord
          obtain ⟨hobject', hunreferenced, -⟩ := hrecord
          obtain ⟨object', hmem', rfl⟩ := mem_map.mp hobject'
          obtain ⟨-, fid', hfid'⟩ := hcandidates.placed targetSlot overwritten hoverwritten object'
            hmem'
          obtain ⟨-, heq⟩ := hsm_recordFid_eq_ok.mp hfid'
          have hid := hcandidates.recordId_eq targetSlot overwritten hoverwritten object' hmem'
            object hobject fid' hfid' (by rw [heq]; exact hfid)
          have hreferences : fileObjectContainerReferences next object'.recordId = true := by
            rw [fileObjectContainerReferences, any_eq_true]
            exact ⟨object, hobject, by simp [hid]⟩
          rw [hreferences] at hunreferenced
          cases hunreferenced
    exact wp_mono (wp_sweep A _ s) (fun _ _ h ↦ hretired h.shrunk h.frame)
      fun _ _ h ↦ hretired h.1 h.2.1

end Rules

end PicoAll
