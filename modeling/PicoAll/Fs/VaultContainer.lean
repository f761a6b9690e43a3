import PicoAll.Fs.SlotLayout

/-!
# The vault

`vault_container.c`: one container for each application, with the wrapped vault key under every
application id and a label. Its clean-up goes over the manifests that were there, not over all
numbers.
-/

namespace PicoAll

open FaultProgram BigEndian

/-- `PICOKEYS_VAULT_OBJECT_WRAP`. -/
abbrev vaultObjectWrap : UInt16 := 1

/-- `PICOKEYS_VAULT_OBJECT_LABEL`. -/
abbrev vaultObjectLabel : UInt16 := 2

/-- `PICOKEYS_VAULT_POLICY_ID`. -/
abbrev vaultPolicyId : UInt16 := 0x0300

/-- `PICOKEYS_VAULT_RECORD_SIZE`: a format byte, a nonce, the wrapped key and a tag. -/
abbrev vaultRecordSize : ℕ := 61

/-- `PICOKEYS_VAULT_LABEL_MAX`. -/
abbrev vaultLabelMax : ℕ := 64

def vaultManifestFid (slot : Fin 2) : ℕ :=
  prefixedFid (if slot = 0 then 0xc4 else 0xc5) 0

def vaultRecordFid (slot : Fin 2) (objectType : UInt16) (objectTag : UInt8) : ℕ :=
  prefixedFid
    (if objectType = vaultObjectWrap then (if slot = 0 then 0xc6 else 0xc7)
      else (if slot = 0 then 0xc8 else 0xc9)) objectTag

def vaultObjectTypeValid (objectType : UInt16) : Bool :=
  objectType == vaultObjectWrap || objectType == vaultObjectLabel

/-- The keys of the vault: types of its own, one-byte tags, and only one label. -/
def vaultKeyValid (objectType objectTag : UInt16) : Bool :=
  vaultObjectTypeValid objectType && decide (objectTag ≤ 0xff) &&
    !(objectType == vaultObjectLabel && objectTag != 0)

def vaultRecordIdValid (object : FileObjectDescriptor) : Bool :=
  vaultKeyValid object.objectType object.objectTag && decide (object.recordId.toNat ≤ UINT16_MAX) &&
    (object.recordId.toNat == vaultRecordFid 0 object.objectType object.objectTag.toUInt8 ||
      object.recordId.toNat == vaultRecordFid 1 object.objectType object.objectTag.toUInt8)

variable (containerId : UInt32)

def vaultLayoutRecordFid (object : FileObjectDescriptor) :
    Except Status ℕ :=
  if containerId ≠ 0 ∨ !vaultRecordIdValid object then
    .error .wrongData
  else
    .ok object.recordId.toNat

def vaultLayoutRecordAllocate (targetSlot : Fin 2) (write : FileObjectContainerWrite)
    (_auth : FileObjectAuthenticator) :
    FsProg TxnRam (UInt64 × ℕ) :=
  if containerId ≠ 0 ∨ !vaultKeyValid write.objectType write.objectTag then
    FaultProgram.fail .nullParam
  else
    let fid := vaultRecordFid targetSlot write.objectType write.objectTag.toUInt8
    pure (.ofNat fid, fid)

def vaultPolicyHash (sha256 : Bytes → Bytes) (policyId : UInt16) : Except Status Bytes :=
  if policyId ≠ vaultPolicyId then .error .wrongData
  else fileObjectPolicyHash sha256 internalPolicy

/-- What may be written to the vault: a wrapped key, or the label. -/
def vaultWriteValid (write : FileObjectContainerWrite) : Bool :=
  if write.policyId ≠ vaultPolicyId ∨ write.keyDomain ≠ 0 ∨ write.objectTag > 0xff then
    false
  else if write.objectType = vaultObjectWrap then
    write.data.length == vaultRecordSize && write.protection == protectionAeadSecret &&
      write.flags == flagMutable ||| flagNonExportable
  else
    write.objectType == vaultObjectLabel && write.objectTag == 0 &&
      decide (write.data.length ≤ vaultLabelMax) &&
      write.protection == protectionAuthenticatedPublic && write.flags == flagMutable

def vaultDescriptorValid (object : FileObjectDescriptor) : Bool :=
  containerId == 0 && vaultObjectTypeValid object.objectType && decide (object.objectTag ≤ 0xff) &&
    (object.objectType == vaultObjectWrap || object.objectTag == 0) &&
    object.policyId == vaultPolicyId && object.keyDomain == 0

/-- `vault_layout_activate`: the legacy file, if the application has one, becomes a marker. -/
def vaultLayoutActivate (legacyFile : Option ℕ) (containerId : UInt32) : FsProg TxnRam Unit :=
  if containerId ≠ 0 then
    FaultProgram.fail .wrongData
  else
    match legacyFile with
    | none => pure ()
    | some fid => do
      flashClearFile fid
      filePutData fid [0x50, 0x4b, 0x56, 0x4f, 1]

/-- The loop of `vault_layout_retire` over the objects of a candidate. -/
def vaultRetireRecords (next : FileObjectManifest) :
    List FileObjectDescriptor → FsProg TxnRam Unit :=
  forEach fun object ↦
    if fileObjectContainerReferences next object.recordId then
      pure ()
    else do
      let fid ← liftExcept (vaultLayoutRecordFid containerId object)
      fileDeleteQuietly fid

/-- The turn of `vault_layout_retire` for a slot. -/
def vaultRetireSlot (candidates : Fin 2 → Option FileObjectManifest) (next : FileObjectManifest)
    (targetSlot slot : Fin 2) : FsProg TxnRam Unit :=
  match candidates slot with
  | none => pure ()
  | some manifest => do
    vaultRetireRecords containerId next manifest.objects
    if slot ≠ targetSlot then
      fileDeleteQuietly (vaultManifestFid slot)

def vaultLayoutRetire (candidates : Fin 2 → Option FileObjectManifest) (next : FileObjectManifest)
    (_currentSlot : Option (Fin 2)) (targetSlot : Fin 2) :
    FsProg TxnRam Unit :=
  if containerId ≠ 0 then
    FaultProgram.fail .wrongData
  else do
    vaultRetireSlot containerId candidates next targetSlot 0
    vaultRetireSlot containerId candidates next targetSlot 1

def vaultLayoutDeactivate (legacyFile : Option ℕ) (containerId : UInt32) : FsProg TxnRam Unit :=
  match legacyFile with
  | none => pure ()
  | some fid => if containerId ≠ 0 then pure () else flashClearFile fid

/-- The container of the vault. -/
def vaultLayout (sha256 : Bytes → Bytes) (legacyFile : Option ℕ) : FileObjectContainerLayout where
  namespaceId := 2
  containerKind := 2
  manifestFid containerId slot := if containerId = 0 then vaultManifestFid slot else 0
  recordFid := vaultLayoutRecordFid
  recordAllocate := vaultLayoutRecordAllocate
  policyHash := vaultPolicyHash sha256
  writeValid := vaultWriteValid
  descriptorValid := vaultDescriptorValid
  activate := vaultLayoutActivate legacyFile
  deactivate := vaultLayoutDeactivate legacyFile
  retire := vaultLayoutRetire
  rollbackNewRecords := true

/-! ### The rules -/

section Rules

variable {sha256 : Bytes → Bytes} {legacyFile : Option ℕ} (slot : Fin 2)

/-- The vault's file of a key. -/
def vaultNumber (key : UInt16 × UInt16) : ℕ :=
  vaultRecordFid slot key.1 key.2.toUInt8

variable {object : FileObjectDescriptor} {fid : ℕ}

theorem vault_recordFid_eq_ok :
    (vaultLayout sha256 legacyFile).recordFid 0 object = .ok fid ↔
      vaultRecordIdValid object = true ∧ fid = object.recordId.toNat := by
  show vaultLayoutRecordFid 0 object = .ok fid ↔ _
  rw [vaultLayoutRecordFid]
  split_ifs with h
  · simp only [ne_eq, not_true_eq_false, Bool.not_eq_true', false_or] at h
    simp [h]
  · simp only [ne_eq, not_true_eq_false, Bool.not_eq_true', false_or, Bool.not_eq_false] at h
    simp [h, eq_comm]

theorem vaultNumber_range (key : UInt16 × UInt16) :
    0xc600 ≤ vaultNumber slot key ∧ vaultNumber slot key < 0xca00 := by
  have hlt := key.2.toUInt8.toNat_lt
  rw [vaultNumber, vaultRecordFid, prefixedFid]
  split_ifs <;> omega

theorem vaultRecordIdValid_range (h : vaultRecordIdValid object = true) :
    0xc600 ≤ object.recordId.toNat ∧ object.recordId.toNat < 0xca00 := by
  rw [vaultRecordIdValid, Bool.and_eq_true, Bool.or_eq_true, beq_iff_eq, beq_iff_eq] at h
  rcases h.2 with h | h
  · exact h ▸ vaultNumber_range 0 object.key
  · exact h ▸ vaultNumber_range 1 object.key

theorem vaultManifestFid_range :
    0xc400 ≤ vaultManifestFid slot ∧ vaultManifestFid slot < 0xc600 := by
  rw [vaultManifestFid, prefixedFid]
  split_ifs <;> decide

theorem vaultWriteValid_fields {write : FileObjectContainerWrite}
    (h : vaultWriteValid write = true) :
    vaultKeyValid write.objectType write.objectTag = true ∧ write.policyId = vaultPolicyId ∧
      write.keyDomain = 0 := by
  rw [vaultWriteValid] at h
  split_ifs at h with hrefused hwrap <;>
    simp only [not_or, not_not, gt_iff_lt, UInt16.not_lt] at hrefused
  · refine ⟨?_, hrefused.1, hrefused.2.1⟩
    have hne : vaultObjectWrap ≠ vaultObjectLabel := by decide
    simp [vaultKeyValid, vaultObjectTypeValid, hwrap, hne, hrefused.2.2]
  · simp only [Bool.and_eq_true, beq_iff_eq] at h
    refine ⟨?_, hrefused.1, hrefused.2.1⟩
    simp [vaultKeyValid, vaultObjectTypeValid, h.1.1.1.1, h.1.1.1.2]

theorem toUInt8_inj {a b : UInt16} (ha : a ≤ 0xff) (hb : b ≤ 0xff)
    (h : a.toUInt8 = b.toUInt8) : a = b := by
  rw [UInt16.le_iff_toNat_le] at ha hb
  rw [← UInt8.toNat_inj, UInt16.toNat_toUInt8, UInt16.toNat_toUInt8] at h
  rw [← UInt16.toNat_inj]
  have h255 : (0xff : UInt16).toNat = 255 := rfl
  omega

/-- The prefix of a record file gives the type away. -/
theorem vaultPrefix_inj : ∀ slot slot' : Fin 2, ∀ objectType ∈ [vaultObjectWrap, vaultObjectLabel],
    ∀ objectType' ∈ [vaultObjectWrap, vaultObjectLabel],
      vaultRecordFid slot objectType 0 = vaultRecordFid slot' objectType' 0 →
        objectType = objectType' := by
  decide

theorem vaultNumber_inj {slot slot' : Fin 2} {key key' : UInt16 × UInt16}
    (hkey : vaultKeyValid key.1 key.2 = true) (hkey' : vaultKeyValid key'.1 key'.2 = true)
    (h : vaultNumber slot key = vaultNumber slot' key') : key = key' := by
  simp only [vaultKeyValid, vaultObjectTypeValid, Bool.and_eq_true, Bool.or_eq_true, beq_iff_eq,
    decide_eq_true_eq] at hkey hkey'
  rw [vaultNumber, vaultNumber, vaultRecordFid, vaultRecordFid, prefixedFid_inj] at h
  refine Prod.ext ?_ (toUInt8_inj hkey.1.2 hkey'.1.2 h.2)
  exact vaultPrefix_inj slot slot' key.1 (by simpa using hkey.1.1) key'.1 (by simpa using hkey'.1.1)
    (by rw [vaultRecordFid, vaultRecordFid, prefixedFid_inj]; exact ⟨h.1, rfl⟩)

/-- The numbering of the vault. -/
theorem vaultNumbering : SlotNumbering (vaultLayout sha256 legacyFile) 0 (fun _ ↦ True) vaultNumber
    (fun key ↦ vaultKeyValid key.1 key.2 = true) where
  allocate slot write auth hkey := by
    replace hkey : vaultKeyValid write.objectType write.objectTag = true := hkey
    show vaultLayoutRecordAllocate 0 slot write auth = _
    simp only [vaultLayoutRecordAllocate, hkey]
    rfl
  key_of_writeValid write h := (vaultWriteValid_fields h).1
  recordFid object fid _ hfid := (vault_recordFid_eq_ok.mp hfid).2
  accepts slot write generation _ h := by
    obtain ⟨hkey, hpolicy, hdomain⟩ := vaultWriteValid_fields h
    have hrange := vaultNumber_range slot write.key
    have hid := toNat_recordId (hrange.2.trans (by decide))
    have hnumber := slot_cases (fun slot ↦ vaultNumber slot write.key) slot
    constructor
    · show vaultDescriptorValid 0 _ = true
      simp only [vaultKeyValid, vaultObjectTypeValid, Bool.and_eq_true, Bool.or_eq_true, beq_iff_eq,
        decide_eq_true_eq, Bool.not_eq_true', Bool.and_eq_false_iff, bne_eq_false_iff_eq] at hkey
      simp only [vaultDescriptorValid, vaultObjectTypeValid, FileObjectContainerWrite.descriptor,
        hpolicy, hdomain, Bool.and_eq_true, Bool.or_eq_true, beq_iff_eq, decide_eq_true_eq]
      have htag : write.objectType = vaultObjectWrap ∨ write.objectTag = 0 := by
        rcases hkey.1.1 with h | h
        · exact .inl h
        · exact .inr (hkey.2.resolve_left (by simp [h]))
      simp [hkey.1.1, hkey.1.2, htag]
    · rw [vault_recordFid_eq_ok]
      have hle : vaultNumber slot write.key ≤ UINT16_MAX := Nat.le_of_lt_succ (by
        exact hrange.2.trans (by decide))
      refine ⟨?_, hid.symm⟩
      simp only [vaultRecordIdValid, FileObjectContainerWrite.descriptor, hkey, hid, hle,
        Bool.and_eq_true, Bool.or_eq_true, beq_iff_eq, decide_eq_true_eq]
      exact ⟨⟨trivial, trivial⟩, hnumber⟩
  number_inj slot slot' key key' hkey hkey' h := vaultNumber_inj hkey hkey' h
  number_pos slot key _ := by
    have h := vaultNumber_range slot key
    omega
  number_lt slot key _ := by
    have h := vaultNumber_range slot key
    omega

theorem vaultManifestFid_ne : ∀ slot slot' : Fin 2, slot ≠ slot' →
    vaultManifestFid slot ≠ vaultManifestFid slot' := by
  decide

theorem vault_ne_manifest (hfid : (vaultLayout sha256 legacyFile).recordFid 0 object = .ok fid)
    (slot : Fin 2) : fid ≠ vaultManifestFid slot := by
  obtain ⟨hvalid, rfl⟩ := vault_recordFid_eq_ok.mp hfid
  have h := vaultRecordIdValid_range hvalid
  have h' := vaultManifestFid_range slot
  omega

/-- What a turn of the clean-up does for an object: its record is gone, or the next manifest has
it. -/
def VaultRetired (next : FileObjectManifest) (object : FileObjectDescriptor)
    (s : FsState TxnRam) : Prop :=
  ∀ fid, vaultLayoutRecordFid 0 object = .ok fid →
    s.files fid = none ∨ ∃ o ∈ next.objects, vaultLayoutRecordFid 0 o = .ok fid

theorem VaultRetired.shrunk {next : FileObjectManifest} {s s' : FsState TxnRam}
    (h : VaultRetired next object s) (hs : Shrunk s s') : VaultRetired next object s' :=
  fun fid hfid ↦ (h fid hfid).imp_left hs.none

section Retire

variable {A : Outcome → Prop} {candidates : Fin 2 → Option FileObjectManifest}
  {next : FileObjectManifest} {s : FsState TxnRam} {targetSlot : Fin 2} {s₀ : FsState TxnRam}

/-- The loop over the objects of a candidate. -/
theorem wp_vaultRetireRecords {objects : List FileObjectDescriptor}
    (hnext : ∀ object ∈ next.objects, ∃ fid, (vaultLayout sha256 legacyFile).recordFid 0 object = .ok fid)
    (hplaced : ∀ object ∈ objects, ∃ fid, (vaultLayout sha256 legacyFile).recordFid 0 object = .ok fid)
    (hs : Retiring (vaultLayout sha256 legacyFile) 0 next targetSlot s₀ s) :
    wp A (vaultRetireRecords 0 next objects)
      (fun _ s' ↦ Retiring (vaultLayout sha256 legacyFile) 0 next targetSlot s₀ s' ∧ Shrunk s s' ∧
        (¬A .fail → ∀ object ∈ objects, VaultRetired next object s'))
      (fun _ s' ↦ Retiring (vaultLayout sha256 legacyFile) 0 next targetSlot s₀ s') s := by
  refine wp_mono (wp_forEach_all
    (I := fun s' ↦ Retiring (vaultLayout sha256 legacyFile) 0 next targetSlot s₀ s' ∧ Shrunk s s')
    (R := fun object s' ↦ ¬A .fail → VaultRetired next object s') ⟨hs, fun _ ↦ .inl rfl⟩
    fun object hobject s' ⟨hs', hshrunk⟩ ↦ ?_) ?_ fun _ _ h ↦ h
  · obtain ⟨fid, hfid⟩ := hplaced object hobject
    obtain ⟨hvalid, hid⟩ := vault_recordFid_eq_ok.mp hfid
    refine wp_ite (fun hreferenced ↦ wp_pure ⟨⟨hs', hshrunk⟩, fun _ f hf ↦ .inr ?_, fun _ h ↦ h⟩)
      fun hunreferenced ↦ ?_
    · -- the next manifest has the record
      obtain ⟨o, ho, hrecord⟩ := List.any_eq_true.mp hreferenced
      obtain ⟨fid', hfid'⟩ := hnext o ho
      refine ⟨o, ho, ?_⟩
      obtain ⟨-, hid'⟩ := vault_recordFid_eq_ok.mp hfid'
      rw [beq_iff_eq] at hrecord
      have heq : fid' = f := by
        rw [hid', hrecord]
        exact ((@vault_recordFid_eq_ok sha256 legacyFile object f).mp hf).2.symm
      exact heq ▸ hfid'
    · have hspared : ∀ o ∈ next.objects,
          (vaultLayout sha256 legacyFile).recordFid 0 o ≠ .ok fid := by
        intro o ho hfid'
        obtain ⟨-, hid'⟩ := vault_recordFid_eq_ok.mp hfid'
        refine hunreferenced (List.any_eq_true.mpr ⟨o, ho, ?_⟩)
        rw [beq_iff_eq, ← UInt64.toNat_inj, ← hid, ← hid']
      have hdeleted := hs'.delete (vault_ne_manifest hfid targetSlot).symm hspared
      rw [show vaultLayoutRecordFid 0 object = .ok fid from hfid]
      refine wp_bind (wp_pure (wp_fileDeleteQuietly ?_ (fun hA ↦ ?_) fun _ ↦ hs'))
      · refine ⟨⟨hdeleted, hshrunk.trans (.setFile s' fid)⟩, fun _ f hf ↦ .inl ?_, fun _ h hA ↦
          (h hA).shrunk (.setFile s' fid)⟩
        rw [show vaultLayoutRecordFid 0 object = .ok fid from hfid] at hf
        cases hf
        exact Files.set_self ..
      · exact ⟨⟨hs', hshrunk⟩, fun hA' ↦ absurd hA hA', fun _ h ↦ h⟩
  · rintro - s' ⟨⟨hs', hshrunk⟩, -, hall⟩
    exact ⟨hs', hshrunk, fun hA object hobject ↦ hall object hobject hA⟩

/-- The turn for one slot. -/
theorem wp_vaultRetireSlot {slot : Fin 2}
    (hcandidates : CandidatesOk (vaultLayout sha256 legacyFile) 0 candidates next)
    (hs : Retiring (vaultLayout sha256 legacyFile) 0 next targetSlot s₀ s) :
    wp A (vaultRetireSlot 0 candidates next targetSlot slot)
      (fun _ s' ↦ Retiring (vaultLayout sha256 legacyFile) 0 next targetSlot s₀ s' ∧ Shrunk s s' ∧
        (¬A .fail → ∀ manifest, candidates slot = some manifest →
          ∀ object ∈ manifest.objects, VaultRetired next object s'))
      (fun _ s' ↦ Retiring (vaultLayout sha256 legacyFile) 0 next targetSlot s₀ s') s := by
  rw [vaultRetireSlot]
  rcases hcandidate : candidates slot with - | manifest
  · exact wp_pure ⟨hs, fun _ ↦ .inl rfl, fun _ _ h ↦ nomatch h⟩
  refine wp_then (wp_vaultRetireRecords
    (fun object hobject ↦ (hcandidates.next_valid object hobject).2)
    (fun object hobject ↦ (hcandidates.placed slot manifest hcandidate object hobject).2) hs) ?_
  rintro - s₁ ⟨hs₁, hshrunk, hall⟩
  have hall' : ¬A .fail → ∀ m, some manifest = some m → ∀ object ∈ m.objects,
      VaultRetired next object s₁ := by
    rintro hA m ⟨⟩
    exact hall hA
  refine wp_ite (fun hslot ↦ ?_) fun _ ↦ wp_pure ⟨hs₁, hshrunk, hall'⟩
  have hdeleted := hs₁.delete (vaultManifestFid_ne slot targetSlot hslot).symm
    fun object hobject hfid ↦ vault_ne_manifest hfid slot rfl
  refine wp_fileDeleteQuietly ⟨hdeleted, hshrunk.trans (.setFile s₁ _), fun hA m hm object hobject ↦
    (hall' hA m hm object hobject).shrunk (.setFile s₁ _)⟩ (fun _ ↦ ⟨hs₁, hshrunk, hall'⟩)
    fun _ ↦ hs₁

/-- **The clean-up of the vault.** -/
theorem wp_vaultLayoutRetire (currentSlot : Option (Fin 2))
    (hcandidates : CandidatesOk (vaultLayout sha256 legacyFile) 0 candidates next) :
    wp A (vaultLayoutRetire 0 candidates next currentSlot targetSlot)
      (fun _ s' ↦ Retiring (vaultLayout sha256 legacyFile) 0 next targetSlot s s' ∧
        (¬A .fail → ∀ slot manifest, candidates slot = some manifest →
          ∀ object ∈ manifest.objects, VaultRetired next object s'))
      (fun _ s' ↦ Retiring (vaultLayout sha256 legacyFile) 0 next targetSlot s s') s := by
  refine wp_then (wp_vaultRetireSlot hcandidates (.refl _ _ _ _ _)) ?_
  rintro - s₁ ⟨hs₁, -, hfirst⟩
  refine wp_mono (wp_vaultRetireSlot hcandidates hs₁) ?_ fun _ _ h ↦ h
  rintro - s₂ ⟨hs₂, hshrunk, hsecond⟩
  refine ⟨hs₂, fun hA slot manifest hslot object hobject ↦ ?_⟩
  match slot, hslot with
  | 0, hslot => exact (hfirst hA manifest hslot object hobject).shrunk hshrunk
  | 1, hslot => exact hsecond hA manifest hslot object hobject

end Retire

/-- The vault's own files are no others'. -/
theorem vault_containerFid (h : ContainerFid (vaultLayout sha256 legacyFile) 0 fid) :
    0xc400 ≤ fid ∧ fid < 0xca00 := by
  rcases h with ⟨slot, rfl⟩ | ⟨object, -, hfid⟩
  · have h := vaultManifestFid_range slot
    exact ⟨h.1, h.2.trans (by decide)⟩
  · obtain ⟨hvalid, rfl⟩ := vault_recordFid_eq_ok.mp hfid
    have h := vaultRecordIdValid_range hvalid
    exact ⟨Nat.le_trans (by decide) h.1, h.2⟩

/-- **The vault keeps to the rules**, if its legacy file is not in its range. -/
theorem vaultLayoutSpec (hlegacy : ∀ fid ∈ legacyFile, fid < 0xc400 ∨ 0xca00 ≤ fid) :
    ContainerLayoutSpec (vaultLayout sha256 legacyFile) 0 fun _ ↦ True where
  valid := rfl
  manifest_ne := by
    show ∀ slot : Fin 2, vaultManifestFid slot.rev ≠ vaultManifestFid slot
    decide
  record_ne_manifest object fid slot _ hfid := vault_ne_manifest hfid slot
  allocate A slot write auth s hallowed hvalid :=
    vaultNumbering.wp_recordAllocate A slot write auth s hallowed hvalid
  activate A s := by
    have hconfined : Confined (· ∈ legacyFile) (vaultLayoutActivate legacyFile 0) := by
      rcases legacyFile with - | fid
      · exact .pure _
      · have hfid : fid ∈ some fid := rfl
        exact .bind (.perform hfid _) fun _ ↦ .perform hfid _
    refine hconfined.untouched (fun fid hfid hcontainer ↦ ?_) A s
    have h := vault_containerFid hcontainer
    rcases hlegacy fid hfid with h' | h' <;> omega
  deactivate A s := by
    have hconfined : Confined (· ∈ legacyFile) (vaultLayoutDeactivate legacyFile 0) := by
      rcases legacyFile with - | fid
      · exact .pure _
      · have hfid : fid ∈ some fid := rfl
        exact .perform hfid _
    refine wp_mono (hconfined.untouched (fun fid hfid hcontainer ↦ ?_) A s)
      (fun _ _ h fid hfid ↦ .inl (h fid hfid)) fun _ _ _ ↦ trivial
    have h := vault_containerFid hcontainer
    rcases hlegacy fid hfid with h' | h' <;> omega
  retire A candidates next currentSlot targetSlot s hcandidates :=
    wp_mono (wp_vaultLayoutRetire currentSlot hcandidates) (fun _ _ h ↦ h.1.retired) fun _ _ h ↦ h.retired

theorem vaultLayoutSweeps : LayoutSweeps (vaultLayout sha256 legacyFile) 0 :=
  fun candidates next currentSlot _ _ hcandidates ↦
    wp_mono (wp_vaultLayoutRetire currentSlot hcandidates) (fun _ _ h ↦
      ⟨h.1.shrunk, fun slot manifest hslot object hobject _ fid hfid ↦
        h.2 (by simp) slot manifest hslot object hobject fid hfid⟩) fun _ _ _ ↦ trivial

end Rules

end PicoAll
