import PicoAll.Vault.Kvault

/-!
# The container of the vault

What an update of the vault's container does to its files and to those of the earlier firmware. The
container has a range of files to itself. Activating it puts a marker in the place of the earlier
vault, and nothing brings that one back (`vaultLegacyVault`).

An update that succeeds has written what it was given. One that is refused, though nothing goes wrong
with the flash, was refused for a reason: a generation is used up, or there is no room.
-/

namespace PicoAll

open FaultProgram List

/-- What the files of the earlier firmware hold. -/
def vaultLegacyVault (V : VaultState) (files : Files) : Option (Bytes × Bytes) :=
  V.legacyFile.bind fun file ↦
    (vaultLegacyRecord (files file)).map fun record ↦ (record, vaultLegacyLabel V files)

/-! ### The container's layout -/

section Layout

variable {V : VaultState}

/-- The files of the container. -/
def VaultRange (fid : ℕ) : Prop :=
  0xc400 ≤ fid ∧ fid < 0xca00

theorem vaultRange_manifest (slot : Fin 2) : VaultRange (vaultManifestFid slot) := by
  have h := vaultManifestFid_range slot
  exact ⟨h.1, h.2.trans (by decide)⟩

theorem OutsideVault.not_range (file : OutsideVault) : ¬VaultRange file := by
  rw [VaultRange]
  omega

theorem vaultRetire_confined (candidates : Fin 2 → Option FileObjectManifest)
    (next : FileObjectManifest) (currentSlot : Option (Fin 2)) (targetSlot : Fin 2) :
    Confined VaultRange (V.layout.retire 0 candidates next currentSlot targetSlot) := by
  have hslot (slot : Fin 2) :
      Confined VaultRange (vaultRetireSlot 0 candidates next targetSlot slot) := by
    rw [vaultRetireSlot]
    rcases candidates slot with - | manifest
    · exact .pure ()
    refine .bind (confined_forEach fun object _ ↦ .ite (.pure ()) ?_) fun _ ↦
      .ite (.fileDeleteQuietly (vaultRange_manifest slot)) (.pure ())
    intro A s
    rcases hfid : vaultLayoutRecordFid 0 object with r | fid
    · exact wp_bind (wp_fail fun _ _ ↦ rfl)
    · obtain ⟨hvalid, rfl⟩ := (@vault_recordFid_eq_ok V.sha256 none object fid).mp hfid
      have hrange := vaultRecordIdValid_range hvalid
      exact wp_bind (wp_pure (Confined.fileDeleteQuietly
        ⟨Nat.le_trans (by decide) hrange.1, hrange.2⟩ A s))
  exact .bind (hslot 0) fun _ ↦ hslot 1

/-- An update changes the container's files and the legacy file. -/
theorem vaultLayoutConfined :
    LayoutConfined V.layout 0 fun fid ↦ VaultRange fid ∨ ∃ file ∈ V.legacyFile, fid = file where
  manifest slot := .inl (vaultRange_manifest slot)
  allocate slot write auth := by
    have hrange := vaultNumber_range slot write.key
    exact .ite (.fail _) (.pure (.inl ⟨Nat.le_trans (by decide) hrange.1, hrange.2⟩))
  activate := by
    show Confined _ (vaultLayoutActivate (V.legacyFile.map (·.1)) 0)
    rcases V.legacyFile with - | file
    · exact .pure ()
    · exact .bind (.perform (.inr ⟨file, rfl, rfl⟩) _) fun _ ↦ .perform (.inr ⟨file, rfl, rfl⟩) _
  retire candidates next currentSlot targetSlot A s :=
    wp_mono (vaultRetire_confined candidates next currentSlot targetSlot A s)
      (fun _ _ h fid hfid ↦ h fid fun hrange ↦ hfid (.inl hrange))
      fun _ _ h fid hfid ↦ h fid fun hrange ↦ hfid (.inl hrange)

theorem vaultRemove_confined (objectType objectTag : UInt16) :
    Confined VaultRange (fileObjectContainerRemove V.layout 0 objectType objectTag V.primary
      V.legacy) := by
  refine .ite (.bind (.fail _) fun _ ↦ ?_) ?_ <;>
    exact .bind .getState fun _ ↦ .bind (.liftExcept _) fun _ ↦ .bind (.liftExcept _) fun _ ↦
      .bind (.liftExcept _) fun _ ↦ .bind (.liftExcept _) fun _ ↦
        .bind (.replaceFile (vaultRange_manifest _) _) fun _ ↦ vaultRetire_confined _ _ _ _

/-- The clean-up of an undisturbed update finishes. -/
theorem wp_vaultRetire_undisturbed {candidates : Fin 2 → Option FileObjectManifest}
    {next : FileObjectManifest} {currentSlot : Option (Fin 2)} {targetSlot : Fin 2}
    {s : FsState TxnRam} (hcandidates : CandidatesOk V.layout 0 candidates next) :
    wp (· = .ok) (V.layout.retire 0 candidates next currentSlot targetSlot) (fun _ _ ↦ True)
      (fun _ _ ↦ False) s := by
  have hslot (slot : Fin 2) (s : FsState TxnRam) :
      wp (· = .ok) (vaultRetireSlot 0 candidates next targetSlot slot) (fun _ _ ↦ True)
        (fun _ _ ↦ False) s := by
    rw [vaultRetireSlot]
    rcases hcandidate : candidates slot with - | manifest
    · exact wp_pure trivial
    refine wp_then (wp_forEach (I := fun _ ↦ True) trivial fun object hobject s' _ ↦ ?_)
      fun _ s₁ _ ↦ ?_
    · refine wp_return trivial fun _ ↦ ?_
      obtain ⟨-, fid, hfid⟩ := hcandidates.placed slot manifest hcandidate object hobject
      rw [show vaultLayoutRecordFid 0 object = .ok fid from hfid]
      exact wp_bind (wp_pure (wp_fileDeleteQuietly trivial (by simp) (by simp)))
    · exact wp_ite (fun _ ↦ wp_fileDeleteQuietly trivial (by simp) (by simp)) fun _ ↦ wp_pure trivial
  exact wp_then (hslot 0 s) fun _ s₁ _ ↦ hslot 1 s₁

theorem vault_cleanupOk {P : Prop} : CleanupOk V.layout 0 (· = .ok) P fun _ _ _ _ _ ↦ True where
  activate s := by
    show wp (· = .ok) (vaultLayoutActivate (V.legacyFile.map (·.1)) 0) _ _ s
    rcases V.legacyFile with - | file
    · exact wp_pure trivial
    · exact wp_bind (wp_perform (wp_perform trivial (by simp) (by simp) (by simp)) (by simp) (by simp)
        (by simp))
  retire _ _ _ _ _ hcandidates :=
    wp_mono (wp_vaultRetire_undisturbed hcandidates) (fun _ _ _ ↦ trivial) fun _ _ h ↦ h.elim

theorem vaultSpec : ContainerLayoutSpec V.layout 0 fun _ ↦ True :=
  (ContainerApplication.vault V.legacyFile).spec V.sha256

/-! ### The earlier firmware's files -/

variable {files : Files}

theorem vaultLegacyVault_congr {files' : Files}
    (hfile : ∀ file ∈ V.legacyFile, files' file = files file)
    (hlabel : ∀ file ∈ V.legacyLabelFile, files' file = files file) :
    vaultLegacyVault V files' = vaultLegacyVault V files := by
  have hsame : vaultLegacyLabel V files' = vaultLegacyLabel V files := by
    rw [vaultLegacyLabel, vaultLegacyLabel]
    rcases hlabelFile : V.legacyLabelFile with - | file
    · rfl
    · simp only [hlabel file hlabelFile]
  rw [vaultLegacyVault, vaultLegacyVault, hsame]
  rcases hlegacyFile : V.legacyFile with - | file
  · rfl
  · simp only [Option.bind_some, hfile file hlegacyFile]

theorem vaultLegacyVault_eq_none : vaultLegacyVault V files = none ↔
    ∀ file ∈ V.legacyFile, vaultLegacyRecord (files file) = none := by
  rw [vaultLegacyVault]
  rcases V.legacyFile with - | file <;> simp

theorem vaultLegacyVault_clear {s : FsState TxnRam} {file : OutsideVault}
    (hfile : V.legacyFile = some file) {content : Bytes} (hcontent : vaultRecordValid content = false) :
    vaultLegacyVault V (s.setFile file (some content)).files = none := by
  rw [vaultLegacyVault_eq_none, hfile]
  rintro - ⟨⟩
  simp [vaultLegacyRecord, hcontent]

/-- Confined programs do not bring the earlier vault back. -/
theorem Confined.keepsSettled {α : Type} {m : FsProg TxnRam α} (hm : Confined VaultRange m) :
    Preserves (fun s ↦ vaultLegacyVault V s.files = none) m := by
  intro A s hs
  have hkept {s' : FsState TxnRam} (h : ∀ fid, ¬VaultRange fid → s'.files fid = s.files fid) :
      vaultLegacyVault V s'.files = none := by
    rw [vaultLegacyVault_congr (fun file _ ↦ h file file.not_range)
      fun file _ ↦ h file file.not_range, hs]
  exact wp_mono (hm A s) (fun _ _ h ↦ ⟨hkept h, trivial⟩) fun _ _ h ↦ hkept h

/-- Activating the container leaves nothing of the earlier vault. -/
theorem wp_vaultActivate (A : Outcome → Prop) (s : FsState TxnRam) :
    wp A (V.layout.activate 0) (fun _ s' ↦ vaultLegacyVault V s'.files = none)
      (fun _ s' ↦ vaultLegacyVault V s.files = none → vaultLegacyVault V s'.files = none) s := by
  show wp A (vaultLayoutActivate (V.legacyFile.map (·.1)) 0) _ _ s
  rcases hfile : V.legacyFile with - | file
  · exact wp_pure (vaultLegacyVault_eq_none.mpr (by simp [hfile]))
  have hclear (s' : FsState TxnRam) : vaultLegacyVault V (s'.setFile file (some [])).files = none :=
    vaultLegacyVault_clear hfile rfl
  have hmarker (s' : FsState TxnRam) : vaultLegacyVault V
      (s'.setFile file (some [0x50, 0x4b, 0x56, 0x4f, 1])).files = none :=
    vaultLegacyVault_clear hfile rfl
  refine wp_bind (wp_perform (wp_perform ?_ ?_ ?_ ?_) (fun _ h ↦ h) (fun _ _ ↦ hclear s) fun _ h ↦ h)
  · exact hmarker _
  · exact fun _ _ ↦ hclear s
  · exact fun _ _ ↦ hmarker _
  · exact fun _ _ ↦ hclear s

theorem vaultUpdateKeeps (writes : List FileObjectContainerWrite) :
    UpdateKeeps V.layout 0 (fun s ↦ vaultLegacyVault V s.files = none) VaultRange (fun _ ↦ True)
      writes where
  delete fid hfid := Confined.keepsSettled (.perform hfid _)
  set fid hfid s content hs := by
    rw [vaultLegacyVault_eq_none] at hs ⊢
    intro file hfile
    have hne : (file : ℕ) ≠ fid := fun heq ↦ file.not_range (by rwa [heq])
    rw [FsState.files_setFile, Files.set_of_ne _ _ hne]
    exact hs file hfile
  manifest := vaultRange_manifest
  allocate slot _ write _ auth := by
    have hrange := vaultNumber_range slot write.key
    exact .ite (fun _ ↦ .fail _) fun _ ↦ .pure ⟨Nat.le_trans (by decide) hrange.1, hrange.2⟩
  activate A s hs := wp_mono (wp_vaultActivate A s) (fun _ _ h ↦ ⟨h, trivial⟩) fun _ _ h ↦ h hs
  retire c n cs t := (vaultRetire_confined c n cs t).keepsSettled

/-! ### Updates -/

/-- What the vault writes: a wrapped key, or a label. -/
inductive VaultWrite : FileObjectContainerWrite → Prop
  | wrap (appId : UInt8) (record : Bytes) (hlength : record.length = vaultRecordSize) :
      VaultWrite (vaultWrapWrite appId.toUInt16 record)
  | label (label : Bytes) (hlength : label.length ≤ vaultLabelMax) :
      VaultWrite (vaultLabelWrite label)

theorem appId_le (appId : UInt8) : appId.toUInt16 ≤ 0xff := by
  exact Nat.le_of_lt_succ appId.toNat_lt

variable {write : FileObjectContainerWrite}

section

variable (h : VaultWrite write)
include h

theorem VaultWrite.valid :
    vaultWriteValid write = true := by
  cases h with
  | wrap appId record hlength =>
    have hle := UInt16.not_lt.mpr (appId_le appId)
    simp [vaultWriteValid, vaultWrapWrite, hlength, hle]
  | label label hlength =>
    have hne : vaultObjectLabel ≠ vaultObjectWrap := by decide
    simp [vaultWriteValid, vaultLabelWrite, hlength, hne]

theorem VaultWrite.length_le :
    write.data.length ≤ vaultLabelMax := by
  cases h with
  | wrap appId record hlength =>
    show record.length ≤ _
    rw [hlength]
    decide
  | label label hlength => exact hlength

theorem VaultWrite.policyId_eq :
    write.policyId = vaultPolicyId := by
  cases h <;> rfl

theorem VaultWrite.fields :
    (write.objectType == 0 || write.objectType == 0xffff ||
      (write.flags &&& flagInline) != 0) = false := by
  have hwrap : (vaultObjectWrap == 0 || vaultObjectWrap == 0xffff ||
      ((flagMutable ||| flagNonExportable) &&& flagInline) != 0) = false := by decide
  have hlabel : (vaultObjectLabel == 0 || vaultObjectLabel == 0xffff ||
      (flagMutable &&& flagInline) != 0) = false := by decide
  cases h with
  | wrap appId record hlength => exact hwrap
  | label label hlength => exact hlabel

theorem VaultWrite.coreValid {generation : UInt32} {recordId : UInt64}
    (hgeneration : generation ≠ 0) (hrecordId : recordId ≠ 0) :
    (write.descriptor generation recordId).coreValid = true := by
  have hwrap : ((vaultWrapWrite 0 []).descriptor 1 1).coreValid = true := by decide
  have hlabel : ((vaultLabelWrite []).descriptor 1 1).coreValid = true := by decide
  have hone : (write.descriptor 1 1).coreValid = true := by
    cases h with
    | wrap appId record hlength => exact hwrap
    | label label hlength => exact hlabel
  simp only [FileObjectDescriptor.coreValid, FileObjectContainerWrite.descriptor, Bool.and_eq_true,
    bne_iff_ne] at hone ⊢
  obtain ⟨⟨⟨⟨⟨⟨⟨⟨htype, -⟩, -⟩, hlow⟩, hhigh⟩, hmask⟩, hinline⟩, hgroup⟩, hext⟩ := hone
  exact ⟨⟨⟨⟨⟨⟨⟨⟨htype, hgeneration⟩, hrecordId⟩, hlow⟩, hhigh⟩, hmask⟩, hinline⟩, hgroup⟩, hext⟩

end

/-- The writes of the vault are in order, except where `P` is the case. -/
theorem vaultUpdateOk {P : Prop} {current : Option (Fin 2 × FileObjectManifest)}
    {writes : List FileObjectContainerWrite} (hwrites : ∀ write ∈ writes, VaultWrite write)
    (hne : writes ≠ []) (hlength : writes.length ≤ manifestMaxObjects)
    (hnodup : (writes.map (·.key)).Nodup)
    (hgeneration : ∀ object ∈ currentObjects current, (∃ write ∈ writes, write.key = object.key) →
      object.generation = 0xffffffff → P)
    (hroom : manifestMaxObjects <
      ((currentObjects current).map (·.key) ++ writes.map (·.key)).dedup.length → P)
    (hexhausted : currentGeneration current = 0xffffffff → P) :
    UpdateOk V.layout 0 V.primary (fun _ ↦ True) (· = .ok) P (fun _ ↦ False) current files
      writes where
  each write hwrite := by
    have hw := hwrites write hwrite
    refine ⟨trivial, fun _ _ _ _ _ _ ↦ id, fun hvalid s ↦ ?_, fun r hr ↦ ?_, fun hlen ↦ ?_,
      fun generation recordId hg hid hcore ↦ ?_, fun hvalid ↦ ?_⟩
    · have hnumbering := @vaultNumbering V.sha256 (V.legacyFile.map (·.1))
      have hallocate := hnumbering.allocate (targetSlot current) write V.primary.auth
        (hnumbering.key_of_writeValid write hvalid)
      exact hallocate ▸ wp_pure trivial
    · have hhash : vaultPolicyHash V.sha256 write.policyId =
          .ok ((V.sha256 internalPolicy).take 16) := by
        rw [hw.policyId_eq]
        exact internalPolicy_hash V.sha256
      rw [show vaultPolicyHash V.sha256 write.policyId = .error r from hr] at hhash
      cases hhash
    · have hle := hw.length_le
      simp only [UINT32_MAX, recordHeaderSize, authTagSize, vaultLabelMax] at hlen hle
      omega
    · rw [hw.coreValid hg hid] at hcore
      cases hcore
    · exact absurd (hw.valid.symm.trans hvalid) (by decide)
  batch := ⟨fun write hwrite hfields ↦ absurd ((hwrites write hwrite).fields.symm.trans hfields)
    (by decide), fun h ↦ absurd hnodup h, hgeneration, hroom⟩
  count h := by
    rcases h with hnil | hlong
    · exact absurd hnil hne
    · omega
  exhausted := hexhausted

/-- What an update that succeeds leaves. -/
structure VaultUpdated (V : VaultState) (current : Option (Fin 2 × FileObjectManifest))
    (val : UInt16 × UInt16 → Bytes) (writes : List FileObjectContainerWrite) (files : Files) :
    Prop where
  committed : ∃ val' next, CallCommitted V.layout 0 V.primary current val (.update writes false) files
    val' next
  settled : vaultLegacyVault V files = none

variable {current : Option (Fin 2 × FileObjectManifest)} {val : UInt16 × UInt16 → Bytes}
  {s : FsState TxnRam} {writes : List FileObjectContainerWrite}

section

variable (hcurrent : ContainerIs V.layout 0 V.primary s.files val current)
include hcurrent

/-- **An update of the vault that succeeds**, whatever happens to the flash on the way. -/
theorem wp_vaultUpdate (hne : writes ≠ []) (A : Outcome → Prop) :
    wp A (vaultUpdate V writes) (fun _ s' ↦ VaultUpdated V current val writes s'.files)
      (fun _ _ ↦ True) s := by
  refine wp_ite (fun hnil ↦ absurd (isEmpty_iff.mp hnil) hne) fun _ ↦ ?_
  have hcall := @wp_containerCall _ _ V.primary V.legacy val current _ vaultSpec (fun _ ↦ True)
    (fun _ ↦ False) s _ (fun _ ↦ False.elim) hcurrent (.update writes false) (fun _ _ ↦ trivial)
    (fun _ _ _ _ _ _ _ _ ↦ id) vaultSpec.cleanupOk
  have hsettled := @wp_updateActivated _ V.layout 0 V.primary V.legacy
    (fun s' ↦ vaultLegacyVault V s'.files = none)
    (fun s₁ ↦ wp_mono (wp_vaultActivate _ s₁) (fun _ _ h ↦ h) fun _ _ _ ↦ trivial)
    (fun c n cs t s₁ h ↦ wp_mono ((vaultRetire_confined c n cs t).keepsSettled _ s₁ h)
      (fun _ _ h ↦ h.1) fun _ _ _ ↦ trivial) writes false s
  refine wp_anti (wp_mono (wp_and hcall hsettled) ?_ fun _ _ _ ↦ trivial) (fun _ _ ↦ trivial)
    (vaultLayoutConfined.update writes false A s)
  rintro - s' ⟨⟨val', next, hcommitted, -⟩, hsettled⟩
  exact ⟨⟨val', next, hcommitted⟩, hsettled⟩

/-- An undisturbed update is refused only where `P` is the case. -/
theorem wp_vaultUpdate_undisturbed {P : Prop} (hne : writes ≠ [])
    (hok : UpdateOk V.layout 0 V.primary (fun _ ↦ True) (· = .ok) P (fun _ ↦ False) current s.files
      writes) :
    wp (· = .ok) (vaultUpdate V writes) (fun _ _ ↦ True) (fun _ _ ↦ P) s := by
  refine wp_ite (fun hnil ↦ absurd (isEmpty_iff.mp hnil) hne) fun _ ↦ ?_
  have hupdate := @wp_fileObjectContainerUpdateInternal _ _ V.primary V.legacy _ vaultSpec (· = .ok)
    P (fun _ ↦ False) current val s _ writes (fun _ ↦ False.elim) hcurrent hok vault_cleanupOk false
  refine wp_mono hupdate (fun _ _ _ ↦ trivial) ?_
  rintro e s' ⟨-, h | h | h | h⟩
  · cases h
  · cases h
  · cases h
  · exact h

/-- A write whose generations are used up changes nothing. -/
theorem wp_vaultUpdate_exhausted
    (hexhausted : currentGeneration current = 0xffffffff ∨
      ∃ object ∈ currentObjects current, object.key = write.key ∧ object.generation = 0xffffffff)
    (A : Outcome → Prop) :
    wp A (vaultUpdate V [write]) (fun _ _ ↦ False) (fun _ s' ↦ s' = s) s := by
  refine wp_ite (by simp) fun _ ↦ ?_
  show wp A (fileObjectContainerUpdateInternal V.layout 0 [write] V.primary V.legacy false) _ _ s
  unfold fileObjectContainerUpdateInternal
  refine wp_guard rfl fun _ ↦ wp_get ?_
  obtain ⟨state, hstate, hstart⟩ :=
    @ContainerIs.updateState _ _ _ V.legacy _ _ _ vaultSpec.valid hcurrent false
  rw [hstate]
  refine wp_bind (wp_pure ?_)
  rw [hstart.manifest_eq]
  refine wp_lift (fun base hbase ↦ ?_) fun _ _ ↦ rfl
  rcases current with - | ⟨slot, manifest⟩
  · rcases hexhausted with h | ⟨object, hobject, -⟩
    · cases h
    · cases hobject
  simp only [Option.map_some, containerNextManifest] at hbase
  split_ifs at hbase with hrefused
  cases hbase
  simp only [not_or] at hrefused
  obtain ⟨object, hobject, hkey, hgeneration⟩ := hexhausted.resolve_left hrefused.1
  -- the object that is found for the write is the one whose generation is used up
  have hany : ((fileObjectContainerFind manifest write.objectType write.objectTag).any
      (·.generation == 0xffffffff)) = true := by
    rcases hfind : fileObjectContainerFind manifest write.objectType write.objectTag with - | found
    · rw [fileObjectContainerFind, find?_eq_none] at hfind
      exact absurd (beq_iff_eq.mpr hkey) (hfind object hobject)
    · obtain ⟨hmem, hfound⟩ := mem_of_containerFind hfind
      have hnodup := nodup_key_of_sorted (ContainerHolds.manifestFile hcurrent).built.sorted
      have heq : found = object := inj_on_of_nodup_map hnodup hmem hobject
        (hfound.trans hkey.symm)
      simp [heq, hgeneration]
  refine wp_bind (wp_ite (fun _ ↦ wp_bind ?_) fun hnot ↦ ?_)
  · exact wp_containerAbort (I := fun s' ↦ s' = s) rfl (by simp) (fun _ h ↦ h) fun _ _ h ↦ h
  · exact absurd (Bool.or_eq_true_iff.mpr (.inr hany)) hnot

end

theorem effect_update_one (write : FileObjectContainerWrite) (validateRecords : Bool)
    (objects : UInt16 × UInt16 → Option Bytes) (key : UInt16 × UInt16) :
    (ContainerCall.update [write] validateRecords).effect objects key =
      if write.key = key then some write.data else objects key := by
  rw [ContainerCall.effect, find?_singleton]
  by_cases hkey : write.key = key <;> simp [hkey]

theorem vaultWrapWrite_key {appId appId' : UInt8} {record : Bytes} :
    (vaultWrapWrite appId.toUInt16 record).key = (vaultObjectWrap, appId'.toUInt16) ↔
      appId' = appId := by
  simp [FileObjectContainerWrite.key, vaultWrapWrite, UInt8.toUInt16_inj, eq_comm]

theorem vaultWrapWrite_key_ne {appId : UInt16} {record : Bytes} :
    (vaultWrapWrite appId record).key ≠ (vaultObjectLabel, 0) := by
  have hne : vaultObjectWrap ≠ vaultObjectLabel := by decide
  exact fun h ↦ hne (congrArg Prod.fst h)

theorem vaultLabelWrite_key_ne {appId : UInt16} {label : Bytes} :
    (vaultLabelWrite label).key ≠ (vaultObjectWrap, appId) := by
  have hne : vaultObjectLabel ≠ vaultObjectWrap := by decide
  exact fun h ↦ hne (congrArg Prod.fst h)

theorem mem_keys_of_data {key : UInt16 × UInt16} (h : currentData current val key ≠ none) :
    key ∈ (currentObjects current).map (·.key) := by
  by_contra hnot
  exact h (if_neg hnot)

end Layout

end PicoAll
