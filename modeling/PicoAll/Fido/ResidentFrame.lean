import PicoAll.Fido.ResidentCalls

/-!
# What the calls on a resident credential change

A call changes no file but those of its slot, as long as none of these is a system file. `EF_PHY` is
always there, and what it holds is not a record, so that `resident_container_can_create` refuses
slot `0x20`. There is no `EF_META` in the namespace until a private key is imported into slot `0x10`:
from then on the record is the metadata file, and every deletion looks for its file in it.
-/

namespace PicoAll

open FaultProgram BigEndian List UInt8

/-! ### What a call may change -/

/-- A call on a credential. -/
inductive ResidentCall where
  /-- `resident_container_create`. -/
  | create (c : ResidentCredential)
  /-- `resident_container_create_imported`. -/
  | createImported (c : ResidentCredential) (privateKey metadata : Bytes)
  /-- `resident_container_update_metadata`. -/
  | updateMetadata (metadata : FidoResidentMetadata)
  /-- `resident_container_update_metadata_blob`. -/
  | updateMetadataBlob (metadata : Bytes)
  /-- `resident_container_update_credential`. -/
  | updateCredential (credential : Bytes)
  /-- `resident_container_update_private_key`. -/
  | updatePrivateKey (privateKey : Bytes)
  /-- `resident_container_delete`. -/
  | delete

namespace ResidentCall

/-- The call writes a private key. -/
def writesPrivateKey : ResidentCall → Bool
  | createImported .. => true
  | updatePrivateKey .. => true
  | _ => false

section Run

variable [FileDeletion] (sha256 : Bytes → Bytes) (primary legacy : Option FileObjectContainerCrypto)
  (slot : UInt8)

/-- The call as a program. -/
def run : ResidentCall → FsProg TxnRam Unit
  | create c => residentContainerCreate sha256 primary legacy slot c
  | createImported c privateKey metadata =>
    residentContainerCreateImported sha256 primary legacy slot c privateKey metadata
  | updateMetadata metadata => residentContainerUpdateMetadata sha256 primary legacy slot metadata
  | updateMetadataBlob metadata =>
    residentContainerUpdateMetadataBlob sha256 primary legacy slot metadata
  | updateCredential credential =>
    residentContainerUpdateCredential sha256 primary legacy slot credential
  | updatePrivateKey privateKey =>
    residentContainerUpdatePrivateKey sha256 primary legacy slot privateKey
  | delete => residentContainerDelete sha256 primary legacy slot

/-- The manifest slot that an update would write. -/
def targetSlot (files : Files) : Option (Fin 2) :=
  match primary with
  | none => none
  | some crypto =>
    match containerUpdateState (residentContainerLayout sha256) slot.toUInt32 files crypto legacy
        false with
    | .error _ => none
    | .ok state => some (containerTargetSlot (state.map (·.current.1)))

end Run

end ResidentCall

/-- The device settings are there, and are not a record. -/
def PhyStored (files : Files) : Prop :=
  ∃ c, files efPhy = some c ∧ ¬(4 ≤ c.length ∧ beField c 0 4 = recordMagic)

/-- The system files are as they should be: there is no metadata, the device settings are there and
are not a record, and the slot that would share their file is not in use. -/
structure ResidentReady (files : Files) : Prop where
  noMeta : files efMeta = none
  phy : PhyStored files
  unused : ∀ manifestSlot, files (residentManifestFid 0x20 manifestSlot) = none

/-- **The frame of a slot**: no other file changes, and no system file. -/
structure ResidentFramed (slot : UInt8) (files files' : Files) : Prop where
  others : ∀ fid, fid ∉ residentFids slot → files' fid = files fid
  system : ∀ fid ∈ systemFids, files' fid = files fid

theorem ResidentFramed.refl (slot : UInt8) (files : Files) : ResidentFramed slot files files :=
  ⟨fun _ _ ↦ rfl, fun _ _ ↦ rfl⟩

/-- A frame keeps what the next call needs. -/
theorem ResidentFramed.ready {slot : UInt8} {files files' : Files}
    (h : ResidentFramed slot files files') (hready : ResidentReady files)
    (hunused : slot = 0x20 → files' = files) : ResidentReady files' := by
  have hmeta := h.system efMeta (mem_cons_self ..)
  have hphy := h.system efPhy (mem_cons_of_mem _ (mem_cons_self ..))
  have hphy' : PhyStored files' := by
    obtain ⟨c, hc, hmagic⟩ := hready.phy
    exact ⟨c, hphy.trans hc, hmagic⟩
  refine ⟨hmeta.trans hready.noMeta, hphy', fun manifestSlot ↦ ?_⟩
  by_cases hslot : slot = 0x20
  · rw [hunused hslot]
    exact hready.unused manifestSlot
  · rw [h.others _ fun hmem ↦ ?_, hready.unused manifestSlot]
    exact residentFids_disjoint (Ne.symm hslot) (manifest_mem_residentFids manifestSlot) hmem

section Frame

variable {sha256 : Bytes → Bytes} {primary legacy : Option FileObjectContainerCrypto}
  {slot : UInt8} {s₀ s : FsState TxnRam} {A : Outcome → Prop}

/-- The invariant of a call: everything but the files of its slot is as it was, and so is the
metadata file. -/
abbrev OthersKept (slot : UInt8) (s₀ s : FsState TxnRam) : Prop :=
  ∀ fid, fid ∉ residentFids slot ∨ fid = efMeta → s.files fid = s₀.files fid

attribute [local instance] fidoDeletion

/-- Where there is no metadata, deleting a file deletes that file. -/
theorem keeps_fidoDelete (hmeta : s₀.files efMeta = none) {fid : ℕ} (hfid : fid ∈ residentFids slot)
    (hne : fid ≠ efMeta) : Preserves (OthersKept slot s₀)
      (fileDeleteDynamic fid : FsProg TxnRam Unit) := by
  have hmetadata : Preserves (OthersKept slot s₀)
      (metadataDelete fid : FsProg TxnRam (Except Status Unit)) := by
    refine .onError (.bind (R := fun _ ↦ True) (.bind (R := (· = none)) ?_ ?_) fun _ _ ↦
      .pure trivial) fun _ ↦ .pure trivial
    · exact keeps_fileSearch fun s hs ↦ (hs efMeta (.inr rfl)).trans hmeta
    · rintro - rfl
      exact .fail _
  refine .bind hmetadata fun metadata _ ↦ .bind (R := fun _ ↦ True) (.perform fun s hs f hf ↦ ?_)
    fun _ _ ↦ .liftExcept fun _ _ ↦ trivial
  have hne' : f ≠ fid := by
    rintro rfl
    exact hf.elim (· hfid) hne
  rw [FsState.files_setFile, Files.set_of_ne _ _ hne', hs f hf]

theorem residentFilesKeep (hmeta : s₀.files efMeta = none) :
    FilesKeep (OthersKept slot s₀) fun fid ↦ fid ∈ residentFids slot ∧ fid ≠ efMeta where
  delete _ hfid := keeps_fidoDelete hmeta hfid.1 hfid.2
  set fid hfid s c hs f hf := by
    have hne : f ≠ fid := by
      rintro rfl
      exact hf.elim (· hfid.1) hfid.2
    rw [FsState.files_setFile, Files.set_of_ne _ _ hne, hs f hf]

/-- A file of the slot may be deleted, the metadata file because it is not there. -/
theorem keeps_residentDeletePresent (hmeta : s₀.files efMeta = none) {fid : ℕ}
    (hfid : fid ∈ residentFids slot) : Preserves (OthersKept slot s₀) (fileDeletePresent fid) := by
  by_cases hne : fid = efMeta
  · refine .bind (R := (· = none)) (keeps_fileSearch fun s hs ↦ ?_) ?_
    · exact (hs fid (.inr hne)).trans (hne ▸ hmeta)
    · rintro - rfl
      exact .pure trivial
  · exact (residentFilesKeep hmeta).deletePresent ⟨hfid, hne⟩

theorem keeps_residentSweep (hmeta : s₀.files efMeta = none) {fids : List ℕ}
    (hfids : ∀ fid ∈ fids, fid ∈ residentFids slot) :
    Preserves (OthersKept slot s₀) (sweep fids) := by
  refine keeps_forEach fun fid hfid ↦ ?_
  by_cases hne : fid = efMeta
  · refine .bind (R := (· = none)) (keeps_fileSearch fun s hs ↦ ?_) ?_
    · exact (hs fid (.inr hne)).trans (hne ▸ hmeta)
    · rintro - rfl
      exact .pure trivial
  · exact (residentFilesKeep hmeta).deleteQuietly ⟨hfids fid hfid, hne⟩

theorem residentManifest_ne_efMeta (manifestSlot : Fin 2) :
    residentManifestFid slot manifestSlot ≠ efMeta := by
  have hlt := (residentManifestFid_lt slot manifestSlot).2
  exact ne_of_lt (hlt.trans (by decide))

theorem residentMarker_ne_efMeta : residentMarkerFid slot ≠ efMeta := by
  have hlt := slot.toNat_lt
  show 0xcf * 256 + slot.toNat ≠ 0xE010
  omega

/-- The one record that is the metadata file: the private key of slot `0x10`, in manifest slot 0. -/
theorem residentRecordFid_eq_efMeta {objectType : UInt16} {manifestSlot : Fin 2}
    (htype : residentObjectTypeValid objectType = true)
    (heq : residentRecordFid slot manifestSlot objectType = efMeta) :
    slot = 0x10 ∧ objectType = residentObjectPrivateKey ∧ manifestSlot = 0 := by
  have hmem : efMeta ∈ residentFids slot :=
    heq ▸ recordFids_subset_residentFids (mem_map_of_mem (mem_residentTypes htype))
  have hslot := slot_of_efMeta hmem
  have hkind : ∀ objectType ∈ residentTypes, ∀ manifestSlot : Fin 2,
      residentRecordFid 0x10 manifestSlot objectType = efMeta →
        objectType = residentObjectPrivateKey ∧ manifestSlot = 0 := by decide
  rw [hslot] at heq
  exact ⟨hslot, hkind objectType (mem_residentTypes htype) manifestSlot heq⟩

/-- What an update of the slot is given: the slot to write, if it is the one of the metadata file,
must not be for a private key. -/
def SafeTarget (slot : UInt8) (writes : List FileObjectContainerWrite) (target : Fin 2) : Prop :=
  slot = 0x10 → residentObjectPrivateKey ∈ writes.map (·.objectType) → target ≠ 0

/-- An update of a credential leaves the files of the others alone. -/
theorem residentUpdateKeeps (hmeta : s₀.files efMeta = none)
    (writes : List FileObjectContainerWrite) :
    UpdateKeeps (residentContainerLayout sha256) slot.toUInt32 (OthersKept slot s₀)
      (fun fid ↦ fid ∈ residentFids slot ∧ fid ≠ efMeta) (SafeTarget slot writes) writes where
  toFilesKeep := residentFilesKeep hmeta
  manifest manifestSlot := by
    show residentManifestFid slot.toUInt32.toUInt8 manifestSlot ∈ _ ∧ _
    rw [toUInt8_toUInt32]
    exact ⟨manifest_mem_residentFids manifestSlot, residentManifest_ne_efMeta manifestSlot⟩
  allocate manifestSlot hsafe write hwrite auth := by
    show Keeps _ _ (residentLayoutRecordAllocate slot.toUInt32 manifestSlot write auth)
    rw [residentLayoutRecordAllocate, toUInt8_toUInt32]
    refine .ite (fun _ ↦ .fail _) fun hvalid ↦ .pure ?_
    simp only [not_or, Bool.not_eq_true', Bool.not_eq_false] at hvalid
    refine ⟨recordFids_subset_residentFids (mem_map_of_mem (mem_residentTypes hvalid.2)), ?_⟩
    intro heq
    obtain ⟨hslot, htype, htarget⟩ := residentRecordFid_eq_efMeta hvalid.2 heq
    exact hsafe hslot (mem_map.mpr ⟨write, hwrite, htype⟩) htarget
  activate := by
    show Keeps _ _ (residentLayoutActivate slot.toUInt32)
    rw [residentLayoutActivate, toUInt8_toUInt32]
    exact .bind (keeps_fileSearch (R := fun _ ↦ True) fun _ _ ↦ trivial) fun _ _ ↦
      .ite (fun _ ↦ .pure trivial) fun _ ↦ (residentFilesKeep hmeta).replaceFile
        ⟨marker_mem_residentFids, residentMarker_ne_efMeta⟩ _
  retire candidates next currentSlot targetSlot := by
    show Keeps _ _ (residentLayoutRetire slot.toUInt32 candidates next currentSlot targetSlot)
    rw [residentLayoutRetire, toUInt8_toUInt32]
    refine keeps_residentSweep hmeta fun fid hfid ↦ ?_
    obtain rfl | ⟨manifestSlot, hmem, -⟩ := mem_retireFids.mp hfid
    · exact manifest_mem_residentFids _
    · exact recordFids_subset_residentFids hmem

variable {writes : List FileObjectContainerWrite}

/-- **An update of a credential** changes its own files only, and not the metadata file. -/
theorem wp_residentContainerUpdate (hmeta : s.files efMeta = none)
    (hsafe : ∀ target, ResidentCall.targetSlot sha256 primary legacy slot s.files = some target →
      SafeTarget slot writes target) :
    wp A (residentContainerUpdate sha256 primary legacy slot writes)
      (fun _ s' ↦ OthersKept slot s s') (fun _ s' ↦ OthersKept slot s s') s := by
  rcases hprimary : primary with - | crypto
  · exact wp_fail fun _ _ ↦ rfl
  refine wp_get (wp_ite (fun _ ↦ wp_fail fun _ _ ↦ rfl) fun _ ↦ ?_)
  refine (residentUpdateKeeps hmeta writes).update false (fun _ _ ↦ rfl) fun state hstate ↦ ?_
  refine hsafe _ ?_
  simp only [ResidentCall.targetSlot, hprimary, hstate]

/-- Where there is no manifest there is no container. -/
theorem residentLoad_unused {crypto : FileObjectContainerCrypto} {files : Files}
    (hunused : ∀ manifestSlot, files (residentManifestFid slot manifestSlot) = none) :
    fileObjectContainerLoad (residentContainerLayout sha256) slot.toUInt32 files crypto legacy =
      .error .fileNotFound := by
  have hmanifest (manifestSlot : Fin 2) :
      files ((residentContainerLayout sha256).manifestFid slot.toUInt32 manifestSlot) = none := by
    show files (residentManifestFid slot.toUInt32.toUInt8 manifestSlot) = none
    rw [toUInt8_toUInt32, hunused]
  have hcandidate (manifestSlot : Fin 2) : containerCandidate (residentContainerLayout sha256)
      slot.toUInt32 files manifestSlot crypto.auth = .ok none := by
    rw [containerCandidate, fileObjectContainerParseSlot, hmanifest]
  have hload : fileObjectContainerLoadWithCrypto (residentContainerLayout sha256) slot.toUInt32
      files crypto = .error .fileNotFound := by
    rw [fileObjectContainerLoadWithCrypto, hcandidate, hcandidate, hmanifest, hmanifest]
    rfl
  have hvalid : fileObjectContainerLayoutValid (residentContainerLayout sha256) = true := rfl
  rw [fileObjectContainerLoad, hload, hvalid]
  rfl

/-- The slot whose private key would be the device settings cannot be used. -/
theorem residentCanCreate_efPhy {files : Files} (hready : ResidentReady files) :
    residentContainerCanCreate sha256 primary legacy 0x20 files = false := by
  obtain ⟨c, hphy, hmagic⟩ := hready.phy
  have hrecord : files (residentRecordFid 0x20 0 residentObjectPrivateKey) = some c := hphy
  unfold residentContainerCanCreate
  rw [hready.unused, hready.unused, if_neg (by simp), all_eq_false]
  refine ⟨0, mem_cons_self .., ?_⟩
  rw [Bool.not_eq_true, all_eq_false]
  refine ⟨residentObjectPrivateKey, by decide, ?_⟩
  rw [hrecord]
  simp only [Bool.and_eq_true, decide_eq_true_eq, beq_iff_eq, not_and]
  exact fun h hmagic' ↦ hmagic ⟨h.2, hmagic'⟩

theorem wp_residentContainerUpdate_efPhy (hready : ResidentReady s.files) :
    wp A (residentContainerUpdate sha256 primary legacy 0x20 writes)
      (fun _ s' ↦ s' = s) (fun _ s' ↦ s' = s) s := by
  rcases hprimary : primary with - | crypto
  · exact wp_fail rfl
  refine wp_get (wp_refuse rfl fun hcan ↦ ?_)
  rw [hready.unused, hready.unused, residentCanCreate_efPhy hready] at hcan
  exact absurd rfl hcan

theorem wp_residentContainerDelete (hmeta : s.files efMeta = none) :
    wp A (residentContainerDelete sha256 primary legacy slot)
      (fun _ s' ↦ OthersKept slot s s') (fun _ s' ↦ OthersKept slot s s') s := by
  refine wp_bind (wp_fileSearch (wp_ite (fun _ ↦ wp_fail fun _ _ ↦ rfl) fun _ ↦ ?_))
  rcases primary with - | crypto
  · exact wp_fail fun _ _ ↦ rfl
  have hkeeps : Preserves (OthersKept slot s) (fileObjectContainerDelete
      (residentContainerLayout sha256) slot.toUInt32 crypto legacy) := by
    refine keeps_containerDelete (fun object fid hfid ↦ ?_) (fun manifestSlot ↦ ?_) ?_
    · have hrecord : residentRecordIdValid slot object = true ∧ fid = object.recordId.toNat :=
        (@resident_recordFid_eq_ok sha256 slot object fid).mp hfid
      exact keeps_residentDeletePresent hmeta (hrecord.2 ▸ mem_residentFids_of_valid hrecord.1)
    · show Keeps _ _ (fileDeletePresent (residentManifestFid slot.toUInt32.toUInt8 manifestSlot))
      rw [toUInt8_toUInt32]
      exact keeps_residentDeletePresent hmeta (manifest_mem_residentFids manifestSlot)
    · show Keeps _ _ (residentLayoutDeactivate slot.toUInt32)
      rw [residentLayoutDeactivate, toUInt8_toUInt32]
      refine .bind (keeps_residentSweep hmeta fun fid hfid ↦ ?_) fun _ _ ↦
        keeps_residentDeletePresent hmeta marker_mem_residentFids
      exact (mem_append.mp hfid).elim recordFids_subset_residentFids recordFids_subset_residentFids
  exact wp_mono (hkeeps A s fun _ _ ↦ rfl) (fun _ _ h ↦ h.1) fun _ _ h ↦ h

theorem wp_residentContainerDelete_efPhy (hready : ResidentReady s.files) :
    wp A (residentContainerDelete sha256 primary legacy 0x20)
      (fun _ s' ↦ s' = s) (fun _ s' ↦ s' = s) s := by
  refine wp_bind (wp_fileSearch (wp_refuse rfl fun _ ↦ ?_))
  rcases primary with - | crypto
  · exact wp_fail rfl
  unfold fileObjectContainerDelete
  refine wp_guard rfl fun _ ↦ wp_get (wp_bind ?_)
  rw [residentLoad_unused hready.unused]
  exact wp_fail rfl

/-- A call does what an update with its writes does, or a deletion, or nothing. -/
theorem wp_residentCall {call : ResidentCall} {I : FsState TxnRam → Prop} (hI : I s)
    (hupdate : ∀ writes : List FileObjectContainerWrite,
      (residentObjectPrivateKey ∈ writes.map (·.objectType) → call.writesPrivateKey = true) →
      wp A (residentContainerUpdate sha256 primary legacy slot writes) (fun _ ↦ I) (fun _ ↦ I) s)
    (hdelete : wp A (residentContainerDelete sha256 primary legacy slot) (fun _ ↦ I) (fun _ ↦ I)
      s) :
    wp A (call.run sha256 primary legacy slot) (fun _ ↦ I) (fun _ ↦ I) s := by
  have hother {types : List UInt16} (hne : residentObjectPrivateKey ∉ types) :
      residentObjectPrivateKey ∈ types → call.writesPrivateKey = true := fun h ↦ absurd h hne
  cases call with
  | create c =>
    refine wp_refuse hI fun _ ↦ hupdate _ ?_
    show residentObjectPrivateKey ∈ [1, 2, 3, 4, residentObjectMetadata, residentObjectState] → _
    exact hother (by decide)
  | createImported c privateKey metadata =>
    exact wp_refuse hI fun _ ↦ hupdate _ fun _ ↦ rfl
  | updateMetadata metadata =>
    refine wp_refuse hI fun _ ↦ wp_get ?_
    refine wp_lift (fun _ _ ↦ hupdate _ ?_) fun _ _ ↦ hI
    exact hother (show residentObjectPrivateKey ∉ [residentObjectState] by decide)
  | updateMetadataBlob metadata =>
    refine wp_refuse hI fun _ ↦ hupdate _ ?_
    exact hother (show residentObjectPrivateKey ∉ [residentObjectMetadata] by decide)
  | updateCredential credential =>
    refine wp_refuse hI fun _ ↦ hupdate _ ?_
    exact hother (show residentObjectPrivateKey ∉ [(3 : UInt16)] by decide)
  | updatePrivateKey privateKey =>
    exact wp_refuse hI fun _ ↦ hupdate _ fun _ ↦ rfl
  | delete => exact hdelete

/-- **One call keeps to its slot**, unless it writes a private key to the metadata file. -/
theorem residentCall_framed (hready : ResidentReady s.files) {call : ResidentCall}
    (hsafe : slot = 0x10 → call.writesPrivateKey = true →
      ResidentCall.targetSlot sha256 primary legacy slot s.files ≠ some 0) (os : List Outcome) :
    ResidentFramed slot s.files ((call.run sha256 primary legacy slot).final s os).files ∧
      (slot = 0x20 → (call.run sha256 primary legacy slot).final s os = s) := by
  by_cases hslot : slot = 0x20
  · subst hslot
    have hstay : (call.run sha256 primary legacy 0x20).final s os = s :=
      final_of_wp (I := (· = s)) (wp_residentCall rfl
        (fun _ _ ↦ wp_residentContainerUpdate_efPhy hready)
        (wp_residentContainerDelete_efPhy hready)) os
    rw [hstay]
    exact ⟨.refl _ _, fun _ ↦ rfl⟩
  · have hkept : OthersKept slot s ((call.run sha256 primary legacy slot).final s os) := by
      refine final_of_wp (I := OthersKept slot s) (wp_residentCall (fun _ _ ↦ rfl)
        (fun writes hkey ↦ wp_residentContainerUpdate hready.noMeta ?_)
        (wp_residentContainerDelete hready.noMeta)) os
      intro target htarget hslot' hmem hzero
      exact hsafe hslot' (hkey hmem) (hzero ▸ htarget)
    refine ⟨⟨fun fid hfid ↦ hkept fid (.inl hfid), fun fid hfid ↦ ?_⟩, fun h ↦ absurd h hslot⟩
    rcases mem_cons.mp hfid with rfl | hfid
    · exact hkept efMeta (.inr rfl)
    rcases mem_cons.mp hfid with rfl | hfid
    · exact hkept efPhy (.inl fun hmem ↦ hslot (slot_of_efPhy hmem))
    · exact hkept fid (.inl fun hmem ↦ not_mem_fidoFileEntries hmem hfid)

end Frame

/-! ### Runs -/

/-- No manifest and no record of a credential is there yet. -/
structure ResidentFresh (files : Files) : Prop where
  absent : ∀ slot, ∀ fid ∈ residentFids slot, fid ≠ residentMarkerFid slot → fid ≠ efPhy →
    files fid = none
  phy : PhyStored files

/-- What the rest of the firmware may do to the files: whatever it likes, but to the manifests and
records of the credentials; and it stores the device settings as they are stored. -/
structure OthersChanged (files files' : Files) : Prop where
  kept : ∀ slot, ∀ fid ∈ residentFids slot, fid ≠ residentMarkerFid slot → fid ≠ efPhy →
    files' fid = files fid
  phy : PhyStored files'

/-- A call may be made: it does not write the private key of slot `0x10` to manifest slot 0. -/
def ResidentCall.Safe (sha256 : Bytes → Bytes) (primary legacy : Option FileObjectContainerCrypto)
    (slot : UInt8) (files : Files) (call : ResidentCall) : Prop :=
  slot = 0x10 → call.writesPrivateKey = true →
    @ResidentCall.targetSlot fidoDeletion sha256 primary legacy slot files ≠ some 0

/-- The states of a run: calls on any slots, with any failures and losses of power, and changes by
others. -/
inductive ResidentRun (sha256 : Bytes → Bytes)
    (primary legacy : Option FileObjectContainerCrypto) : FsState TxnRam → Prop
  /-- The run starts before there are credentials. -/
  | fresh (s : FsState TxnRam) (h : ResidentFresh s.files) : ResidentRun sha256 primary legacy s
  /-- Others change their files. -/
  | others (s s' : FsState TxnRam) (h : ResidentRun sha256 primary legacy s)
    (hothers : OthersChanged s.files s'.files) : ResidentRun sha256 primary legacy s'
  /-- A call is made. -/
  | call (s : FsState TxnRam) (slot : UInt8) (call : ResidentCall) (os : List Outcome)
    (h : ResidentRun sha256 primary legacy s)
    (hsafe : call.Safe sha256 primary legacy slot s.files) :
    ResidentRun sha256 primary legacy
      ((@ResidentCall.run fidoDeletion sha256 primary legacy slot call).final s os)

section Runs

variable {sha256 : Bytes → Bytes} {primary legacy : Option FileObjectContainerCrypto}
  {s : FsState TxnRam}

theorem efMeta_own : efMeta ∈ residentFids 0x10 ∧ efMeta ≠ residentMarkerFid 0x10 ∧
    efMeta ≠ efPhy := by
  decide

theorem manifest_own (slot : UInt8) (manifestSlot : Fin 2) :
    residentManifestFid slot manifestSlot ∈ residentFids slot ∧
      residentManifestFid slot manifestSlot ≠ residentMarkerFid slot ∧
      residentManifestFid slot manifestSlot ≠ efPhy := by
  have hrange := residentManifestFid_lt slot manifestSlot
  have hlt := slot.toNat_lt
  refine ⟨manifest_mem_residentFids manifestSlot, ne_of_gt ?_, ne_of_lt (hrange.2.trans (by decide))⟩
  show 0xcf * 256 + slot.toNat < residentManifestFid slot manifestSlot
  omega

/-- Along a run the system files are as they should be. -/
theorem ResidentRun.ready (h : ResidentRun sha256 primary legacy s) : ResidentReady s.files := by
  induction h with
  | fresh s h =>
    obtain ⟨hmem, hmarker, hphy⟩ := efMeta_own
    refine ⟨h.absent _ _ hmem hmarker hphy, h.phy, fun manifestSlot ↦ ?_⟩
    obtain ⟨hmem, hmarker, hphy⟩ := manifest_own 0x20 manifestSlot
    exact h.absent _ _ hmem hmarker hphy
  | others s s' _ hothers ih =>
    obtain ⟨hmem, hmarker, hphy⟩ := efMeta_own
    refine ⟨(hothers.kept _ _ hmem hmarker hphy).trans ih.noMeta, hothers.phy,
      fun manifestSlot ↦ ?_⟩
    obtain ⟨hmem, hmarker, hphy⟩ := manifest_own 0x20 manifestSlot
    exact (hothers.kept _ _ hmem hmarker hphy).trans (ih.unused manifestSlot)
  | call s slot call os _ hsafe ih =>
    have hframed := residentCall_framed ih hsafe os
    exact hframed.1.ready ih fun hslot ↦ by rw [hframed.2 hslot]

/-- **Resident credentials keep to their slots**: in a run in which the private key of slot `0x10` is
never written to manifest slot 0, a call changes no file but those of its slot, and no system file;
and no other slot has any of these. -/
theorem resident_calls_framed (h : ResidentRun sha256 primary legacy s) (slot : UInt8)
    (call : ResidentCall) (hsafe : call.Safe sha256 primary legacy slot s.files)
    (os : List Outcome) :
    ResidentFramed slot s.files
        ((@ResidentCall.run fidoDeletion sha256 primary legacy slot call).final s os).files ∧
      ∀ slot', slot' ≠ slot → ∀ fid ∈ residentFids slot, fid ∉ residentFids slot' :=
  ⟨(residentCall_framed h.ready hsafe os).1, fun _ hne _ hfid ↦
    residentFids_disjoint (Ne.symm hne) hfid⟩

end Runs

/-! ### An import -/

/-- A device without credentials: there are the device settings, with nothing in them. -/
def freshDevice : FsState TxnRam :=
  ⟨fun fid ↦ if fid = efPhy then some [] else none, .boot⟩

/-- A short credential. -/
def exampleCredential : ResidentCredential :=
  ⟨Vector.replicate 32 1, [1], [2], [3]⟩

theorem freshDevice_fresh : ResidentFresh freshDevice.files :=
  ⟨fun _ _ _ _ hne ↦ if_neg hne, [], rfl, by decide⟩

/-- A private key is imported into slot `0x10`: its record becomes the metadata file. A credential
is imported into slot `0x11` and deleted again: what the bytes of that record happen to say of the
deleted files is taken out of it. -/
theorem resident_import_writes_efMeta :
    let import_ (slot : UInt8) (privateKey : Bytes) (s : FsState TxnRam) : FsState TxnRam :=
      (@ResidentCall.run fidoDeletion exampleSha256 (some exampleCrypto) none slot
        (.createImported exampleCredential privateKey [5])).final s []
    let delete (slot : UInt8) (s : FsState TxnRam) : FsState TxnRam :=
      (@ResidentCall.run fidoDeletion exampleSha256 (some exampleCrypto) none slot .delete).final s []
    let s₁ := import_ 0x10 (List.replicate 37 0 ++ [0x11, 2, 0xd3, 0x11]) freshDevice
    let s₂ := import_ 0x11 [4] s₁
    ResidentFresh freshDevice.files ∧
      ¬ResidentFramed 0x10 freshDevice.files s₁.files ∧
      ¬ResidentFramed 0x11 s₂.files (delete 0x11 s₂).files := by
  intro import_ delete s₁ s₂
  have hmeta : efMeta ∈ systemFids := mem_cons_self ..
  have himport : s₁.files efMeta ≠ freshDevice.files efMeta := by decide +kernel
  have hdelete : (delete 0x11 s₂).files efMeta ≠ s₂.files efMeta := by decide +kernel
  exact ⟨freshDevice_fresh, fun h ↦ himport (h.system efMeta hmeta),
    fun h ↦ hdelete (h.system efMeta hmeta)⟩

/-- The import of a private key into slot zero, wherever the power is lost. -/
theorem resident_calls_framed_import :
    ResidentFramed 0 freshDevice.files
      ((@ResidentCall.run fidoDeletion exampleSha256 (some exampleCrypto) none 0
        (.createImported exampleCredential [4] [5])).final freshDevice [.ok, .cut]).files :=
  (resident_calls_framed (.fresh _ freshDevice_fresh) 0 _ (by rintro ⟨⟩) [.ok, .cut]).1

end PicoAll
