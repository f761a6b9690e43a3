import PicoAll.Apps.ContainerAtomic
import PicoAll.Fs.FileMeta

/-!
# The calls on a resident credential

The public functions of `resident_container.c`, and the files of a credential. These carry its slot
in the low byte, so that no two slots share one; but the high bytes of the private keys and states
reach into the range of the system files, and for two slots the record of the private key *is* one:
`EF_META` for slot `0x10`, `EF_PHY` for slot `0x20`.

Deletions are taken as they are here, with the metadata of the file: they change `EF_META`.
-/

namespace PicoAll

open FaultProgram BigEndian

abbrev efPhy : ℕ := 0xE020

/-- The file ids of `fido_file_entries`. -/
def fidoFileEntries : List ℕ :=
  [0x3f00, 0xcc00, 0xcc01, 0xcc02, 0xce02, 0xce00, 0xce05, 0xce01, 0xce03, 0xce04, 0xc000, 0x1080,
    0x1090, 0x1091, 0x1100, 0x1102, 0x1103, 0xc001, 0x1101, 0x10a0, 0x1084]

/-- The system files: the metadata, the device settings and those of the static table. -/
def systemFids : List ℕ :=
  efMeta :: efPhy :: fidoFileEntries

/-- The files that keep their entry when they are deleted. -/
def fidoStatic (fid : ℕ) : Bool :=
  fid == efPhy || fidoFileEntries.contains fid

/-- Deleting a file of the FIDO namespace. -/
@[reducible]
def fidoDeletion : FileDeletion :=
  ⟨fileDeleteWithMetadata fidoStatic⟩

/-- `fido_resident_metadata_t`. -/
structure FidoResidentMetadata where
  status : UInt8
  properties : UInt8
  expiration : UInt32
  deriving DecidableEq, Repr

/-- `FIDO_RESIDENT_STATUS_ACTIVE`. -/
abbrev residentStatusActive : UInt8 := 0

/-- `FIDO_RESIDENT_STATUS_REVOKED`. -/
abbrev residentStatusRevoked : UInt8 := 2

/-- `FIDO_RESIDENT_PROPERTY_NATIVE`. -/
abbrev residentPropertyNative : UInt8 := 0

/-- `FIDO_RESIDENT_PROPERTY_IMPORTED`. -/
abbrev residentPropertyImported : UInt8 := 1

/-- `FIDO_RESIDENT_METADATA_SIZE`. -/
abbrev residentMetadataSize : ℕ := 6

def residentMetadataValid (metadata : FidoResidentMetadata) : Bool :=
  decide (metadata.status ≤ residentStatusRevoked)

def residentMetadataEncode (metadata : FidoResidentMetadata) : Bytes :=
  [metadata.status, metadata.properties] ++ beBytes 4 metadata.expiration.toNat

variable (objectType : UInt16) (data : Bytes)

def residentMetadataDecode : FidoResidentMetadata :=
  ⟨data.getD 0 0, data.getD 1 0, .ofNat (beField data 2 4)⟩

def residentContainerIsMarker (slot : UInt8) (file : Option Bytes) : Bool :=
  match file with
  | none => false
  | some data =>
    fileHasData (some data) && data.length == 8 && data.take 4 == [0x50, 0x4b, 0x46, 0x31] &&
      data.getD 4 0 == 1 && data.getD 5 0 == slot && data.getD 6 0 == 0 && data.getD 7 0 == 0

/-- A write to a credential. -/
def residentWrite (protection : UInt8) (flags : UInt16) :
    FileObjectContainerWrite :=
  ⟨objectType, 0, data, residentPolicyId, 0, protection, flags, 0⟩

/-- The write of a public object that does not change. -/
def residentPublicWrite : FileObjectContainerWrite :=
  residentWrite objectType data protectionAuthenticatedPublic 0

/-- The write of a public object that may change. -/
def residentMutableWrite : FileObjectContainerWrite :=
  residentWrite objectType data protectionAuthenticatedPublic flagMutable

/-- The write of a secret object. -/
def residentSecretWrite : FileObjectContainerWrite :=
  residentWrite objectType data protectionAeadSecret (flagMutable ||| flagNonExportable)

/-- What a credential consists of. -/
structure ResidentCredential where
  rpIdHash : Vector UInt8 32
  clientId : Bytes
  credential : Bytes
  publicKey : Bytes

/-- Some data is longer than a 32-bit length. -/
def tooLong (data : List Bytes) : Bool :=
  data.any fun d ↦ decide (UINT32_MAX < d.length)

section Calls

variable [FileDeletion] (sha256 : Bytes → Bytes) (primary legacy : Option FileObjectContainerCrypto)
  (slot : UInt8)

/-- `resident_container_can_create`: no foreign file is in the place of a record. -/
def residentContainerCanCreate (files : Files) : Bool :=
  if (files (residentManifestFid slot 0)).isSome || (files (residentManifestFid slot 1)).isSome then
    match primary with
    | none => false
    | some primary =>
      match fileObjectContainerLoad (residentContainerLayout sha256) slot.toUInt32 files primary
          legacy with
      | .error _ => false
      | .ok state =>
        (fileObjectContainerValidate (residentContainerLayout sha256) slot.toUInt32 files
          state.current.2 state.crypto.protector).isOk
  else
    [0, 1].all fun manifestSlot ↦ residentTypes.all fun objectType ↦
      match files (residentRecordFid slot manifestSlot objectType) with
      | none => true
      | some record =>
        fileHasData (some record) && decide (4 ≤ record.length) && beField record 0 4 == recordMagic

/-- An update, with the keys of the device. -/
def residentContainerUpdate (writes : List FileObjectContainerWrite) : FsProg TxnRam Unit := do
  match primary with
  | none => FaultProgram.fail .execError
  | some crypto =>
    let files := (← getState).files
    if !fileHasData (files (residentManifestFid slot 0)) &&
        !fileHasData (files (residentManifestFid slot 1)) &&
        !residentContainerCanCreate sha256 primary legacy slot files then
      FaultProgram.fail .wrongData
    else
      fileObjectContainerUpdateWithoutRecordValidation (residentContainerLayout sha256)
        slot.toUInt32 writes crypto legacy

/-- `resident_container_create`. -/
def residentContainerCreate (c : ResidentCredential) : FsProg TxnRam Unit :=
  if tooLong [c.clientId, c.credential, c.publicKey] then
    FaultProgram.fail .nullParam
  else
    let metadata := [residentStatusActive, residentPropertyNative, 0, 0, 0, 0]
    residentContainerUpdate sha256 primary legacy slot
      [residentPublicWrite 1 c.rpIdHash.toList, residentPublicWrite 2 c.clientId,
        residentSecretWrite 3 c.credential, residentPublicWrite 4 c.publicKey,
        residentMutableWrite residentObjectMetadata metadata,
        residentMutableWrite residentObjectState metadata]

/-- `resident_container_create_imported`: with a private key and its metadata. -/
def residentContainerCreateImported (c : ResidentCredential) (privateKey metadata : Bytes) :
    FsProg TxnRam Unit :=
  if c.clientId = [] ∨ c.credential = [] ∨ c.publicKey = [] ∨ privateKey = [] ∨ metadata = [] ∨
      tooLong [c.clientId, c.credential, c.publicKey, privateKey, metadata] then
    FaultProgram.fail .nullParam
  else
    let state := [residentStatusActive, residentPropertyImported, 0, 0, 0, 0]
    residentContainerUpdate sha256 primary legacy slot
      [residentPublicWrite 1 c.rpIdHash.toList, residentPublicWrite 2 c.clientId,
        residentSecretWrite 3 c.credential, residentPublicWrite 4 c.publicKey,
        residentMutableWrite residentObjectMetadata metadata,
        residentSecretWrite residentObjectPrivateKey privateKey,
        residentMutableWrite residentObjectState state]

/-- `resident_container_read`, into a buffer of `capacity` bytes. -/
def residentContainerRead (files : Files) (objectType : UInt16) (capacity : ℕ) :
    Except Status Bytes :=
  if !residentObjectTypeValid objectType then
    .error .nullParam
  else
    match primary with
    | none => .error .execError
    | some crypto =>
      fileObjectContainerRead (residentContainerLayout sha256) slot.toUInt32 files objectType 0
        crypto legacy capacity

/-- `resident_container_read_metadata`. A credential without a state has the first one. -/
def residentContainerReadMetadata (files : Files) : Except Status FidoResidentMetadata :=
  match residentContainerRead sha256 primary legacy slot files residentObjectState
      residentMetadataSize with
  | .error .fileNotFound => .ok ⟨residentStatusActive, residentPropertyNative, 0⟩
  | .error r => .error r
  | .ok data =>
    if data.length ≠ residentMetadataSize then
      .error .wrongLength
    else if residentMetadataValid (residentMetadataDecode data) then
      .ok (residentMetadataDecode data)
    else
      .error .wrongData

/-- The check of `resident_container_update_metadata` on what the state is: a credential that is no
longer active does not change its status. -/
def residentStatusCheck (metadata : FidoResidentMetadata) :
    Except Status FidoResidentMetadata → Except Status Unit
  | .ok current =>
    if current.status ≠ residentStatusActive ∧ metadata.status ≠ current.status then
      .error .wrongData
    else
      .ok ()
  | .error .fileNotFound => .ok ()
  | .error r => .error r

/-- `resident_container_update_metadata`. -/
def residentContainerUpdateMetadata (metadata : FidoResidentMetadata) : FsProg TxnRam Unit := do
  if !residentMetadataValid metadata then
    FaultProgram.fail .nullParam
  else
    let files := (← getState).files
    liftExcept (residentStatusCheck metadata
      (residentContainerReadMetadata sha256 primary legacy slot files))
    residentContainerUpdate sha256 primary legacy slot
      [residentMutableWrite residentObjectState (residentMetadataEncode metadata)]

def residentContainerUpdateMetadataBlob (metadata : Bytes) : FsProg TxnRam Unit :=
  if metadata = [] ∨ tooLong [metadata] then
    FaultProgram.fail .nullParam
  else
    residentContainerUpdate sha256 primary legacy slot
      [residentMutableWrite residentObjectMetadata metadata]

def residentContainerUpdateCredential (credential : Bytes) : FsProg TxnRam Unit :=
  if tooLong [credential] then
    FaultProgram.fail .nullParam
  else
    residentContainerUpdate sha256 primary legacy slot [residentSecretWrite 3 credential]

def residentContainerUpdatePrivateKey (privateKey : Bytes) : FsProg TxnRam Unit :=
  if tooLong [privateKey] then
    FaultProgram.fail .nullParam
  else
    residentContainerUpdate sha256 primary legacy slot
      [residentSecretWrite residentObjectPrivateKey privateKey]

def residentContainerDelete : FsProg TxnRam Unit := do
  if !residentContainerIsMarker slot (← fileSearch (residentMarkerFid slot)) then
    FaultProgram.fail .fileNotFound
  else
    match primary with
    | none => FaultProgram.fail .execError
    | some crypto =>
      fileObjectContainerDelete (residentContainerLayout sha256) slot.toUInt32 crypto legacy

end Calls

/-! ### The files of a credential -/

/-- The files of a credential: its marker, its manifests and its records, also those under the older
numbers. -/
def residentFids (slot : UInt8) : List ℕ :=
  residentMarkerFid slot :: ([0, 1].map (residentManifestFid slot) ++ residentRecordFids slot 0 ++
    residentRecordFids slot 1 ++
    [residentObjectPrivateKey, residentObjectState].flatMap fun objectType ↦
      [residentRecordFidLegacy slot 0 objectType, residentRecordFidLegacy slot 1 objectType])

/-- The high bytes of these. -/
def residentPrefixes : List ℕ :=
  [0xcf, 0xd1, 0xd2, 0xd3, 0xd4, 0xd5, 0xd6, 0xdb, 0xe0, 0xe2, 0xd7, 0xd8, 0xd9, 0xda, 0xdc, 0xe1,
    0xe3, 0xd8, 0xdc, 0xd9, 0xdd]

section Fids

variable {slot slot' : UInt8} {fid : ℕ}

theorem mem_residentFids :
    fid ∈ residentFids slot ↔ ∃ high ∈ residentPrefixes, prefixedFid high slot = fid := by
  have heq : residentFids slot = residentPrefixes.map (prefixedFid · slot) := rfl
  rw [heq, List.mem_map]

/-- **No two slots share a file.** -/
theorem residentFids_disjoint (hne : slot ≠ slot') (hfid : fid ∈ residentFids slot) :
    fid ∉ residentFids slot' := by
  intro hfid'
  obtain ⟨high, -, rfl⟩ := mem_residentFids.mp hfid
  obtain ⟨high', -, heq⟩ := mem_residentFids.mp hfid'
  exact hne (prefixedFid_inj.mp heq).2.symm

/-- None of them is in the static table. -/
theorem not_mem_fidoFileEntries (hfid : fid ∈ residentFids slot) : fid ∉ fidoFileEntries := by
  obtain ⟨high, hhigh, rfl⟩ := mem_residentFids.mp hfid
  have hdiv : prefixedFid high slot / 256 = high := by
    have hlt := slot.toNat_lt
    rw [prefixedFid]
    omega
  have hentries : ∀ entry ∈ fidoFileEntries, entry / 256 ∉ residentPrefixes := by decide
  intro hentry
  exact hentries _ hentry (hdiv.symm ▸ hhigh)

theorem slot_of_efMeta (hfid : efMeta ∈ residentFids slot) : slot = 0x10 := by
  obtain ⟨high, -, heq⟩ := mem_residentFids.mp hfid
  have heq' : prefixedFid high slot = prefixedFid 0xe0 0x10 := heq
  exact (prefixedFid_inj.mp heq').2

theorem slot_of_efPhy (hfid : efPhy ∈ residentFids slot) : slot = 0x20 := by
  obtain ⟨high, -, heq⟩ := mem_residentFids.mp hfid
  have heq' : prefixedFid high slot = prefixedFid 0xe0 0x20 := heq
  exact (prefixedFid_inj.mp heq').2

theorem marker_mem_residentFids : residentMarkerFid slot ∈ residentFids slot :=
  List.mem_cons_self ..

theorem manifest_mem_residentFids (manifestSlot : Fin 2) :
    residentManifestFid slot manifestSlot ∈ residentFids slot := by
  have hmem : manifestSlot ∈ ([0, 1] : List (Fin 2)) := by
    have hall : ∀ i : Fin 2, i ∈ ([0, 1] : List (Fin 2)) := by decide
    exact hall manifestSlot
  exact List.mem_cons_of_mem _ (List.mem_append_left _ (List.mem_append_left _
    (List.mem_append_left _ (List.mem_map_of_mem hmem))))

theorem recordFids_subset_residentFids {manifestSlot : Fin 2}
    (hfid : fid ∈ residentRecordFids slot manifestSlot) : fid ∈ residentFids slot := by
  refine List.mem_cons_of_mem _ (List.mem_append_left _ ?_)
  have hcases : ∀ i : Fin 2, i = 0 ∨ i = 1 := by decide
  obtain rfl | rfl := hcases manifestSlot
  · exact List.mem_append_left _ (List.mem_append_right _ hfid)
  · exact List.mem_append_right _ hfid

/-- A record that a manifest may name is one of the credential's files. -/
theorem mem_residentFids_of_valid {object : FileObjectDescriptor}
    (hvalid : residentRecordIdValid slot object = true) :
    object.recordId.toNat ∈ residentFids slot := by
  simp only [residentRecordIdValid, Bool.and_eq_true, Bool.or_eq_true, beq_iff_eq] at hvalid
  obtain ⟨⟨htype, -⟩, (h | h) | ⟨hkind, h⟩⟩ := hvalid
  · rw [h]
    exact recordFids_subset_residentFids (List.mem_map_of_mem (mem_residentTypes htype))
  · rw [h]
    exact recordFids_subset_residentFids (List.mem_map_of_mem (mem_residentTypes htype))
  · refine List.mem_cons_of_mem _ (List.mem_append_right _ ?_)
    refine List.mem_flatMap.mpr ⟨object.objectType, ?_, ?_⟩
    · simpa using hkind
    · simpa using h

end Fids

end PicoAll
