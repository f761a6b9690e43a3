import PicoAll.Fs.ObjectContainer

/-!
# The container store

`object_container_store.c`: a container is a set of records and two manifest *slots*. A manifest
counts if it parses, belongs to the container and finds, for each of its objects, a record with the
right framing; the one of the greater generation is current. An update writes the records of the new
objects, builds the next manifest from the current one and writes it to the other slot; then the
application's layout may retire what the new manifest no longer names.

Which files a container uses is up to its *layout*, a record of callbacks that the applications
supply. A callback that the source leaves `NULL` is the one that does nothing or accepts everything.
Loading and reading are functions of the files; the calls that write are programs. `flash_commit`
only asks for a flush and has no effect on the files.
-/

namespace PicoAll

open FaultProgram BigEndian

/-- `file_object_container_write_t`: an object to be written. -/
structure FileObjectContainerWrite where
  objectType : UInt16
  objectTag : UInt16
  data : Bytes
  policyId : UInt16
  keyDomain : UInt8
  protection : UInt8
  flags : UInt16
  transactionGroup : UInt16
  deriving DecidableEq, Repr

/-- What a container identifies the written object by. -/
def FileObjectContainerWrite.key (write : FileObjectContainerWrite) : UInt16 × UInt16 :=
  (write.objectType, write.objectTag)

/-- `file_object_container_crypto_t`. -/
structure FileObjectContainerCrypto where
  auth : FileObjectAuthenticator
  protector : FileObjectRecordProtector

/-- `file_object_container_state_t`. A candidate that is not valid is `none`. -/
structure FileObjectContainerState where
  candidates : Fin 2 → Option FileObjectManifest
  crypto : FileObjectContainerCrypto
  /-- `current_slot`, and the manifest there. -/
  current : Fin 2 × FileObjectManifest

/-- `file_object_container_layout_t`. -/
structure FileObjectContainerLayout where
  namespaceId : UInt16
  containerKind : UInt16
  manifestFid : UInt32 → Fin 2 → ℕ
  recordFid : UInt32 → FileObjectDescriptor → Except Status ℕ
  /-- `record_allocate`: a record id and a file for an object about to be written. -/
  recordAllocate : UInt32 → Fin 2 → FileObjectContainerWrite → FileObjectAuthenticator →
    FsProg TxnRam (UInt64 × ℕ)
  policyHash : UInt16 → Except Status Bytes
  writeValid : FileObjectContainerWrite → Bool
  descriptorValid : UInt32 → FileObjectDescriptor → Bool
  activate : UInt32 → FsProg TxnRam Unit
  deactivate : UInt32 → FsProg TxnRam Unit
  /-- `retire`: of the candidates there were, with the next manifest in the target slot. -/
  retire : UInt32 → (Fin 2 → Option FileObjectManifest) → FileObjectManifest → Option (Fin 2) →
    Fin 2 → FsProg TxnRam Unit
  rollbackNewRecords : Bool

def fileObjectContainerLayoutValid (layout : FileObjectContainerLayout) : Bool :=
  layout.namespaceId != 0 && layout.containerKind != 0

/-! ### Loading -/

section Load

variable (layout : FileObjectContainerLayout) (containerId : UInt32) (files : Files)

/-- The check of `file_object_container_parse_slot` on one object: its record is there. -/
def containerCheckObject (object : FileObjectDescriptor) : Except Status Unit := do
  if !layout.descriptorValid containerId object then
    throw .wrongData
  let recordFid ← layout.recordFid containerId object
  match files recordFid with
  | none => throw .wrongData
  | some record =>
    if !fileHasData (some record) then
      throw .wrongData
    match fileObjectRecordHeaderParse record object with
    | .error _ => throw .wrongData
    | .ok _ => return

/-- The manifest of a slot, if it is valid and all its records are there. -/
def fileObjectContainerParseSlot (slot : Fin 2) (auth : FileObjectAuthenticator) :
    Except Status FileObjectManifest :=
  match files (layout.manifestFid containerId slot) with
  | none => .error .fileNotFound
  | some data => do
    if !fileHasData (some data) then
      throw .fileNotFound
    let manifest ← fileObjectManifestParse data auth
    if manifest.namespaceId ≠ layout.namespaceId ∨ manifest.containerKind ≠ layout.containerKind ∨
        manifest.containerId ≠ containerId ∨ manifest.objects = [] then
      throw .wrongData
    manifest.objects.forM (containerCheckObject layout containerId files)
    return manifest

/-- What a slot contributes to a load: an invalid slot does not take part. -/
def containerCandidate (slot : Fin 2) (auth : FileObjectAuthenticator) :
    Except Status (Option FileObjectManifest) :=
  match fileObjectContainerParseSlot layout containerId files slot auth with
  | .ok manifest => .ok (some manifest)
  | .error .fileNotFound => .ok none
  | .error .wrongData => .ok none
  | .error .wrongSignature => .ok none
  | .error r => .error r

/-- `file_object_container_load_with_crypto`, its loop over the two slots written out. -/
def fileObjectContainerLoadWithCrypto (crypto : FileObjectContainerCrypto) :
    Except Status FileObjectContainerState := do
  let storagePresent := fileHasData (files (layout.manifestFid containerId 0)) ||
    fileHasData (files (layout.manifestFid containerId 1))
  let first ← containerCandidate layout containerId files 0 crypto.auth
  let second ← containerCandidate layout containerId files 1 crypto.auth
  let candidates := fun slot : Fin 2 ↦ if slot = 0 then first else second
  match first, second with
  | none, none => throw (if storagePresent then .wrongData else .fileNotFound)
  | some manifest, none => return ⟨candidates, crypto, 0, manifest⟩
  | none, some manifest => return ⟨candidates, crypto, 1, manifest⟩
  | some a, some b =>
    if a.generation = b.generation then
      throw .wrongData
    else if b.generation > a.generation then
      return ⟨candidates, crypto, 1, b⟩
    else
      return ⟨candidates, crypto, 0, a⟩

/-- `file_object_container_load`. The legacy keys are tried when the primary ones find something
they cannot read. -/
def fileObjectContainerLoad (primary : FileObjectContainerCrypto)
    (legacy : Option FileObjectContainerCrypto) : Except Status FileObjectContainerState :=
  if !fileObjectContainerLayoutValid layout then
    .error .nullParam
  else
    match fileObjectContainerLoadWithCrypto layout containerId files primary with
    | .ok state => .ok state
    | .error .fileNotFound => .error .fileNotFound
    | .error r =>
      match legacy with
      | none => .error r
      | some legacy =>
        match fileObjectContainerLoadWithCrypto layout containerId files legacy with
        | .ok state => .ok state
        | .error _ => .error r

def fileObjectContainerFind (manifest : FileObjectManifest) (objectType objectTag : UInt16) :
    Option FileObjectDescriptor :=
  manifest.objects.find? (·.key == (objectType, objectTag))

def fileObjectContainerReferences (manifest : FileObjectManifest) (recordId : UInt64) : Bool :=
  manifest.objects.any (·.recordId == recordId)

/-- The record of an object, opened. -/
def fileObjectContainerUnseal (manifest : FileObjectManifest) (object : FileObjectDescriptor)
    (protector : FileObjectRecordProtector) (capacity : ℕ) : Except Status Bytes := do
  let policyHash ← layout.policyHash object.policyId
  let recordFid ← layout.recordFid containerId object
  match files recordFid with
  | none => throw .fileNotFound
  | some record =>
    if !fileHasData (some record) then
      throw .fileNotFound
    fileObjectRecordUnseal manifest object policyHash protector record capacity

def fileObjectContainerValidate (manifest : FileObjectManifest)
    (protector : FileObjectRecordProtector) : Except Status Unit :=
  manifest.objects.forM fun object ↦ do
    let plaintext ← fileObjectContainerUnseal layout containerId files manifest object protector
      object.logicalSize.toNat
    if plaintext.length ≠ object.logicalSize.toNat then
      throw .wrongLength

/-- `file_object_container_select_valid`: the slot to go on from, the other one if the current one
does not validate and the other one does. -/
def fileObjectContainerSelectValid (state : FileObjectContainerState) :
    Except Status FileObjectContainerState :=
  match fileObjectContainerValidate layout containerId files state.current.2
      state.crypto.protector with
  | .ok _ => .ok state
  | .error r =>
    match state.candidates state.current.1.rev with
    | none => .error r
    | some previous =>
      match fileObjectContainerValidate layout containerId files previous
          state.crypto.protector with
      | .ok _ => .ok { state with current := (state.current.1.rev, previous) }
      | .error _ => .error r

/-- `file_object_container_read`, into a buffer with room for `capacity` bytes: from the current
manifest's record, or from the other slot's if that fails. -/
def fileObjectContainerRead (objectType objectTag : UInt16) (primary : FileObjectContainerCrypto)
    (legacy : Option FileObjectContainerCrypto) (capacity : ℕ) : Except Status Bytes := do
  let state ← fileObjectContainerLoad layout containerId files primary legacy
  match fileObjectContainerFind state.current.2 objectType objectTag with
  | none => throw .fileNotFound
  | some object =>
    match fileObjectContainerUnseal layout containerId files state.current.2 object
        state.crypto.protector capacity with
    | .ok data => return data
    | .error r =>
      match state.candidates state.current.1.rev with
      | none => throw r
      | some previous =>
        match fileObjectContainerFind previous objectType objectTag with
        | none => throw r
        | some object =>
          fileObjectContainerUnseal layout containerId files previous object state.crypto.protector
            capacity

end Load

/-! ### Writing files -/

/-- What `file_delete_no_commit` does in the namespace of the containers. -/
class FileDeletion where
  /-- `file_delete_no_commit`, of a file that is there. -/
  fileDelete : ℕ → FsProg TxnRam Unit

/-- Nothing has metadata, and no container file is in the application's static table: the file
disappears. -/
instance plainDeletion : FileDeletion :=
  ⟨fileDeleteNoCommit fun _ ↦ false⟩

/-- `file_delete_no_commit` of a file of a container. -/
def fileDeleteDynamic [FileDeletion] (fid : ℕ) : FsProg TxnRam Unit :=
  FileDeletion.fileDelete fid

/-- A deletion whose result the source ignores, of a file if it is there. -/
def fileDeleteQuietly [FileDeletion] (fid : ℕ) : FsProg TxnRam Unit := do
  match ← fileSearch fid with
  | none => return
  | some _ => onError (fileDeleteDynamic fid) fun _ ↦ pure ()

/-- A file is deleted if it is there. -/
def fileDeletePresent [FileDeletion] (fid : ℕ) : FsProg TxnRam Unit := do
  match ← fileSearch fid with
  | none => return
  | some _ => fileDeleteDynamic fid

def fileObjectContainerReplaceFile [FileDeletion] (fid : ℕ) (data : Bytes) :
    FsProg TxnRam Unit := do
  fileDeletePresent fid
  fileNew fid
  filePutData fid data

/-- A program for each element of a list, in order. -/
def forEach {α : Type} (f : α → FsProg TxnRam Unit) : List α → FsProg TxnRam Unit
  | [] => pure ()
  | a :: rest => do
    f a
    forEach f rest

/-! ### Updating -/

/-- The order of `file_object_container_descriptor_compare`, as `qsort` uses it. -/
def keyLe (a b : FileObjectDescriptor) : Prop :=
  keyLt b.key a.key = false

instance : DecidableRel keyLe :=
  fun _ _ ↦ inferInstanceAs (Decidable (_ = _))

/-- Replace the object of the same key, or add the object at the end. -/
def placeObject (object : FileObjectDescriptor) : List FileObjectDescriptor →
    List FileObjectDescriptor
  | [] => [object]
  | found :: rest =>
    if found.key = object.key then object :: rest else found :: placeObject object rest

/-- The descriptor of a written object. -/
def FileObjectContainerWrite.descriptor (write : FileObjectContainerWrite) (generation : UInt32)
    (recordId : UInt64) : FileObjectDescriptor where
  objectType := write.objectType
  objectTag := write.objectTag
  generation := generation
  logicalSize := .ofNat write.data.length
  recordId := recordId
  storedSize := .ofNat write.data.length
  policyId := write.policyId
  keyDomain := write.keyDomain
  protection := write.protection
  flags := write.flags
  extensionOffset := 0
  extensionSize := 0
  transactionGroup := write.transactionGroup

section Update

variable (layout : FileObjectContainerLayout) (containerId : UInt32)

/-- The record of a write, under a record id that is allocated for it. -/
def fileObjectContainerWriteRecord [FileDeletion] (targetSlot : Fin 2)
    (write : FileObjectContainerWrite) (objectGeneration : UInt32) (next : FileObjectManifest)
    (crypto : FileObjectContainerCrypto) :
    FsProg TxnRam (FileObjectDescriptor × ℕ) := do
  let (recordId, recordFid) ← layout.recordAllocate containerId targetSlot write crypto.auth
  let descriptor := write.descriptor objectGeneration recordId
  let policyHash ← liftExcept (layout.policyHash write.policyId)
  if write.data.length > UINT32_MAX - recordHeaderSize - authTagSize then
    FaultProgram.fail .wrongLength
  let record ← liftExcept (fileObjectRecordSeal next descriptor policyHash crypto.protector
    write.data)
  fileObjectContainerReplaceFile recordFid record
  return (descriptor, recordFid)

/-- `file_object_container_rollback`, on the layouts that want it, before an error is returned. -/
def containerAbort [FileDeletion] {α : Type} (newRecordFids : List ℕ) (r : Status) :
    FsProg TxnRam α := do
  if layout.rollbackNewRecords then
    forEach fileDeleteQuietly newRecordFids
  FaultProgram.fail r

/-- Whether a write is refused: by its own fields, by the layout, or because an earlier write of the
same call has its key. -/
def containerWriteRefused (earlier : List FileObjectContainerWrite)
    (write : FileObjectContainerWrite) : Bool :=
  write.objectType == 0 || write.objectType == 0xffff || (write.flags &&& flagInline) != 0 ||
    !layout.writeValid write || earlier.any (·.key == write.key)

/-- The generation a written object gets. -/
def nextObjectGeneration (found : Option FileObjectDescriptor) : UInt32 :=
  match found with
  | some object => object.generation + 1
  | none => 1

/-- The loop of `file_object_container_update_internal` over the writes: the manifest under
construction and the record files written so far. -/
def containerWriteRecords [FileDeletion] (targetSlot : Fin 2) (crypto : FileObjectContainerCrypto)
    (earlier : List FileObjectContainerWrite) : List FileObjectContainerWrite →
    FileObjectManifest → List ℕ → FsProg TxnRam (FileObjectManifest × List ℕ)
  | [], next, newRecordFids => pure (next, newRecordFids)
  | write :: writes, next, newRecordFids => do
    let found := fileObjectContainerFind next write.objectType write.objectTag
    if containerWriteRefused layout earlier write || found.any (·.generation == 0xffffffff) then
      containerAbort layout newRecordFids .wrongData
    let (replacement, recordFid) ← onError
      (fileObjectContainerWriteRecord layout containerId targetSlot write
        (nextObjectGeneration found) next crypto)
      (containerAbort layout newRecordFids)
    if found.isNone && decide (manifestMaxObjects ≤ next.objects.length) then
      containerAbort layout (newRecordFids ++ [recordFid]) .noMemory
    containerWriteRecords targetSlot crypto (earlier ++ [write]) writes
      { next with objects := placeObject replacement next.objects } (newRecordFids ++ [recordFid])

/-- The manifest an update starts from: the current one under the next generation, or that of a new
container. -/
def containerNextManifest (current : Option FileObjectManifest) :
    Except Status FileObjectManifest :=
  match current with
  | none => .ok ⟨0, layout.namespaceId, layout.containerKind, containerId, 1, 0, 0, []⟩
  | some manifest =>
    if manifest.generation = 0xffffffff ∨ manifest.extensionSize ≠ 0 ∨
        manifest.objects.any (·.extensionSize != 0) then
      .error .wrongData
    else
      .ok { manifest with
        previousGeneration := manifest.generation
        generation := manifest.generation + 1 }

/-- The slot after the current one. -/
def containerTargetSlot (current : Option (Fin 2)) : Fin 2 :=
  match current with
  | none => 0
  | some slot => slot.rev

/-- The state an update goes on from: none if the container does not exist yet, else what is loaded,
validated if asked for. -/
def containerUpdateState (files : Files) (primary : FileObjectContainerCrypto)
    (legacy : Option FileObjectContainerCrypto) (validateRecords : Bool) :
    Except Status (Option FileObjectContainerState) :=
  match fileObjectContainerLoad layout containerId files primary legacy with
  | .error .fileNotFound => .ok none
  | .error r => .error r
  | .ok state =>
    if validateRecords then
      match fileObjectContainerSelectValid layout containerId files state with
      | .ok state => .ok (some state)
      | .error r => .error r
    else
      .ok (some state)

/-- `file_object_container_update_internal`: the records, then the manifest of the other slot, which
commits them. -/
def fileObjectContainerUpdateInternal [FileDeletion] (writes : List FileObjectContainerWrite)
    (primary : FileObjectContainerCrypto) (legacy : Option FileObjectContainerCrypto)
    (validateRecords : Bool) : FsProg TxnRam Unit := do
  if !fileObjectContainerLayoutValid layout || writes.isEmpty ||
      decide (manifestMaxObjects < writes.length) then
    FaultProgram.fail .nullParam
  let state ← liftExcept (containerUpdateState layout containerId (← getState).files primary legacy
    validateRecords)
  let crypto := (state.map (·.crypto)).getD primary
  let currentSlot := state.map (·.current.1)
  let targetSlot := containerTargetSlot currentSlot
  let base ← liftExcept (containerNextManifest layout containerId (state.map (·.current.2)))
  let (unsorted, newRecordFids) ← containerWriteRecords layout containerId targetSlot crypto []
    writes base []
  let next := { unsorted with objects := unsorted.objects.insertionSort keyLe }
  onError (do
      let manifest ← liftExcept (fileObjectManifestBuild next [] crypto.auth)
      fileObjectContainerReplaceFile (layout.manifestFid containerId targetSlot) manifest)
    (containerAbort layout newRecordFids)
  layout.activate containerId
  layout.retire containerId (fun slot ↦ state.bind (·.candidates slot)) next currentSlot targetSlot

def fileObjectContainerUpdateWithoutRecordValidation [FileDeletion]
    (writes : List FileObjectContainerWrite) (primary : FileObjectContainerCrypto)
      (legacy : Option FileObjectContainerCrypto) :
    FsProg TxnRam Unit :=
  fileObjectContainerUpdateInternal layout containerId writes primary legacy false

/-! ### Removing -/

/-- The manifest without one object. -/
def containerRemoveObject (manifest : FileObjectManifest) (objectType objectTag : UInt16) :
    Except Status FileObjectManifest :=
  match fileObjectContainerFind manifest objectType objectTag with
  | none => .error .fileNotFound
  | some found =>
    if manifest.generation = 0xffffffff ∨ manifest.objects.length ≤ 1 ∨
        manifest.extensionSize ≠ 0 ∨ found.extensionSize ≠ 0 then
      .error .wrongData
    else
      .ok { manifest with
        previousGeneration := manifest.generation
        generation := manifest.generation + 1
        objects := manifest.objects.erase found }

/-- `file_object_container_remove`: a manifest without the object. -/
def fileObjectContainerRemove [FileDeletion] (objectType objectTag : UInt16)
    (primary : FileObjectContainerCrypto) (legacy : Option FileObjectContainerCrypto)
      : FsProg TxnRam Unit := do
  if !fileObjectContainerLayoutValid layout then
    FaultProgram.fail .nullParam
  let files := (← getState).files
  let loaded ← liftExcept (fileObjectContainerLoad layout containerId files primary legacy)
  let state ← liftExcept (fileObjectContainerSelectValid layout containerId files loaded)
  let (currentSlot, current) := state.current
  let next ← liftExcept (containerRemoveObject current objectType objectTag)
  let targetSlot := currentSlot.rev
  let manifest ← liftExcept (fileObjectManifestBuild next [] state.crypto.auth)
  fileObjectContainerReplaceFile (layout.manifestFid containerId targetSlot) manifest
  layout.retire containerId state.candidates next (some currentSlot) targetSlot

/-- The loop of `file_object_container_delete`, for one slot: the records of its manifest, then the
manifest. -/
def containerDeleteSlot [FileDeletion] (state : FileObjectContainerState) (slot : Fin 2) :
    FsProg TxnRam Unit := do
  match state.candidates slot with
  | none => pure ()
  | some manifest =>
    forEach (fun object ↦ do
      let recordFid ← liftExcept (layout.recordFid containerId object)
      fileDeletePresent recordFid) manifest.objects
  fileDeletePresent (layout.manifestFid containerId slot)

/-- `file_object_container_delete`: the manifests and the records of both slots. -/
def fileObjectContainerDelete [FileDeletion] (primary : FileObjectContainerCrypto)
    (legacy : Option FileObjectContainerCrypto) : FsProg TxnRam Unit := do
  if !fileObjectContainerLayoutValid layout then
    FaultProgram.fail .nullParam
  let state ← liftExcept (fileObjectContainerLoad layout containerId (← getState).files primary
    legacy)
  containerDeleteSlot layout containerId state 0
  containerDeleteSlot layout containerId state 1
  layout.deactivate containerId

end Update

end PicoAll
