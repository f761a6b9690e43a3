import PicoAll.Fs.FileApi

/-!
# The transactional object store

`object_store_txn.c`: an object lives in four private files, two *slots* of a record and a commit.
The record carries the payload under a header and a MAC, the commit names a record by slot,
generation and MAC and is itself authenticated. A put or a delete builds a new version in the slot
that is not current and makes it current by writing that slot's commit last; opening an object takes
the valid commit of the greatest generation.

The MAC is a parameter: the tag of a streamed input is a function of the concatenation of what was
streamed. A failing MAC primitive is an operation of its own that reports `PICOKEYS_EXEC_ERROR`
before anything is written (`authenticated`), which is where every one of the code's MAC calls
can stop.
-/

namespace PicoAll

open FaultProgram BigEndian

/-- A MAC provider: 16-byte tags of byte strings. -/
structure FileObjectAuthenticator where
  /-- The tag of a streamed input. -/
  tag : Bytes → Bytes
  /-- Tags are `FILE_OBJECT_AUTH_TAG_SIZE` bytes long. -/
  length_tag : ∀ input, (tag input).length = 16

/-- `file_object_txn_layout_t`: the identity of an object and its four files. -/
structure FileObjectTxnLayout where
  namespaceId : ℕ
  objectType : ℕ
  objectId : ℕ
  /-- `record_fid`, by slot. -/
  recordFid : Fin 2 → ℕ
  /-- `commit_fid`, by slot. -/
  commitFid : Fin 2 → ℕ
  namespaceId_lt : namespaceId < 256 ^ 2
  objectType_lt : objectType < 256 ^ 2
  objectId_lt : objectId < 256 ^ 4
  recordFid_lt : ∀ slot, recordFid slot < 256 ^ 2
  commitFid_lt : ∀ slot, commitFid slot < 256 ^ 2

/-- `file_object_txn_state_t`: what a commit says about the version it names. -/
structure FileObjectTxnState where
  generation : ℕ
  recordId : ℕ
  payloadSize : ℕ
  commitSlot : Fin 2
  /-- `record_slot`: a byte, `UINT8_MAX` for a deletion. -/
  recordSlot : ℕ
  deleted : Bool
  deriving DecidableEq, Repr

/-! ### Record and commit formats -/

/-- `"PKR2"`. -/
abbrev txnRecordMagic : ℕ := 0x504b5232

/-- `"PKC2"`. -/
abbrev txnCommitMagic : ℕ := 0x504b4332

/-- `FILE_OBJECT_TXN_RECORD_HEADER_SIZE`. -/
abbrev txnRecordHeaderSize : ℕ := 32

/-- `FILE_OBJECT_TXN_COMMIT_HEADER_SIZE`. -/
abbrev txnCommitHeaderSize : ℕ := 48

/-- `FILE_OBJECT_AUTH_TAG_SIZE`. -/
abbrev authTagSize : ℕ := 16

variable (layout : FileObjectTxnLayout) (auth : FileObjectAuthenticator) (slot : Fin 2)

/-- The header of a record: magic, version, header size, slot, reserved byte, namespace, type,
object id, generation, record id, payload size, record file id and two reserved bytes. -/
def txnRecordFields (generation recordId payloadSize : ℕ) : Fields :=
  [(4, txnRecordMagic), (1, 1), (1, txnRecordHeaderSize), (1, slot), (1, 0),
    (2, layout.namespaceId), (2, layout.objectType), (4, layout.objectId), (4, generation),
    (4, recordId), (4, payloadSize), (2, layout.recordFid slot), (2, 0)]

/-- The header of a commit up to the record tag: magic, version, header size, slot, marker,
namespace, type, object id, generation, record id, record file id, record slot, flags, payload
size. -/
def txnCommitFields (commitSlot : Fin 2)
    (generation recordId recordFid recordSlot flags payloadSize : ℕ) : Fields :=
  [(4, txnCommitMagic), (1, 1), (1, txnCommitHeaderSize), (1, commitSlot), (1, 0x7f),
    (2, layout.namespaceId), (2, layout.objectType), (4, layout.objectId), (4, generation),
    (4, recordId), (2, recordFid), (1, recordSlot), (1, flags), (4, payloadSize)]

/-- `file_object_txn_layout_valid`: four distinct dynamic file ids. -/
def fileObjectTxnLayoutValid (static : ℕ → Bool) (layout : FileObjectTxnLayout) : Bool :=
  let fids := [layout.recordFid 0, layout.recordFid 1, layout.commitFid 0, layout.commitFid 1]
  fids.all (fun fid ↦ fid != 0 && fid != UINT16_MAX && !static fid) && decide fids.Nodup

/-- The header checks of `file_object_txn_validate_record`. -/
def txnRecordHeaderOk (generation recordId payloadSize : ℕ) (header : Bytes) : Bool :=
  beField header 0 4 == txnRecordMagic && beField header 4 1 == 1 &&
    beField header 5 1 == txnRecordHeaderSize && beField header 6 1 == slot &&
    beField header 7 1 == 0 && beField header 8 2 == layout.namespaceId &&
    beField header 10 2 == layout.objectType && beField header 12 4 == layout.objectId &&
    beField header 16 4 == generation && beField header 20 4 == recordId &&
    beField header 24 4 == payloadSize && beField header 28 2 == layout.recordFid slot &&
    beField header 30 2 == 0

/-- A slot number that is not too large. -/
theorem txnSlot_lt {slot : ℕ} (h : ¬ slot > 1) : slot < 2 := by
  omega

/-- `file_object_txn_validate_record`. The payload is streamed to the MAC after the header. -/
def fileObjectTxnValidateRecord (files : Files) (slot generation recordId payloadSize : ℕ)
    (commitRecordTag : Bytes) :
    Except Status Unit :=
  if h : slot > 1 then
    .error .wrongData
  else
    let slot : Fin 2 := ⟨slot, txnSlot_lt h⟩
    match files (layout.recordFid slot) with
    | none => .error .fileNotFound
    | some file =>
      let header := file.take txnRecordHeaderSize
      let calculatedTag :=
        auth.tag (header ++ (file.drop txnRecordHeaderSize).take payloadSize)
      let storedTag := (file.drop (txnRecordHeaderSize + payloadSize)).take authTagSize
      if !fileHasData (some file) then
        .error .fileNotFound
      else if payloadSize > UINT32_MAX - txnRecordHeaderSize - authTagSize ∨
          file.length ≠ txnRecordHeaderSize + payloadSize + authTagSize then
        .error .wrongData
      else if !txnRecordHeaderOk layout slot generation recordId payloadSize header then
        .error .wrongData
      else if calculatedTag ≠ storedTag ∨ calculatedTag ≠ commitRecordTag then
        .error .wrongSignature
      else
        .ok ()

/-- The last check of `file_object_txn_parse_commit` before it turns to the record: a deletion names
no record, anything else names a record of this object. -/
def txnCommitReference (generation recordId recordFid recordSlot flags payloadSize : ℕ)
    (recordTag : Bytes) :
    Except Status (FileObjectTxnState × Bytes) :=
  if flags = 1 then
    if recordId ≠ 0 ∨ payloadSize ≠ 0 ∨ recordFid ≠ 0 ∨ recordSlot ≠ 0xff ∨
        recordTag ≠ List.replicate authTagSize 0 then
      .error .wrongData
    else
      .ok (⟨generation, recordId, payloadSize, slot, recordSlot, true⟩, recordTag)
  else if h : recordSlot > 1 then
    .error .wrongData
  else if recordFid ≠ layout.recordFid ⟨recordSlot, txnSlot_lt h⟩ ∨ recordId = 0 then
    .error .wrongData
  else
    .ok (⟨generation, recordId, payloadSize, slot, recordSlot, false⟩, recordTag)

/-- What `file_object_txn_parse_commit` checks on the commit file alone: its format, its tag, and
that it names what it should. Gives the state and the tag of the record. -/
def txnCommitState (file : Option Bytes) : Except Status (FileObjectTxnState × Bytes) :=
  match file with
  | none => .error .fileNotFound
  | some commit =>
    let header := commit.take txnCommitHeaderSize
    let generation := beField commit 16 4
    let recordId := beField commit 20 4
    let recordFid := beField commit 24 2
    let recordSlot := beField commit 26 1
    let flags := beField commit 27 1
    let payloadSize := beField commit 28 4
    let recordTag := (commit.drop 32).take authTagSize
    if !fileHasData (some commit) then
      .error .fileNotFound
    else if commit.length ≠ txnCommitHeaderSize + authTagSize then
      .error .wrongData
    else if beField commit 0 4 ≠ txnCommitMagic ∨ beField commit 4 1 ≠ 1 ∨
        beField commit 5 1 ≠ txnCommitHeaderSize ∨ beField commit 6 1 ≠ slot ∨
        beField commit 7 1 ≠ 0x7f ∨ beField commit 8 2 ≠ layout.namespaceId ∨
        beField commit 10 2 ≠ layout.objectType ∨ beField commit 12 4 ≠ layout.objectId ∨
        generation = 0 ∨ flags > 1 then
      .error .wrongData
    else if auth.tag header ≠ commit.drop txnCommitHeaderSize then
      .error .wrongSignature
    else
      txnCommitReference layout slot generation recordId recordFid recordSlot flags payloadSize
        recordTag

/-- `file_object_txn_parse_commit`: a commit counts only if the record it names is intact. -/
def fileObjectTxnParseCommit (files : Files) (slot : Fin 2) : Except Status FileObjectTxnState := do
  let (state, recordTag) ← txnCommitState layout auth slot (files (layout.commitFid slot))
  if !state.deleted then
    fileObjectTxnValidateRecord layout auth files state.recordSlot state.generation state.recordId
      state.payloadSize recordTag
  return state

def fileObjectTxnInvalidRecord (status : Status) : Bool :=
  status == .fileNotFound || status == .wrongData || status == .wrongSignature

/-- One turn of the loop of `file_object_txn_recover`. -/
def txnRecoverSlot (files : Files) (selected : Option FileObjectTxnState) (slot : Fin 2) :
    Except Status (Option FileObjectTxnState) :=
  match fileObjectTxnParseCommit layout auth files slot with
  | .error r => if fileObjectTxnInvalidRecord r then .ok selected else .error r
  | .ok candidate =>
    match selected with
    | none => .ok (some candidate)
    | some current =>
      if candidate.generation = current.generation then .error .wrongData
      else if candidate.generation > current.generation then .ok (some candidate)
      else .ok (some current)

/-- `file_object_txn_recover`: the valid commit of the greatest generation. -/
def fileObjectTxnRecover (files : Files) : Except Status FileObjectTxnState := do
  match ← [0, 1].foldlM (txnRecoverSlot layout auth files) none with
  | none => .error .fileNotFound
  | some selected => .ok selected

/-! ### Writing a version -/

section Programs

variable {ρ : Type} (static : ℕ → Bool) (layout : FileObjectTxnLayout)
  (auth : FileObjectAuthenticator)

/-- A computation that goes through the MAC primitive, which may report an error of its own. -/
def authenticated {α : Type} (x : Except Status α) : FsProg ρ α := do
  perform .execError id
  liftExcept x

def fileObjectTxnRemoveFile (fid : ℕ) : FsProg ρ Unit := do
  match ← fileSearch fid with
  | none => return
  | some _ =>
    if static fid then
      FaultProgram.fail .wrongData
    else
      fileDeleteNoCommit static fid

def fileObjectTxnReplaceFile (fid : ℕ) (data : Bytes) : FsProg ρ Unit := do
  fileObjectTxnRemoveFile static fid
  fileNew fid
  filePutData fid data

/-- The record file of a version. -/
def txnRecordContent (slot : Fin 2) (generation recordId : ℕ) (data : Bytes) : Bytes :=
  let header := (txnRecordFields layout slot generation recordId data.length).encode
  header ++ data ++ auth.tag (header ++ data)

/-- The commit file of a version, or of a deletion. -/
def txnCommitContent (commitSlot : Fin 2) (generation recordId recordFid recordSlot flags
    payloadSize : ℕ) (recordTag : Bytes) : Bytes :=
  let header := (txnCommitFields layout commitSlot generation recordId recordFid recordSlot flags
    payloadSize).encode ++ recordTag
  header ++ auth.tag header

/-- `file_object_txn_write_record`; gives the tag of the record. -/
def fileObjectTxnWriteRecord (slot : Fin 2) (generation recordId : ℕ) (data : Bytes) :
    FsProg ρ Bytes := do
  if data.length > UINT32_MAX - txnRecordHeaderSize - authTagSize then
    FaultProgram.fail .noMemory
  let header := (txnRecordFields layout slot generation recordId data.length).encode
  let recordTag ← authenticated (.ok (auth.tag (header ++ data)))
  fileObjectTxnReplaceFile static (layout.recordFid slot)
    (txnRecordContent layout auth slot generation recordId data)
  return recordTag

/-- `file_object_txn_write_commit` for a version. -/
def fileObjectTxnWriteCommit (commitSlot recordSlot : Fin 2) (generation recordId payloadSize : ℕ)
    (recordTag : Bytes) : FsProg ρ Unit := do
  let commit ← authenticated (.ok (txnCommitContent layout auth commitSlot generation recordId
    (layout.recordFid recordSlot) recordSlot 0 payloadSize recordTag))
  fileObjectTxnReplaceFile static (layout.commitFid commitSlot) commit

/-- `file_object_txn_write_commit` for a deletion. -/
def fileObjectTxnWriteDeletion (commitSlot : Fin 2) (generation : ℕ) : FsProg ρ Unit := do
  let commit ← authenticated (.ok (txnCommitContent layout auth commitSlot generation 0 0 0xff 1 0
    (List.replicate authTagSize 0)))
  fileObjectTxnReplaceFile static (layout.commitFid commitSlot) commit

/-- `file_object_txn_next_state`: the slot a new version goes to, and its generation. -/
def fileObjectTxnNextState (files : Files) : Except Status (Fin 2 × ℕ) :=
  match fileObjectTxnRecover layout auth files with
  | .error .fileNotFound => .ok (0, 1)
  | .error r => .error r
  | .ok current =>
    if current.generation = UINT32_MAX then .error .wrongData
    else .ok (current.commitSlot.rev, current.generation + 1)

/-- `file_object_txn_put`: the slot that is not committed is rewritten. -/
def fileObjectTxnPut (data : Bytes) : FsProg ρ Unit := do
  if !fileObjectTxnLayoutValid static layout then
    FaultProgram.fail .nullParam
  if data.length > UINT32_MAX then
    FaultProgram.fail .wrongLength
  let (targetSlot, generation) ←
    authenticated (fileObjectTxnNextState layout auth (← getState).files)
  fileObjectTxnRemoveFile static (layout.commitFid targetSlot)
  fileObjectTxnRemoveFile static (layout.recordFid targetSlot)
  let recordTag ← fileObjectTxnWriteRecord static layout auth targetSlot generation generation data
  flashCommitSync
  fileObjectTxnWriteCommit static layout auth targetSlot targetSlot generation generation
    data.length recordTag
  flashCommitSync

/-- `file_object_txn_delete`: a tombstone is committed in the slot that is not. -/
def fileObjectTxnDelete : FsProg ρ Unit := do
  if !fileObjectTxnLayoutValid static layout then
    FaultProgram.fail .nullParam
  let current ← authenticated (fileObjectTxnRecover layout auth (← getState).files)
  if current.deleted then
    FaultProgram.fail .fileNotFound
  if current.generation = UINT32_MAX then
    FaultProgram.fail .wrongData
  let targetSlot := current.commitSlot.rev
  fileObjectTxnRemoveFile static (layout.commitFid targetSlot)
  fileObjectTxnRemoveFile static (layout.recordFid targetSlot)
  flashCommitSync
  fileObjectTxnWriteDeletion static layout auth targetSlot (current.generation + 1)
  flashCommitSync

end Programs

/-! ### Handles -/

/-- `FILE_OBJECT_TXN_MAX_HANDLES`. -/
abbrev txnMaxHandles : ℕ := 4

/-- `file_object_txn_handle_entry_t` in use. -/
structure FileObjectTxnHandleEntry where
  layout : FileObjectTxnLayout
  state : FileObjectTxnState
  token : UInt32

/-- The handle table and the token counter. An entry whose token is
`FILE_OBJECT_TXN_INVALID_HANDLE` is `none`. -/
structure TxnRam where
  /-- `file_object_txn_handles`. -/
  handles : Fin txnMaxHandles → Option FileObjectTxnHandleEntry
  /-- `file_object_txn_next_handle`. -/
  nextHandle : UInt32

/-- The handle table after a reset. -/
def TxnRam.boot : TxnRam :=
  ⟨fun _ ↦ none, 1⟩

/-- `file_object_txn_find_handle`, as an index into the table. -/
def TxnRam.findHandle (ram : TxnRam) (handle : UInt32) : Option (Fin txnMaxHandles) :=
  if handle = 0 then none
  else (List.finRange txnMaxHandles).find? fun i ↦ (ram.handles i).any (·.token == handle)

/-- The loop of `file_object_txn_allocate_token`, for a number of turns; gives the token and the new
counter. The table holds `txnMaxHandles` tokens and zero is not a token, so two more turns than
there are entries always meet a free one (`allocateToken_fresh`). -/
def TxnRam.allocateToken (ram : TxnRam) : ℕ → UInt32 → UInt32 × UInt32
  | 0, next => (0, next)
  | turns + 1, next =>
    if next ≠ 0 ∧ (ram.findHandle next).isNone then (next, next + 1)
    else ram.allocateToken turns (next + 1)

/-- The first unused entry of the table. -/
def TxnRam.freeEntry (ram : TxnRam) : Option (Fin txnMaxHandles) :=
  (List.finRange txnMaxHandles).find? fun i ↦ (ram.handles i).isNone

/-- `file_object_txn_open`: a handle for what is committed. -/
def fileObjectTxnOpen (static : ℕ → Bool) (layout : FileObjectTxnLayout)
    (auth : FileObjectAuthenticator) : FsProg TxnRam UInt32 := do
  if !fileObjectTxnLayoutValid static layout then
    FaultProgram.fail .nullParam
  let s ← getState
  let state ← authenticated (fileObjectTxnRecover layout auth s.files)
  if state.deleted then
    FaultProgram.fail .fileNotFound
  match s.ram.freeEntry with
  | none => FaultProgram.fail .noMemory
  | some i =>
    let (token, next) := s.ram.allocateToken (txnMaxHandles + 2) s.ram.nextHandle
    modifyState fun s ↦ { s with
      ram := ⟨fun j ↦ if j = i then some ⟨layout, state, token⟩ else s.ram.handles j, next⟩ }
    return token

/-- `file_object_txn_resolve`: the entry of a handle, if the version it was opened on is still the
current one. -/
def fileObjectTxnResolve (handle : UInt32) :
    FsProg TxnRam FileObjectTxnHandleEntry := do
  let s ← getState
  match (s.ram.findHandle handle).bind s.ram.handles with
  | none => FaultProgram.fail .staleHandle
  | some current =>
    let recovered ← authenticated (
      match fileObjectTxnRecover current.layout auth s.files with
      | .error r => .error (if fileObjectTxnInvalidRecord r then .staleHandle else r)
      | .ok recovered => .ok recovered)
    if recovered.deleted || recovered.generation != current.state.generation ||
        recovered.recordId != current.state.recordId ||
        recovered.recordSlot != current.state.recordSlot ||
        recovered.payloadSize != current.state.payloadSize then
      FaultProgram.fail .staleHandle
    return ⟨current.layout, recovered, current.token⟩

/-- `file_object_txn_get_info`: payload size and generation. -/
def fileObjectTxnGetInfo (handle : UInt32) :
    FsProg TxnRam (ℕ × ℕ) := do
  let entry ← fileObjectTxnResolve auth handle
  return (entry.state.payloadSize, entry.state.generation)

/-- `file_object_txn_read_at`, through a handle that is not stale. -/
def fileObjectTxnReadAt (handle : UInt32) (offset len : ℕ) :
    FsProg TxnRam Bytes := do
  let entry ← fileObjectTxnResolve auth handle
  if offset > entry.state.payloadSize ∨ len > entry.state.payloadSize - offset then
    FaultProgram.fail .wrongLength
  if h : entry.state.recordSlot < 2 then
    match ← fileSearch (entry.layout.recordFid ⟨entry.state.recordSlot, h⟩) with
    | none => FaultProgram.fail .nullParam
    | some file => liftExcept (fileReadAt file (txnRecordHeaderSize + offset) len)
  else
    FaultProgram.fail .nullParam

def fileObjectTxnClose (handle : UInt32) : FsProg TxnRam Unit := do
  match (← getState).ram.findHandle handle with
  | none => FaultProgram.fail .staleHandle
  | some i => modifyState fun s ↦ { s with
      ram := { s.ram with handles := fun j ↦ if j = i then none else s.ram.handles j } }

end PicoAll
