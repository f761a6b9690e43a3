import PicoAll.Lib.FieldRead
import PicoAll.Fs.FileApi
import PicoAll.Lib.HandleTable

/-!
# The object store

`object_store.c`: an object is one file, a header and the payload. The header names the object and
carries a generation, which a put counts up from what it finds; on a file that is not there, or that
is empty, it starts at one. Opening an object gives a handle, which remembers generation and size;
each read compares them with what the file says.

Objects are read back as they were written (`fileObjectParse_content`).
-/

namespace PicoAll

open FaultProgram BigEndian

/-- `file_object_id_t`. -/
@[ext]
structure FileObjectId where
  namespaceId : UInt16
  objectType : UInt16
  fid : UInt16
  deriving DecidableEq, Repr

/-- `"PKO1"`. -/
abbrev fileObjectMagic : ℕ := 0x504b4f31

abbrev fileObjectHeaderSize : ℕ := 20

/-- `file_object_record_t`, whose `payload_offset` is the size of the header. -/
structure FileObjectRecord where
  payloadSize : ℕ
  generation : ℕ
  deriving DecidableEq, Repr

variable (id : FileObjectId) (ram : FileObjectRam) (handle : UInt32)

def fileObjectIdValid : Bool :=
  id.fid != 0 && id.fid != 0xffff

/-- `file_object_parse`, of the file with the id of the object. -/
def fileObjectParse (file : Option Bytes) (id : FileObjectId) : Except Status FileObjectRecord :=
  let content := file.getD []
  let payloadSize := beField content 16 4
  let generation := beField content 12 4
  if !fileObjectIdValid id || !fileHasData file then
    .error .fileNotFound
  else if content.length < fileObjectHeaderSize then
    .error .wrongData
  else if beField content 0 4 ≠ fileObjectMagic ∨ beField content 4 1 ≠ 1 ∨
      beField content 5 1 ≠ fileObjectHeaderSize ∨ beField content 6 2 ≠ id.namespaceId.toNat ∨
      beField content 8 2 ≠ id.objectType.toNat ∨ beField content 10 2 ≠ id.fid.toNat ∨
      generation = 0 ∨ payloadSize ≠ content.length - fileObjectHeaderSize then
    .error .wrongData
  else
    .ok ⟨payloadSize, generation⟩

/-! ### Handles -/

abbrev fileObjectMaxHandles : ℕ := 8

/-- `file_object_handle_entry_t` in use. -/
structure FileObjectHandleEntry where
  objectId : FileObjectId
  generation : ℕ
  payloadSize : ℕ
  token : UInt32
  deriving DecidableEq, Repr

/-- The handle table, in which an entry is `none` whose token is `FILE_OBJECT_INVALID_HANDLE`, and
the token counter. -/
structure FileObjectRam where
  /-- `file_object_handles`. -/
  handles : Fin fileObjectMaxHandles → Option FileObjectHandleEntry
  /-- `file_object_next_handle`. -/
  nextHandle : UInt32

/-- The handle table after a reset. -/
def FileObjectRam.boot : FileObjectRam :=
  ⟨fun _ ↦ none, 1⟩

/-- The tokens of the table. -/
def FileObjectRam.tokens (i : Fin fileObjectMaxHandles) : Option UInt32 :=
  (ram.handles i).map FileObjectHandleEntry.token

/-- `file_object_find_handle`. -/
def FileObjectRam.findHandle :
    Option (Fin fileObjectMaxHandles) :=
  HandleTable.find ram.tokens handle

/-- `file_object_allocate_token`: the token, and the counter after it. -/
def FileObjectRam.allocateToken : UInt32 × UInt32 :=
  HandleTable.allocate ram.tokens (fileObjectMaxHandles + 2) ram.nextHandle

/-- An entry is written over. -/
def FileObjectRam.set (i : Fin fileObjectMaxHandles) (entry : Option FileObjectHandleEntry)
    (next : UInt32) : FileObjectRam :=
  ⟨Function.update ram.handles i entry, next⟩

/-! ### The calls -/

/-- `file_object_resolve`: the content of the file, and what it says. -/
def fileObjectResolve : FsProg FileObjectRam (Bytes × FileObjectRecord) := do
  let s ← getState
  match (s.ram.findHandle handle).bind s.ram.handles with
  | none => FaultProgram.fail .staleHandle
  | some current =>
    let file ← fileSearch current.objectId.fid.toNat
    match fileObjectParse file current.objectId with
    | .error r =>
      FaultProgram.fail (if r = .fileNotFound ∨ r = .wrongData then .staleHandle else r)
    | .ok record =>
      if record.generation ≠ current.generation ∨ record.payloadSize ≠ current.payloadSize then
        FaultProgram.fail .staleHandle
      return (file.getD [], record)

/-- `file_object_open`: a handle for the object as it is. -/
def fileObjectOpen : FsProg FileObjectRam UInt32 := do
  if !fileObjectIdValid id then
    FaultProgram.fail .nullParam
  let record ← liftExcept (fileObjectParse (← fileSearch id.fid.toNat) id)
  let s ← getState
  match HandleTable.free s.ram.tokens with
  | none => FaultProgram.fail .noMemory
  | some i =>
    let (token, next) := s.ram.allocateToken
    modifyState fun s ↦ { s with
      ram := s.ram.set i (some ⟨id, record.generation, record.payloadSize, token⟩) next }
    return token

def fileObjectGetInfo : FsProg FileObjectRam FileObjectRecord := do
  return (← fileObjectResolve handle).2

def fileObjectReadAt (offset len : ℕ) : FsProg FileObjectRam Bytes := do
  let (content, record) ← fileObjectResolve handle
  if offset > record.payloadSize ∨ len > record.payloadSize - offset then
    FaultProgram.fail .wrongLength
  liftExcept (fileReadAt content (fileObjectHeaderSize + offset) len)

def fileObjectClose : FsProg FileObjectRam Unit := do
  let s ← getState
  match s.ram.findHandle handle with
  | none => FaultProgram.fail .staleHandle
  | some i => modifyState fun s ↦ { s with ram := s.ram.set i none s.ram.nextHandle }

def fileObjectContent (generation : ℕ) (data : Bytes) : Bytes :=
  Fields.encode [(4, fileObjectMagic), (1, 1), (1, fileObjectHeaderSize),
    (2, id.namespaceId.toNat), (2, id.objectType.toNat), (2, id.fid.toNat), (4, generation),
    (4, data.length)] ++ data

/-- The generation that a put writes. -/
def fileObjectNextGeneration (file : Option Bytes) (id : FileObjectId) : Except Status ℕ :=
  if fileHasData file then
    match fileObjectParse file id with
    | .error r => .error r
    | .ok current =>
      if current.generation = UINT32_MAX then .error .wrongData else .ok (current.generation + 1)
  else
    .ok 1

def fileObjectPut (data : Bytes) : FsProg FileObjectRam Unit := do
  if !fileObjectIdValid id || data.length > UINT32_MAX then
    FaultProgram.fail .nullParam
  let generation ← liftExcept (fileObjectNextGeneration (← fileSearch id.fid.toNat) id)
  fileNew id.fid.toNat
  if data.length > UINT32_MAX - fileObjectHeaderSize then
    FaultProgram.fail .noMemory
  filePutData id.fid.toNat (fileObjectContent id generation data)

/-- `file_object_delete` and `file_object_delete_no_commit`. -/
def fileObjectDelete (static : ℕ → Bool) (id : FileObjectId) : FsProg FileObjectRam Unit := do
  if !fileObjectIdValid id then
    FaultProgram.fail .nullParam
  let _ ← liftExcept (fileObjectParse (← fileSearch id.fid.toNat) id)
  fileDeleteNoCommit static id.fid.toNat

/-! ### Objects read back -/

/-- What a file that a put has written is read as: as the object it was put for, and as no other. -/
theorem fileObjectParse_content {id id' : FileObjectId} {generation : ℕ} {data : Bytes}
    {record : FileObjectRecord} (hgen : generation < 256 ^ 4) (hlen : data.length < 256 ^ 4)
    (h : fileObjectParse (some (fileObjectContent id generation data)) id' = .ok record) :
    id' = id ∧ record = ⟨data.length, generation⟩ := by
  have hfits : Fields.Fits [(4, fileObjectMagic), (1, 1), (1, fileObjectHeaderSize),
      (2, id.namespaceId.toNat), (2, id.objectType.toNat), (2, id.fid.toNat), (4, generation),
      (4, data.length)] := by
    simp only [Fields.Fits, List.forall_mem_cons]
    exact ⟨by decide, by decide, by decide, id.namespaceId.toNat_lt, id.objectType.toNat_lt,
      id.fid.toNat_lt, hgen, hlen, by simp⟩
  have hfields : Fields.At (fileObjectContent id generation data) 0 _ := Fields.at_encode hfits data
  generalize fileObjectContent id generation data = content at h hfields
  simp only [Fields.At, Nat.reduceAdd, Nat.zero_add] at hfields
  rw [fileObjectParse] at h
  simp only [Option.getD_some, hfields] at h
  split_ifs at h with hdata hshort hheader
  simp only [not_or, not_not] at hheader
  obtain ⟨-, -, -, h₁, h₂, h₃, -, -⟩ := hheader
  exact ⟨FileObjectId.ext (UInt16.toNat_inj.mp h₁.symm) (UInt16.toNat_inj.mp h₂.symm)
    (UInt16.toNat_inj.mp h₃.symm), (Except.ok.inj h).symm⟩

end PicoAll
