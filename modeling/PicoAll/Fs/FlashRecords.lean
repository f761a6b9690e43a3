import PicoAll.Fs.DynamicIndex
import PicoAll.Fs.FileApi
import PicoAll.Lib.LinkedChain

/-!
# The records of the flash

`flash.c`, and what `file.c` does to the flash: the files are records in two pools, that of the
dynamic files and a persistent one. The records of a pool are a chain from its end downwards, linked
both ways. A file is written in place if it fits, else into the first gap that is large enough, from
the top; the record it had is unlinked then. Two variables say how many files there are and where the
lowest record of the data pool is; a scan of the flash, at power-up, computes them anew.

A record is what stands at its address behind the two links: the identity of its file, whether its
length takes six bytes, and its data. Programming the flash succeeds, and the journal has been redone
when the flash is scanned.
-/

namespace PicoAll

open LinkedChain

abbrev flashFileExtendedLength : ℕ := 0xffff

abbrev fileRecordIdSize : ℕ := 4

/-- Where the pools are, and `sizeof(uintptr_t)`. -/
structure FlashBounds where
  pointerSize : ℕ
  startDataPool : ℕ
  endDataPool : ℕ
  startRomPool : ℕ
  endRomPool : ℕ
  startDataPool_pos : 0 < startDataPool
  data_le : startDataPool ≤ endDataPool
  data_lt_rom : endDataPool < startRomPool
  rom_le : startRomPool ≤ endRomPool

namespace FlashBounds

variable (B : FlashBounds)

/-- `startp`, of the data pool or the persistent one. -/
def startp (persistent : Bool) : ℕ :=
  if persistent then B.startRomPool else B.startDataPool

def endp (persistent : Bool) : ℕ :=
  if persistent then B.endRomPool else B.endDataPool

end FlashBounds

/-- A file that has a namespace and an id as files may have. -/
structure FlashFile (registered : UInt16 → Bool) where
  id : FileId
  registered_fst : registered id.1 = true
  ne_empty : id.2 ≠ dynamicFidEmpty
  ne_deleted : id.2 ≠ dynamicFidDeleted
  deriving DecidableEq

/-- A record, without its links. -/
structure FlashRecord where
  /-- The namespace and the id of its file. -/
  id : FileId
  /-- Its length takes six bytes. -/
  extended : Bool
  data : Bytes
  deriving DecidableEq, Repr

/-- The flash: the links and the records, by their addresses. The links to the highest records are at
the ends of the pools. -/
structure Flash where
  next : ℕ → ℕ
  prev : ℕ → ℕ
  record : ℕ → FlashRecord

/-- The flash, and the variables. -/
structure FlashState (registered : UInt16 → Bool) where
  flash : Flash
  /-- `file->data`, as the address of the record. -/
  file : FlashFile registered → Option ℕ
  lastBase : ℕ
  numFiles : ℕ

variable {registered : UInt16 → Bool}

/-- The file of a record, if it may have it. -/
def FlashRecord.file (registered : UInt16 → Bool) (r : FlashRecord) : Option (FlashFile registered) :=
  if h : registered r.id.1 = true ∧ r.id.2 ≠ dynamicFidEmpty ∧ r.id.2 ≠ dynamicFidDeleted then
    some ⟨r.id, h.1, h.2.1, h.2.2⟩
  else none

namespace FlashRecords

variable (B : FlashBounds)

/-- The size of a record with this many bytes of data. -/
def flashSizeOf (extended : Bool) (size : ℕ) : ℕ :=
  2 * B.pointerSize + fileRecordIdSize + (if extended then 6 else 2) + size

def flashRecordSize (r : FlashRecord) : ℕ :=
  flashSizeOf B r.extended r.data.length

/-! ### Writing -/

/-- Where the gap above the next record starts. -/
def gapStart (flash : Flash) (startp nextBase : ℕ) : ℕ :=
  if nextBase ≠ 0 then nextBase + flashRecordSize B (flash.record nextBase) else startp

/-- The loop of `allocate_free_addr`: the link behind which the record goes, and its address. -/
def allocateLoop (flash : Flash) (startp realSize : ℕ) : ℕ → ℕ → Option (ℕ × ℕ)
  | 0, _ => none
  | fuel + 1, base =>
    if base < startp ∨ base < realSize then none
    else
      let potentialAddr := base - realSize
      let nextBase := flash.next base
      if nextBase ≠ 0 ∧ (base ≤ nextBase ∨
          base - nextBase < flashRecordSize B (flash.record nextBase)) then none
      else if gapStart B flash startp nextBase ≤ potentialAddr ∧ startp ≤ potentialAddr then
        some (base, potentialAddr)
      else if nextBase = 0 then none
      else allocateLoop flash startp realSize fuel nextBase

/-- `allocate_free_addr`, without the links it writes. -/
def allocateFreeAddr (flash : Flash) (size : ℕ) (persistent : Bool) : Option (ℕ × ℕ) :=
  let realSize := flashSizeOf B (decide (flashFileExtendedLength ≤ size)) size
  if B.endp persistent - B.startp persistent < realSize then none
  else allocateLoop B flash (B.startp persistent) realSize (B.endp persistent + 1) (B.endp persistent)

variable (flash : Flash)

/-- The links that `allocate_free_addr` writes, the record behind them, and the link that publishes
it. -/
def publishRecord (publishAt newAddr : ℕ) (r : FlashRecord) : Flash where
  next := link (link flash.next newAddr (flash.next publishAt)) publishAt newAddr
  prev := relink (link flash.prev newAddr publishAt) (flash.next publishAt) newAddr
  record := Function.update flash.record newAddr r

/-- `flash_clear_file`, as far as the flash is concerned: the record is unlinked, and its data
erased. -/
def unlinkRecord (base : ℕ) : Flash where
  next := link (link flash.next (flash.prev base) (flash.next base)) base 0
  prev := link (relink flash.prev (flash.next base) (flash.prev base)) base 0
  record := Function.update flash.record base { flash.record base with extended := false, data := [] }

/-- `flash_clear_file`: the record of a file is unlinked. -/
def flashClearFile (s : FlashState registered) (file : FlashFile registered) :
    FlashState registered :=
  match s.file file with
  | none => s
  | some base =>
    { s with
      flash := unlinkRecord s.flash base
      file := Function.update s.file file none
      numFiles := if 0 < s.numFiles then s.numFiles - 1 else s.numFiles }

/-- What a write does: it is refused, or the data is changed where it is, or there is a new record. -/
inductive FlashWritePlan where
  | refuse (e : Status)
  /-- The record at an address, with its data. -/
  | inPlace (base : ℕ) (data : Bytes)
  /-- The data of the new record, the link that is to lead to it, and its address. -/
  | move (data : Bytes) (publishAt newAddr : ℕ)
  deriving DecidableEq, Repr

/-- The record at an address with other data. -/
def overwriteRecord (base : ℕ) (data : Bytes) : Flash :=
  { flash with
    record := Function.update flash.record base { flash.record base with data := data } }

variable (isPersistent : FlashFile registered → Bool)

/-- The data of a file, of which `file_get_size` is the length. -/
def fileData (s : FlashState registered) (file : FlashFile registered) : Bytes :=
  match s.file file with
  | none => []
  | some base => (s.flash.record base).data

/-- The data of a file after a write: at an offset, or instead of what was there. -/
def writtenData (oldData data : Bytes) (offset : ℕ) (part : Bool) : Bytes :=
  if part then oldData.take offset ++ data ++ oldData.drop (offset + data.length) else data

/-- A new record for a file. -/
def moveFile (flash : Flash) (file : FlashFile registered) (newData : Bytes) : FlashWritePlan :=
  match allocateFreeAddr B flash newData.length (isPersistent file) with
  | none => .refuse .noMemory
  | some (publishAt, newAddr) => .move newData publishAt newAddr

/-- How `flash_write_data_to_file_internal` goes about a write. -/
def flashWritePlan (s : FlashState registered) (file : FlashFile registered) (data : Bytes)
    (offset : ℕ) (part : Bool) : FlashWritePlan :=
  let oldSize := (fileData s file).length
  let len := data.length
  let newData := writtenData (fileData s file) data offset part
  if UINT32_MAX < len then .refuse .nullParam
  else if UINT32_MAX - len < offset ∨ part = true ∧ oldSize < offset then .refuse .noMemory
  else
    match s.file file with
    | none => moveFile B isPersistent s.flash file newData
    | some base =>
      if part = true ∧ offset + len ≤ oldSize ∨ part = false ∧ len ≤ oldSize ∧
          ((s.flash.record base).extended = true ∨ len < flashFileExtendedLength) then
        .inPlace base newData
      else moveFile B isPersistent s.flash file newData

/-- `flash_write_data_to_file_internal`: in place if the data fit, otherwise into a new record. -/
def flashWriteDataToFileInternal (s : FlashState registered) (file : FlashFile registered)
    (data : Bytes) (offset : ℕ) (part : Bool) : Except Status Unit × FlashState registered :=
  match flashWritePlan B isPersistent s file data offset part with
  | .refuse e => (.error e, s)
  | .inPlace base newData =>
    (.ok (), { s with flash := overwriteRecord s.flash base newData })
  | .move newData publishAt newAddr =>
    let s' : FlashState registered := { s with
      flash := publishRecord s.flash publishAt newAddr
        ⟨file.id, decide (flashFileExtendedLength ≤ newData.length), newData⟩
      lastBase := if newAddr < s.lastBase then newAddr else s.lastBase
      numFiles := s.numFiles + 1 }
    let s'' := flashClearFile s' file
    (.ok (), { s'' with file := Function.update s''.file file (some newAddr) })

/-! ### Scanning -/

/-- What the scan makes of a record. `indexed` are the files the index has room for. -/
def scanFound (indexed : FlashFile registered → Bool) (persistent : Bool)
    (s : FlashState registered) (base : ℕ) (file : FlashFile registered) : FlashState registered :=
  { s with
    file := if indexed file then Function.update s.file file (some base) else s.file
    numFiles := if persistent then s.numFiles else s.numFiles + 1
    lastBase := if persistent = false ∧ base < s.lastBase then base else s.lastBase }

/-- The loop of `scan_region_internal`. -/
def scanRegionLoop (indexed : FlashFile registered → Bool) (persistent : Bool) :
    ℕ → ℕ → FlashState registered → FlashState registered
  | 0, _, s => s
  | fuel + 1, base, s =>
    let startp := B.startp persistent
    let endp := B.endp persistent
    if base = 0 then s
    else if base < startp ∨ endp < base ∨ endp - base < flashSizeOf B false 0 then s
    else
      let r := s.flash.record base
      let nextAddr := s.flash.next base
      let prevAddr := s.flash.prev base
      let recordHeader := flashSizeOf B r.extended 0
      match r.file registered with
      | none => s
      | some file =>
        if endp - base < recordHeader ∨ endp - base - recordHeader < r.data.length ∨
            nextAddr ≠ 0 ∧ (nextAddr < startp ∨ base ≤ nextAddr) ∨
            prevAddr ≠ endp ∧ (prevAddr ≤ base ∨ endp < prevAddr) then s
        else if nextAddr = 0 then scanFound indexed persistent s base file
        else scanRegionLoop indexed persistent fuel nextAddr (scanFound indexed persistent s base file)

def scanRegion (indexed : FlashFile registered → Bool) (persistent : Bool)
    (s : FlashState registered) : FlashState registered :=
  let s := if persistent then s else { s with lastBase := B.endDataPool, numFiles := 0 }
  scanRegionLoop B indexed persistent (B.endp persistent + 1) (s.flash.next (B.endp persistent)) s

def fileScanFlash (indexed : FlashFile registered → Bool) (s : FlashState registered) :
    FlashState registered :=
  scanRegion B indexed false (scanRegion B indexed true { s with file := fun _ ↦ none })

/-! ### What is reported -/

/-- The records of a pool are a chain, each of a file that belongs there. -/
structure PoolIs (flash : Flash) (persistent : Bool) (l : List ℕ) : Prop where
  linked : Linked flash.next flash.prev (B.endp persistent) l
  below : Below (fun b ↦ flashRecordSize B (flash.record b)) (B.startp persistent)
    (B.endp persistent) l
  files : ∀ b ∈ l, ∃ file, (flash.record b).file registered = some file ∧
    isPersistent file = persistent

/-- A flash whose pools are chains. -/
structure FlashImage where
  flash : Flash
  pools : ∀ persistent, ∃ l, PoolIs B isPersistent flash persistent l

/-- What happens to the flash. -/
inductive FlashEvent where
  /-- `flash_write_data_to_file`. -/
  | write (file : FlashFile registered) (data : Bytes)
  /-- `flash_write_data_to_file_offset`. -/
  | writeOffset (file : FlashFile registered) (data : Bytes) (offset : ℕ)
  /-- `flash_clear_file`, of a file that is deleted. -/
  | clear (file : FlashFile registered)
  /-- A reboot, with what is in the flash then and the files that the index has room for. -/
  | reboot (image : FlashImage B isPersistent) (indexed : FlashFile registered → Bool)

/-- The state after a reboot. -/
def flashBoot (image : FlashImage B isPersistent) (indexed : FlashFile registered → Bool) :
    FlashState registered :=
  fileScanFlash B indexed ⟨image.flash, fun _ ↦ none, 0, 0⟩

/-- The state after an event. -/
def flashAfter (s : FlashState registered) : FlashEvent B isPersistent → FlashState registered
  | .write file data => (flashWriteDataToFileInternal B isPersistent s file data 0 false).2
  | .writeOffset file data offset =>
    (flashWriteDataToFileInternal B isPersistent s file data offset true).2
  | .clear file => flashClearFile s file
  | .reboot image indexed => flashBoot B isPersistent image indexed

end FlashRecords

end PicoAll
