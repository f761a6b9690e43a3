import PicoAll.Fs.FileApi
import PicoAll.Lib.ByteBuffer
import PicoAll.Lib.Cbor

/-!
# The audit journal

`audit.c`: one file holds a window of the events there have been. Its record has a header, the
sequence number after the last event and that of the first one retained, the hash chain over the
events that are not retained any more, and a ring of slots. Every call loads the record and, if it
changes it, saves it again; between two calls nothing of it is kept but whether the start of the
device has been logged.

The functions of the record are pure; `sha256` is a parameter, and so is what the clock shows. The
files are those of the namespace the journal selects.
-/

namespace PicoAll

open FaultProgram ByteBuffer

abbrev auditSlots : ℕ := 128

abbrev auditEntryLen : ℕ := 20

/-- `HEADER`. -/
abbrev auditHeader : ℕ := 41

/-- `RECORD_SIZE`. -/
abbrev auditRecordSize : ℕ := auditHeader + auditSlots * auditEntryLen

/-- `JOURNAL_FID`. -/
abbrev auditJournalFid : ℕ := 0xc100

/-- `ENABLED_FID`. -/
abbrev auditEnabledFid : ℕ := 0xc101

abbrev auditWallClock : UInt8 := 0x80

abbrev auditBoot : UInt8 := 1

abbrev auditGetAssert : UInt8 := 3

/-- `AUDIT_CHECKPOINT`. -/
abbrev auditCheckpointEvent : UInt8 := 17

abbrev auditConfigWrite : UInt8 := 21

/-- What the clock shows: `has_set_rtc`, `get_rtc_time` and `board_millis`. -/
structure AuditClock where
  hasSetRtc : Bool
  /-- `get_rtc_time`. -/
  rtcTime : ℤ
  boardMillis : UInt32

/-- What is kept between two calls. -/
structure AuditRam where
  bootLogged : Bool

def rd32 (p : Bytes) (off : ℕ) : ℕ :=
  leNat (slice p off 4)

def wr32 (p : Bytes) (off n : ℕ) : Bytes :=
  patch p off (leBytes 4 n)

/-! ### The record -/

variable (record : Bytes)

/-- The sequence number of the next entry. -/
def auditNext : ℕ :=
  rd32 record 1

/-- The sequence number of the first entry retained. -/
def auditStart : ℕ :=
  rd32 record 5

/-- The hash chain up to the first entry retained. -/
def auditBase : Bytes :=
  slice record 9 32

/-- Where `slot` points. -/
def auditSlotOffset (n : ℕ) : ℕ :=
  auditHeader + n % auditSlots * auditEntryLen

/-- The entry in the `slot` of a sequence number. -/
def auditSlot (n : ℕ) : Bytes :=
  slice record (auditSlotOffset n) auditEntryLen

/-- Write an entry to the `slot` of a sequence number. -/
def auditSetSlot (n : ℕ) (entry : Bytes) : Bytes :=
  patch record (auditSlotOffset n) entry

/-- The entries retained, oldest first. -/
def auditEntries : List Bytes :=
  (List.range' (auditStart record) (auditNext record - auditStart record)).map (auditSlot record)

section Record

variable (sha256 : Bytes → Bytes) (serialHash : Bytes) (clock : AuditClock)

/-- `"RSK-AUDIT-GENESIS-v1"`. -/
def auditGenesisTag : Bytes :=
  [0x52, 0x53, 0x4b, 0x2d, 0x41, 0x55, 0x44, 0x49, 0x54, 0x2d, 0x47, 0x45, 0x4e, 0x45, 0x53, 0x49,
    0x53, 0x2d, 0x76, 0x31]

/-- The base of an empty journal. -/
def auditGenesis : Bytes :=
  sha256 (auditGenesisTag ++ serialHash)

/-- The record of an empty journal. -/
def auditGenesisRecord : Bytes :=
  patch (patch (List.replicate auditRecordSize 0) 0 [1]) 9 (auditGenesis sha256 serialHash)

/-- The checks of `load` on a record it has read. -/
def auditRecordValid (record : Bytes) : Bool :=
  decide (record.length = auditRecordSize) && slice record 0 1 == [1] &&
    decide (auditStart record ≤ auditNext record) &&
    decide (auditNext record - auditStart record ≤ auditSlots) &&
    (List.range' (auditStart record) (auditNext record - auditStart record)).all fun n ↦
      rd32 (auditSlot record n) 0 == n

/-- `load`. -/
def auditLoad (files : Files) : Except Status Bytes :=
  match files auditJournalFid with
  | none => .ok (auditGenesisRecord sha256 serialHash)
  | some record =>
    if !fileHasData (some record) then .ok (auditGenesisRecord sha256 serialHash)
    else if auditRecordValid record then .ok record
    else .error .execError

/-- `chain`. -/
def auditChain (head entry : Bytes) : Bytes :=
  sha256 (head ++ entry)

/-- `head`. -/
def auditHead (record : Bytes) : Bytes :=
  (auditEntries record).foldl (auditChain sha256) (auditBase record)

/-- The four bytes of time of an entry and the flag that goes with them. -/
def auditTime : ℕ × UInt8 :=
  let now := if clock.hasSetRtc then clock.rtcTime else 0
  if 1577836800 ≤ now ∧ now ≤ UINT32_MAX then (now.toNat, auditWallClock)
  else (clock.boardMillis.toNat, 0)

/-- The entry that `append_one` builds. -/
def auditEntry (n : ℕ) (ev aux : UInt8) (detail : Bytes) : Bytes :=
  let detail := detail.take 8
  leBytes 4 n ++ leBytes 4 (auditTime clock).1 ++ [ev ||| (auditTime clock).2, aux] ++ detail ++
    List.replicate (10 - detail.length) 0

/-- The eviction of `append_one`: the oldest entry goes into the base. -/
def auditEvict (record : Bytes) : Bytes :=
  wr32 (patch record 9 (auditChain sha256 (auditBase record) (auditSlot record (auditStart record))))
    5 (auditStart record + 1)

/-- `append_one`. -/
def auditAppendOne (ev aux : UInt8) (detail : Bytes) (record : Bytes) : Except Status Bytes :=
  let next := auditNext record
  if next = UINT32_MAX then
    .error .execError
  else
    let evicted :=
      if next - auditStart record = auditSlots then auditEvict sha256 record else record
    .ok (wr32 (auditSetSlot evicted next (auditEntry clock next ev aux detail)) 1 (next + 1))

/-! ### Coalescing -/

/-- The bit of a configuration target. -/
def auditTargetBit (aux : UInt8) : UInt8 :=
  if aux < 7 then 1 <<< aux else 0x80

/-- Where an event has its repeat count. -/
def auditCountOffset (ev : UInt8) : ℕ :=
  if ev = auditConfigWrite then 10 else 18

/-- Count an entry up. -/
def auditCountUp (ev aux : UInt8) (entry : Bytes) : Bytes :=
  let count := leNat (slice entry (auditCountOffset ev) 2)
  let counted := patch entry (auditCountOffset ev)
    (leBytes 2 (if count ≠ UINT16_MAX then count + 1 else count))
  if ev = auditConfigWrite then
    patch counted 12 ((slice counted 12 1).map (· ||| auditTargetBit aux))
  else
    counted

/-- Whether an entry is one of an event, whatever its clock. -/
def auditIsEvent (ev : UInt8) (entry : Bytes) : Bool :=
  (slice entry 8 1).map (· &&& ~~~auditWallClock) == [ev]

/-- The loop of `append` over the entries, newest first, for the one to be counted up: the `k`
entries from `start` on are left to be looked at. -/
def auditFindRun (slot : ℕ → Bytes) (ev : UInt8) (start next : ℕ) : ℕ → Option ℕ
  | 0 => none
  | k + 1 =>
    let n := start + k
    if ev = auditConfigWrite ∧ n ≠ next - 1 then none
    else if auditIsEvent ev (slot n) then some n
    else auditFindRun slot ev start next k

/-- The entry that an event is counted up in, if there is one. -/
def auditRun (ev : UInt8) (record : Bytes) : Option ℕ :=
  auditFindRun (auditSlot record) ev (auditStart record) (auditNext record)
    (auditNext record - auditStart record)

/-- The appending of `append`, once nothing is to be counted up. -/
def auditAppendEvent (ev aux : UInt8) (detail record : Bytes) : Except Status Bytes := do
  let record ← auditAppendOne sha256 clock ev aux detail record
  if ev = auditConfigWrite then
    let last := auditNext record - 1
    return auditSetSlot record last (patch (auditSlot record last) 12 [auditTargetBit aux])
  else
    return record

/-- What `append` does to the record it has loaded. -/
def auditAppendRecord (bootLogged : Bool) (ev aux : UInt8) (detail : Bytes) (coalesce : Bool)
    (record : Bytes) : Except Status Bytes := do
  if !bootLogged then
    let record ← auditAppendOne sha256 clock auditBoot 0 [] record
    auditAppendEvent sha256 clock ev aux detail record
  else if coalesce then
    match auditRun ev record with
    | some n => return auditSetSlot record n (auditCountUp ev aux (auditSlot record n))
    | none => auditAppendEvent sha256 clock ev aux detail record
  else
    auditAppendEvent sha256 clock ev aux detail record

/-- What `audit_scrub` does to the record it has loaded. -/
def auditScrubRecord (record : Bytes) : Bytes :=
  let folded := wr32 (patch record 9 (auditHead sha256 record)) 5 (auditNext record)
  patch folded auditHeader (List.replicate (auditRecordSize - auditHeader) 0)

end Record

/-! ### The calls -/

def auditEnabled (files : Files) : Bool :=
  files auditEnabledFid == some [1]

/-- `put`. -/
def auditPut (fid : ℕ) (data : Bytes) : FsProg AuditRam Unit := do
  fileNew fid
  filePutData fid data
  flashCommitSync

def auditSetEnabled (on : Bool) : FsProg AuditRam Unit :=
  auditPut auditEnabledFid [if on then 1 else 0]

/-- The errors that `audit_checkpoint` and `audit_export` answer with. -/
inductive AuditError where
  /-- `CTAP1_ERR_INVALID_PARAMETER`. -/
  | invalidParameter
  /-- `CTAP2_ERR_NOT_ALLOWED`. -/
  | notAllowed
  /-- `CTAP2_ERR_PROCESSING`. -/
  | processing
  deriving DecidableEq, Repr

/-- What `audit_checkpoint` answers. -/
structure AuditCheckpoint where
  /-- The head of the chain. -/
  head : Bytes
  /-- The sequence number of the next entry. -/
  seq : ℕ
  signature : Bytes
  publicKey : Bytes
  deriving DecidableEq, Repr

section Calls

variable (sha256 : Bytes → Bytes) (serialHash : Bytes) (clock : AuditClock)

/-- `append`. Whatever goes wrong, it returns nothing. `audit_append_run` is this with `coalesce` set. -/
def auditAppendCall (ev aux : UInt8) (detail : Bytes) (coalesce : Bool) : FsProg AuditRam Unit := do
  let s ← getState
  if !auditEnabled s.files then
    pure ()
  else
    match auditLoad sha256 serialHash s.files >>=
        auditAppendRecord sha256 clock s.ram.bootLogged ev aux detail coalesce with
    | .error _ => pure ()
    | .ok record =>
      onError (do
          auditPut auditJournalFid record
          modifyState fun s ↦ { s with ram := ⟨true⟩ })
        fun _ ↦ pure ()

def auditAppend (ev aux : UInt8) (detail : Bytes) : FsProg AuditRam Unit :=
  auditAppendCall sha256 serialHash clock ev aux detail (ev == auditConfigWrite)

def auditScrub : FsProg AuditRam Unit := do
  let s ← getState
  if !fileHasData (s.files auditJournalFid) then
    pure ()
  else do
    let record ← liftExcept (auditLoad sha256 serialHash s.files)
    auditPut auditJournalFid (auditScrubRecord sha256 record)

/-- The items of an export: the bounds of the window, the base and the entries. -/
def auditExportTokens (start next : ℕ) (base : Bytes) (entries : List Bytes) : List CborToken :=
  [.map (some 4), .uint 1, .uint start, .uint 2, .uint next, .uint 3, .bytes base, .uint 4,
    .bytes entries.flatten]

/-- `audit_export`. `encode` is the encoder, which may have no room for the items. -/
def auditExport (encode : List CborToken → Except CborError Bytes) (files : Files) :
    Except AuditError Bytes :=
  match auditLoad sha256 serialHash files with
  | .error _ => .error .processing
  | .ok record =>
    (encode (auditExportTokens (auditStart record) (auditNext record) (auditBase record)
      (auditEntries record))).mapError fun _ ↦ .processing

/-- `"RSK-AUDIT-CKPT-v1"`. -/
def auditCheckpointTag : Bytes :=
  [0x52, 0x53, 0x4b, 0x2d, 0x41, 0x55, 0x44, 0x49, 0x54, 0x2d, 0x43, 0x4b, 0x50, 0x54, 0x2d, 0x76,
    0x31]

/-- `audit_checkpoint`. `sign` is the attestation key, if the device has one: it signs the hash of a
message, and can fail. -/
def auditCheckpoint (sign : Option (Bytes → Option (Bytes × Bytes))) (challenge : Bytes) :
    FsProg AuditRam (Except AuditError AuditCheckpoint) := do
  let s ← getState
  if challenge.length > 32 then
    return .error .invalidParameter
  else
    match sign, auditLoad sha256 serialHash s.files with
    | none, _ => return .error .notAllowed
    | some _, .error _ => return .error .processing
    | some sign, .ok record =>
      let head := auditHead sha256 record
      let seq := auditNext record
      match sign (sha256 (auditCheckpointTag ++ head ++ leBytes 4 seq ++ challenge)) with
      | none => return .error .processing
      | some (signature, publicKey) =>
        auditAppend sha256 serialHash clock auditCheckpointEvent 0 []
        return .ok ⟨head, seq, signature, publicKey⟩

end Calls

end PicoAll
