import PicoAll.Fido.OtpContainer

/-!
# The OTP bank

The calls of `otp_container.c`: a slot is read, written, deleted, or swapped with another one. All
of them but the first load the whole bank, change it, and write every stored slot and the index back
in one update. A deletion clears the active bit and leaves the slot stored.
-/

namespace PicoAll

open FaultProgram BigEndian

/-- `FIDO_OTP_SECRET_MAX_SIZE`. -/
abbrev otpSecretMaxSize : ℕ := 128

/-- `FIDO_OTP_METADATA_MAX_SIZE`. -/
abbrev otpMetadataMaxSize : ℕ := 64

/-- The slots of the bank. -/
def otpSlots : List UInt8 :=
  [0, 1, 2, 3]

variable (bank : OtpBank) (slot : UInt8)

def otpSlotValid : Bool :=
  decide (slot < otpSlotCount.toUInt8)

/-- `otp_container_slot_t`, of a slot that is stored. -/
structure OtpContainerSlot where
  secret : Bytes
  metadata : Bytes
  deriving DecidableEq, Repr

/-- The bank as it is loaded: the active bits and the stored slots. -/
structure OtpBank where
  active : UInt8
  slots : UInt8 → Option OtpContainerSlot

/-- The bank nothing has been written to. -/
def OtpBank.empty : OtpBank :=
  ⟨0, fun _ ↦ none⟩

def otpSlotBit : UInt8 :=
  1 <<< slot

/-- Whether a slot is active. -/
def OtpBank.isActive : Bool :=
  (bank.active &&& otpSlotBit slot) != 0

/-- Store a slot. -/
def OtpBank.store (content : OtpContainerSlot) : OtpBank :=
  { bank with slots := fun i ↦ if i = slot then some content else bank.slots i }

/-- What `otp_container_write_slot` does to the bank. -/
def OtpBank.write (content : OtpContainerSlot) : OtpBank :=
  { bank.store slot content with active := bank.active ||| otpSlotBit slot }

/-- What `otp_container_delete_slot` does to the bank. -/
def OtpBank.delete : OtpBank :=
  { bank with active := bank.active &&& ~~~otpSlotBit slot }

/-- What `otp_container_swap_slots` does to the bank: each slot gets the content given for the
other one, if there is one. -/
def OtpBank.swap (slot1 : UInt8) (content1 : Option OtpContainerSlot) (slot2 : UInt8)
    (content2 : Option OtpContainerSlot) : OtpBank :=
  let bank₁ := content2.elim bank (bank.store slot1)
  let bank₂ := content1.elim bank₁ (bank₁.store slot2)
  let cleared := bank.active &&& ~~~(otpSlotBit slot1 ||| otpSlotBit slot2)
  let active₁ := if content2.isSome then cleared ||| otpSlotBit slot1 else cleared
  { bank₂ with active := if content1.isSome then active₁ ||| otpSlotBit slot2 else active₁ }

/-- `EF_OTP_SLOT1 + slot`. -/
def otpMarkerFid : ℕ :=
  prefixedFid 0xbb slot

/-- The marker of a slot. -/
def otpMarker : Bytes :=
  containerMarker [0x50, 0x4b, 0x54, 0x31] slot

/-- `otp_container_is_marker`, of the file of a slot. -/
def otpContainerIsMarker (file : Option Bytes) : Bool :=
  otpSlotValid slot && file == some (otpMarker slot)

/-- A write of an object. -/
def otpWrite (objectType objectTag : UInt16) (data : Bytes) : FileObjectContainerWrite where
  objectType := objectType
  objectTag := objectTag
  data := data
  policyId := otpPolicyId
  keyDomain := 0
  protection :=
    if objectType = otpObjectSecret then protectionAeadSecret else protectionAuthenticatedPublic
  flags :=
    if objectType = otpObjectSecret then flagMutable ||| flagNonExportable ||| flagTransactionGroup
    else flagMutable ||| flagTransactionGroup
  transactionGroup := otpTransactionGroup

/-- The two writes of a stored slot. -/
def OtpBank.slotWrites : List FileObjectContainerWrite :=
  match bank.slots slot with
  | none => []
  | some content =>
    [otpWrite otpObjectSecret slot.toUInt16 content.secret,
      otpWrite otpObjectMetadata slot.toUInt16 content.metadata]

/-- The writes of `otp_container_bank_commit`: every stored slot, and the index. -/
def OtpBank.writes : List FileObjectContainerWrite :=
  otpSlots.flatMap bank.slotWrites ++ [otpWrite otpObjectIndex 0 [bank.active]]

section Bank

variable (sha256 : Bytes → Bytes) (crypto : FileObjectContainerCrypto) (files : Files)

/-- `otp_container_storage_available`: no foreign file is in the place of a record. -/
def otpContainerStorageAvailable : Bool :=
  let manifest (slot : Fin 2) := files (otpManifestFid slot)
  if ((manifest 0).isSome && !fileHasData (manifest 0)) ||
      ((manifest 1).isSome && !fileHasData (manifest 1)) then
    false
  else if (manifest 0).isSome || (manifest 1).isSome then
    true
  else
    (otpRecordFids 0 ++ otpRecordFids 1).all fun fid ↦
      match files fid with
      | none => true
      | some record => decide (record.take 4 = [0x50, 0x4b, 0x4f, 0x52])

/-- `otp_container_read_object`, into a buffer with room for `capacity` bytes. -/
def otpContainerReadObject (slot : UInt8) (objectType : UInt16) (capacity : ℕ) :
    Except Status Bytes :=
  fileObjectContainerRead (otpContainerLayout sha256) 0 files objectType slot.toUInt16 crypto none
    capacity

def otpActiveSlotsRead : Except Status UInt8 := do
  match ← fileObjectContainerRead (otpContainerLayout sha256) 0 files otpObjectIndex 0 crypto none
      1 with
  | [active] => return active
  | _ => throw .wrongLength

def otpContainerHasSlotStatus (slot : UInt8) : Except Status Bool :=
  if !otpSlotValid slot then
    .error .wrongData
  else
    match otpActiveSlotsRead sha256 crypto files with
    | .error .fileNotFound => .ok false
    | .error r => .error r
    | .ok active => .ok ((active &&& otpSlotBit slot) != 0)

/-- The turn of `otp_container_bank_load` for a slot. -/
def otpBankLoadSlot (active slot : UInt8) : Except Status (Option OtpContainerSlot) :=
  match otpContainerReadObject sha256 crypto files slot otpObjectSecret otpSecretMaxSize with
  | .error .fileNotFound =>
    if (active &&& otpSlotBit slot) != 0 then .error .wrongData else .ok none
  | .error r => .error r
  | .ok secret =>
    match otpContainerReadObject sha256 crypto files slot otpObjectMetadata otpMetadataMaxSize with
    | .error r => .error r
    | .ok metadata => .ok (some ⟨secret, metadata⟩)

/-- `otp_container_bank_load`: all four slots. -/
def otpContainerBankLoad : Except Status OtpBank :=
  match otpActiveSlotsRead sha256 crypto files with
  | .error .fileNotFound => .ok .empty
  | .error r => .error r
  | .ok active => do
    let slot0 ← otpBankLoadSlot sha256 crypto files active 0
    let slot1 ← otpBankLoadSlot sha256 crypto files active 1
    let slot2 ← otpBankLoadSlot sha256 crypto files active 2
    let slot3 ← otpBankLoadSlot sha256 crypto files active 3
    return ⟨active, fun slot ↦
      if slot = 0 then slot0 else if slot = 1 then slot1 else if slot = 2 then slot2
      else if slot = 3 then slot3 else none⟩

def otpContainerReadSlot (slot : UInt8) (capacity : ℕ) : Except Status Bytes :=
  match otpContainerHasSlotStatus sha256 crypto files slot with
  | .error r => .error r
  | .ok false => .error .fileNotFound
  | .ok true => otpContainerReadObject sha256 crypto files slot otpObjectSecret capacity

end Bank

section Calls

variable (sha256 : Bytes → Bytes) (crypto : FileObjectContainerCrypto)

/-- `otp_container_bank_commit`, with `otp_container_update`. -/
def otpContainerBankCommit (bank : OtpBank) : FsProg TxnRam Unit := do
  if !otpContainerStorageAvailable (← getState).files then
    FaultProgram.fail .wrongData
  fileObjectContainerUpdateWithoutRecordValidation (otpContainerLayout sha256) 0 bank.writes crypto
    none

/-- `otp_marker_replace`: the marker says that the slot is in the container. -/
def otpMarkerReplace (slot : UInt8) (present : Bool) : FsProg TxnRam Unit := do
  let marker ← fileSearch (otpMarkerFid slot)
  if !present then
    if otpContainerIsMarker slot marker then
      fileDeleteQuietly (otpMarkerFid slot)
    else
      pure ()
  else if marker.isSome && !otpContainerIsMarker slot marker then
    FaultProgram.fail .wrongData
  else do
    fileDeleteQuietly (otpMarkerFid slot)
    fileNew (otpMarkerFid slot)
    filePutData (otpMarkerFid slot) (otpMarker slot)

/-- `otp_container_write_slot`. -/
def otpContainerWriteSlot (slot : UInt8) (data metadata : Bytes) : FsProg TxnRam Unit := do
  if !otpSlotValid slot || decide (data.length > otpSecretMaxSize) ||
      decide (metadata.length > otpMetadataMaxSize) then
    FaultProgram.fail .wrongData
  let logical ← fileSearch (otpMarkerFid slot)
  if fileHasData logical && !otpContainerIsMarker slot logical then
    FaultProgram.fail .wrongData
  let bank ← liftExcept (otpContainerBankLoad sha256 crypto (← getState).files)
  otpContainerBankCommit sha256 crypto (bank.write slot ⟨data, metadata⟩)
  otpMarkerReplace slot true

def otpContainerDeleteSlot (slot : UInt8) : FsProg TxnRam Unit := do
  let present ← liftExcept (otpContainerHasSlotStatus sha256 crypto (← getState).files slot)
  if !present then
    FaultProgram.fail .fileNotFound
  let bank ← liftExcept (otpContainerBankLoad sha256 crypto (← getState).files)
  otpContainerBankCommit sha256 crypto (bank.delete slot)
  otpMarkerReplace slot false

/-- The check of `otp_container_swap_slots` on what is given for a slot. -/
def otpSwapContentValid (content : Option OtpContainerSlot) : Bool :=
  content.all fun content ↦ decide (content.secret.length ≤ otpSecretMaxSize) &&
    decide (content.metadata.length ≤ otpMetadataMaxSize)

/-- `otp_container_swap_slots`. The caller gives the content it has found in each slot; a slot that
is not present has none. -/
def otpContainerSwapSlots (slot1 : UInt8) (content1 : Option OtpContainerSlot) (slot2 : UInt8)
    (content2 : Option OtpContainerSlot) : FsProg TxnRam Unit := do
  if !otpSlotValid slot1 || !otpSlotValid slot2 || slot1 == slot2 then
    FaultProgram.fail .wrongData
  let actual1 ← liftExcept (otpContainerHasSlotStatus sha256 crypto (← getState).files slot1)
  let actual2 ← liftExcept (otpContainerHasSlotStatus sha256 crypto (← getState).files slot2)
  if content1.isSome != actual1 || content2.isSome != actual2 || !otpSwapContentValid content1 ||
      !otpSwapContentValid content2 then
    FaultProgram.fail .wrongData
  let bank ← liftExcept (otpContainerBankLoad sha256 crypto (← getState).files)
  otpContainerBankCommit sha256 crypto (bank.swap slot1 content1 slot2 content2)
  otpMarkerReplace slot1 content2.isSome
  otpMarkerReplace slot2 content1.isSome

/-- `OTP_SLOT_PLAIN_MAX`: a configuration of 52 bytes and 8 bytes of counters. -/
abbrev otpSlotPlainMax : ℕ := 60

/-- `otp_slot_metadata_build`: magic, version, and four fields of the configuration. -/
def otpSlotMetadataBuild (plain : Bytes) : Bytes :=
  [0x50, 0x4b, 0x54, 0x4d, 1] ++ (plain.drop 44).take 4

/-- `otp_slot_store`, of a slot without a legacy file. -/
def otpSlotStore (slot : UInt8) (plain : Bytes) : FsProg TxnRam Unit :=
  if plain.length ≠ 52 ∧ plain.length ≠ otpSlotPlainMax then
    FaultProgram.fail .wrongData
  else
    otpContainerWriteSlot sha256 crypto slot plain (otpSlotMetadataBuild plain)

/-- `otp_slot_delete`, of a slot without a legacy file. -/
def otpSlotDelete (slot : UInt8) : FsProg TxnRam Unit := do
  let present ← liftExcept (otpContainerHasSlotStatus sha256 crypto (← getState).files slot)
  let file ← fileSearch (otpMarkerFid slot)
  if present && otpContainerIsMarker slot file then
    otpContainerDeleteSlot sha256 crypto slot
  else
    fileDeletePresent (otpMarkerFid slot)

/-- What the swap command of `otp.c` finds in a slot without a legacy file. -/
def otpSwapContent (slot : UInt8) : FsProg TxnRam (Option OtpContainerSlot) := do
  let files := (← getState).files
  if ← liftExcept (otpContainerHasSlotStatus sha256 crypto files slot) then
    let plain ← liftExcept (otpContainerReadSlot sha256 crypto files slot otpSlotPlainMax)
    return some ⟨plain, otpSlotMetadataBuild plain⟩
  else
    return none

/-- The swap command of `otp.c`, of slots without a legacy file: there is something to be done if
one of them is present. -/
def otpSwapSlots (slot1 slot2 : UInt8) : FsProg TxnRam Unit := do
  let content1 ← otpSwapContent sha256 crypto slot1
  let content2 ← otpSwapContent sha256 crypto slot2
  if content1.isSome || content2.isSome then
    otpContainerSwapSlots sha256 crypto slot1 content1 slot2 content2
  else
    pure ()

end Calls

end PicoAll
