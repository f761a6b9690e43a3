import PicoAll.Fs.FileApi
import PicoAll.Lib.ByteBuffer
import PicoAll.Lib.Machine
import PicoAll.Openpgp.Files
import PicoAll.Transport.Apdu

/-!
# The PINs of the OpenPGP and the PIV applet

`openpgp.c`, `piv.c`: five PINs (PW1, PW3, the resetting code, the PIV PIN and the PUK), each with a
verifier. The retry counters of all of them are in one record `EF_PW_PRIV`, what they start from in
one record `EF_PW_RETRIES`, at places that the low bits of the file ids say. Four of the PINs have a
copy of the data encryption key (`DEK`) that is sealed under them; while such a PIN is changed, a
transaction has the new verifier and the new copy in one piece.

A write of a file can fail or be cut short, and reaches the flash later; a transaction is waited for,
and with it all that was written before. A transaction is one content here.
-/

namespace PicoAll.Openpgp

open FaultProgram BigEndian ByteBuffer

/-! ### Files and memory -/

/-- What is stored: a file, or the transaction of a PIN (`pin_txn_layout`). -/
inductive CardFile where
  | ef (fid : ℕ)
  | pinTxn (fid : ℕ)
  deriving DecidableEq

/-- What is done about PINs, for the history. -/
inductive PinNote where
  /-- A value is compared with the verifier of a PIN, whose counter was set to `remaining` before. -/
  | compared (fid : ℕ) (remaining : UInt8) (correct : Bool)
  /-- A command may reset the counter of a PIN. -/
  | entitled (fid : ℕ)
  deriving DecidableEq

/-- The applet that is selected. -/
inductive CardApp where
  | openpgp
  | piv
  deriving DecidableEq

/-- The memory. -/
structure CardRam where
  /-- The applet that is selected, one of these two. -/
  app : Option CardApp
  hasPw1 : Bool
  hasPw2 : Bool
  hasPw3 : Bool
  hasRc : Bool
  hasPwpiv : Bool
  hasMgm : Bool
  sessionPw1 : Bytes
  sessionRc : Bytes
  sessionPw3 : Bytes
  sessionPwpiv : Bytes
  dek : Bytes
  isUserAuthenticated : Bool
  currentEF : Option OpenpgpEf
  isGpg : Bool
  /-- How much has been drawn from the random number generator. -/
  draws : ℕ
  /-- The power has been lost. -/
  off : Bool
  /-- The history, the latest first. -/
  history : List PinNote

/-- Cryptography, of which the functions of `crypto_utils.h` are used. What depends on the random
number generator has the number of the draw as its first argument. -/
structure CardCrypto where
  doubleHashPin : Bytes → Bytes
  pinDeriveVerifier : Bytes → Bytes
  hashMulti : Bytes → Bytes
  pinDeriveSession : Bytes → Bytes
  /-- `encrypt_with_aad`: of a key and the data. -/
  encryptWithAad : ℕ → Bytes → Bytes → Bytes
  decryptWithAad : Bytes → Bytes → Option Bytes
  /-- `aes_decrypt_cfb_256`: of a key, an initialisation vector and the data. -/
  aesDecryptCfb256 : Bytes → Bytes → Bytes → Bytes
  /-- `random_bytes_get(DEK_SIZE)`. -/
  randomDek : ℕ → Bytes
  length_doubleHashPin : ∀ pin, (doubleHashPin pin).length = 32
  length_pinDeriveVerifier : ∀ pin, (pinDeriveVerifier pin).length = 32
  length_encryptWithAad : ∀ draw key data, (encryptWithAad draw key data).length = data.length + 28
  length_randomDek : ∀ draw, (randomDek draw).length = 48
  decryptWithAad_encryptWithAad : ∀ draw key data,
    decryptWithAad key (encryptWithAad draw key data) = some data

/-- The card. A file without content has no `data`. -/
abbrev CardDevice := Device CardFile (Option Bytes) CardRam

/-- A function of the applets. -/
abbrev CardProg (α : Type) := Prog CardDevice Status α

/-- The bytes of a file, none if there is no `data`. -/
def fileData (d : CardDevice) (fid : ℕ) : Bytes :=
  (d.read (.ef fid)).getD []

/-- `file_has_data`. -/
def hasData (d : CardDevice) (fid : ℕ) : Bool :=
  fileHasData (d.read (.ef fid))

/-- A byte of a file. -/
def byteAt (d : CardDevice) (fid i : ℕ) : UInt8 :=
  (fileData d fid).getD i 0

variable (C : CardCrypto) (fid : ℕ) (slot : DekSlot) (data : Bytes)

/-- `file_put_data`. -/
def filePut : CardProg Unit :=
  put .noMemory (.ef fid) (some data)

/-- `file_put_data`, whose result is not looked at. -/
def filePutIgnoring : CardProg Unit :=
  putIgnoring .noMemory (.ef fid) (some data)

/-- `flash_clear_file`. -/
def flashClear : CardProg Unit := do
  let d ← getState
  if (d.read (.ef fid)).isSome then put .execError (.ef fid) none else pure ()

/-- Change the memory. -/
def modifyRam (f : CardRam → CardRam) : CardProg Unit :=
  modifyState (·.setRam f)

/-- Note something in the history. -/
def notePin (note : PinNote) : CardProg Unit :=
  modifyRam fun ram ↦ { ram with history := note :: ram.history }

/-! ### Verifiers -/

/-- `set_res_sw(0x63, 0xc0 | retries)`. -/
def swRetries (retries : UInt8) : UInt16 :=
  0x6300 + (0xc0 ||| retries).toUInt16

/-- A verifier, in the format of now. -/
def pinRecord (value : Bytes) : Bytes :=
  .ofNat value.length :: 1 :: C.pinDeriveVerifier value

/-- `pin_record_matches_value` and `pin_is_factory_default`. -/
def pinRecordMatchesValue (record value : Bytes) : Bool :=
  if record.length = 33 then record = .ofNat value.length :: C.doubleHashPin value
  else if record.length = 34 then record = pinRecord C value
  else false

/-- How short a PIN may be. -/
def minPinLen : ℕ :=
  if fid = efPw1 then 6 else 8

/-- `check_pin_len`. -/
def checkPinLen (fid len : ℕ) : UInt16 :=
  if len < minPinLen fid ∨ len > 127 then swConditionsNotSatisfied else swOk

/-- `offered_pin_len_impossible`: no PIN of this length can be the stored one. -/
def offeredPinLenImpossible (d : CardDevice) (fid len : ℕ) : Bool :=
  let storedLen := (byteAt d fid 0).toNat
  (fid = efPw1 ∨ fid = efPw3 ∨ fid = efRc) && minPinLen fid ≤ storedLen && storedLen ≤ 127 &&
    (len < minPinLen fid ∨ len > 127)

/-! ### The retry counters -/

/-- The place of the counter of a PIN in `EF_PW_PRIV`. -/
def retryIndex : ℕ :=
  3 + fid % 16

/-- `pin_reset_retries`: the counter of a PIN goes back to its limit, a blocked one only by force. -/
def pinResetRetries (force : Bool) : CardProg Unit := do
  let d ← getState
  let status := (fileData d efPwPriv).take 64
  if retryIndex fid ≥ status.length ∨ fid % 16 ≥ (fileData d efPwRetries).length then
    FaultProgram.fail .memoryFatal
  else if status.getD (retryIndex fid) 0 = 0 ∧ force = false then
    FaultProgram.fail .blocked
  else
    filePut efPwPriv (status.set (retryIndex fid) (byteAt d efPwRetries (fid % 16)))

/-- `pin_spend_retry`: what is left. That the record then reads back as it was written is not checked
again. -/
def pinSpendRetry : CardProg UInt8 := do
  let d ← getState
  let status := fileData d efPwPriv
  if !hasData d efPwPriv then
    FaultProgram.fail .fileNotFound
  else if status.length > 64 ∨ retryIndex fid ≥ status.length then
    FaultProgram.fail .memoryFatal
  else if status.getD (retryIndex fid) 0 = 0 then
    FaultProgram.fail .blocked
  else do
    let remaining := status.getD (retryIndex fid) 0 - 1
    filePut efPwPriv (status.set (retryIndex fid) remaining)
    return remaining

/-- What `pin_check_verifier` compares with: of an old record from the second byte on, of a new one
from the third. -/
def pinHash (offset : ℕ) (data : Bytes) : Bytes :=
  if offset = 1 then C.doubleHashPin data else C.pinDeriveVerifier data

/-- `pin_check_verifier`: the status word, and `mismatch`. -/
def pinCheckVerifier (offset : ℕ) :
    CardProg (UInt16 × Bool) := do
  let d ← getState
  if !hasData d fid then
    return (swReferenceNotFound, false)
  else if (fileData d fid).length ≠ 32 + offset ∨ offset = 2 ∧ byteAt d fid 1 ≠ 1 then
    return (swConditionsNotSatisfied, false)
  else
    match ← resultOf (pinSpendRetry fid) with
    | .error .blocked => return (swPinBlocked, false)
    | .error _ => return (swMemoryFailure, false)
    | .ok remaining => do
      let correct : Bool := (fileData d fid).drop offset = pinHash C offset data
      notePin (.compared fid remaining correct)
      if correct then
        match ← resultOf (pinResetRetries fid true) with
        | .error _ => return (swMemoryFailure, false)
        | .ok _ => return (swOk, false)
      else if remaining = 0 then
        return (swPinBlocked, true)
      else
        return (swRetries remaining, true)

/-- The record `EF_PW_PRIV` with the lengths that the specification gives. -/
def restoredStatus (status : Bytes) : Bytes :=
  status.take 1 ++ ((status.drop 1).take 3).map (fun _ ↦ 127) ++ status.drop 4

/-- `restore_pw_status_limits`, whose write is not looked at. -/
def restorePwStatusLimits : CardProg Unit := do
  let d ← getState
  let status := fileData d efPwPriv
  if hasData d efPwPriv ∧ status.length ≤ 64 ∧ restoredStatus status ≠ status then
    filePutIgnoring efPwPriv (restoredStatus status)
  else
    pure ()

/-- `set_reset_code_retries`. -/
def setResetCodeRetries (retries : UInt8) : CardProg Unit := do
  let d ← getState
  let status := fileData d efPwPriv
  if !hasData d efPwPriv then
    FaultProgram.fail .fileNotFound
  else if retryIndex efRc ≥ status.length ∨ status.length > 64 then
    FaultProgram.fail .memoryFatal
  else if status.getD (retryIndex efRc) 0 = retries then
    pure ()
  else
    filePut efPwPriv (status.set (retryIndex efRc) retries)

/-! ### The copies of the data encryption key -/

abbrev ivSize : ℕ := 16

abbrev dekSize : ℕ := 48

abbrev dekAadSize : ℕ := 76

abbrev dekFileSizeOld : ℕ := 144

/-- The PINs that have a copy of the key. -/
inductive DekSlot where
  | pw1
  | rc
  | pw3
  | pwpiv
  deriving DecidableEq

namespace DekSlot

/-- The file of the verifier. -/
def pin : DekSlot → ℕ
  | pw1 => efPw1
  | rc => efRc
  | pw3 => efPw3
  | pwpiv => efPivPin

/-- The file of the copy. -/
def file : DekSlot → ℕ
  | pw1 => efDekPw1
  | rc => efDekRc
  | pw3 => efDekPw3
  | pwpiv => efDekPwpiv

/-- Where the copy is in `EF_DEK`, in the old format. -/
def oldOffset : DekSlot → ℕ
  | pw1 => ivSize
  | rc => ivSize + 32
  | pw3 => ivSize + 32 + 32
  | pwpiv => ivSize + 32 + 32 + 32

end DekSlot

/-- The key of a session. -/
def CardRam.session (ram : CardRam) : DekSlot → Bytes
  | .pw1 => ram.sessionPw1
  | .rc => ram.sessionRc
  | .pw3 => ram.sessionPw3
  | .pwpiv => ram.sessionPwpiv

/-- A key for a session. -/
def CardRam.setSession (ram : CardRam) (slot : DekSlot) (key : Bytes) : CardRam :=
  match slot with
  | .pw1 => { ram with sessionPw1 := key }
  | .rc => { ram with sessionRc := key }
  | .pw3 => { ram with sessionPw3 := key }
  | .pwpiv => { ram with sessionPwpiv := key }

/-- The session under which `load_dek` opens a copy. -/
def CardRam.dekSlot (ram : CardRam) : Option DekSlot :=
  if ram.hasPw1 || ram.hasPw2 then some .pw1
  else if ram.hasRc then some .rc
  else if ram.hasPw3 then some .pw3
  else if ram.hasPwpiv then some .pwpiv
  else none

/-- What `load_dek` makes of a copy, or of the file `EF_DEK` if there is none. -/
def openDek (key : Bytes) (copy : Option Bytes) (old : Bytes) :
    Except Status Bytes :=
  if fileHasData copy then
    let content := copy.getD []
    if content.headD 0 = 3 then
      match C.decryptWithAad key (slice content 1 dekAadSize) with
      | some dek => .ok dek
      | none => .error .execError
    else
      .error .nullParam
  else
    let iv := slice old 0 ivSize
    .ok (iv ++ C.aesDecryptCfb256 key iv (slice old slot.oldOffset 32))

def releaseDek : CardProg Unit :=
  modifyRam fun ram ↦ { ram with dek := List.replicate dekSize 0 }

/-- `load_dek`: the key is opened under the session of a PIN that has been given. -/
def loadDek : CardProg Unit := do
  let d ← getState
  match d.ram.dekSlot with
  | none => FaultProgram.fail .noLogin
  | some slot =>
    match openDek C slot (d.ram.session slot) (d.read (.ef slot.file)) (fileData d efDek) with
    | .ok dek => modifyRam fun ram ↦ { ram with dek := dek }
    | .error r => do
      (if r = .execError then releaseDek else pure ())
      FaultProgram.fail r

/-- `encrypt_with_aad` of the key, under a key of a session, in the format of the files. -/
def sealDek (session : Bytes) : CardProg Bytes := do
  let d ← getState
  modifyRam fun ram ↦ { ram with draws := ram.draws + 1 }
  return 3 :: C.encryptWithAad d.ram.draws session d.ram.dek

/-! ### The transactions -/

/-- `pin_txn_delete`. -/
def pinTxnDelete : CardProg Unit := do
  let d ← getState
  if (d.read (.pinTxn fid)).isSome then do
    sync .memoryFatal (.pinTxn fid)
    put .memoryFatal (.pinTxn fid) none
    sync .memoryFatal (.pinTxn fid)
  else
    pure ()

def pinTxnStage (verifier session : Bytes) : CardProg Unit := do
  let sealed ← sealDek C session
  sync .memoryFatal (.pinTxn fid)
  put .memoryFatal (.pinTxn fid) (some (beBytes 2 fid ++ verifier ++ sealed))
  sync .memoryFatal (.pinTxn fid)

/-- `pin_txn_recover`: what a transaction of this verifier holds is written to the copy. -/
def pinTxnRecover : CardProg Unit := do
  let d ← getState
  match d.read (.pinTxn slot.pin) with
  | none => pure ()
  | some payload =>
    if beNat (payload.take 2) ≠ slot.pin ∨ (fileData d slot.pin).length ≠ 34 ∨
        slice payload 2 34 ≠ fileData d slot.pin then
      pinTxnDelete slot.pin
    else
      match C.decryptWithAad (C.pinDeriveSession data) (slice payload 37 dekAadSize) with
      | none => FaultProgram.fail .execError
      | some dek => do
        modifyRam fun ram ↦ { ram with dek := dek }
        filePut slot.file (slice payload 36 (1 + dekAadSize))
        pinTxnDelete slot.pin

/-- The writes of a PIN that is changed, once its transaction is there. -/
def storePin (verifier sealed : Bytes) : CardProg Unit := do
  filePut slot.pin verifier
  filePut slot.file sealed
  pinTxnDelete slot.pin

/-- `openpgp_reset_code_deactivate`. -/
def resetCodeDeactivate : CardProg Unit := do
  let deleted ← resultOf (pinTxnDelete efRc)
  let d ← getState
  let cleared ← (if hasData d efRc then resultOf (flashClear efRc) else pure deleted)
  let result ← resultOf (do
    liftExcept cleared
    (if hasData d efDekRc then flashClear efDekRc else pure ())
    setResetCodeRetries 0)
  modifyRam fun ram ↦ { ram with hasRc := false, sessionRc := List.replicate 32 0 }
  liftExcept result

/-! ### Checking a PIN -/

def clearPinAccessStatus (p2 : UInt8) : CardProg Unit :=
  modifyRam fun ram ↦
    if fid = efPw1 then
      if p2 = 0x81 then { ram with hasPw1 := false } else { ram with hasPw2 := false }
    else if fid = efPw3 then { ram with hasPw3 := false }
    else ram

/-- The slot whose session `check_pin` opens. -/
def sessionSlot : Option DekSlot :=
  if fid = efPw1 then some .pw1
  else if fid = efPw3 then some .pw3
  else if fid = efPivPin then some .pwpiv
  else none

/-- The flag of a session that `check_pin` sets. -/
def CardRam.grant (ram : CardRam) (slot : DekSlot) (p2 : UInt8) : CardRam :=
  match slot with
  | .pw1 => if p2 = 0x81 then { ram with hasPw1 := true } else { ram with hasPw2 := true }
  | .pw3 => { ram with hasPw3 := true }
  | .pwpiv => { ram with hasPwpiv := true }
  | .rc => ram

/-- `EF_DEK` without the copy of a slot. -/
def withoutOldCopy (old : Bytes) (slot : DekSlot) : Bytes :=
  patch ((old ++ List.replicate dekFileSizeOld 0).take dekFileSizeOld) slot.oldOffset
    (List.replicate 32 0)

/-- What `check_pin` does for a verifier in the old format: a status word if it is not to go on. -/
def upgradePin (p2 : UInt8) :
    CardProg (Option UInt16) := do
  filePutIgnoring fid (pinRecord C data)
  match sessionSlot fid with
  | none => return none
  | some slot => do
    modifyRam fun ram ↦ (ram.grant slot p2).setSession slot (C.hashMulti data)
    match ← resultOf (loadDek C) with
    | .error _ => return some swExecError
    | .ok _ => do
      modifyRam (·.setSession slot (C.pinDeriveSession data))
      let sealed ← sealDek C (C.pinDeriveSession data)
      match ← resultOf (filePut slot.file sealed) with
      | .error _ => return some swMemoryFailure
      | .ok _ => do
        let d ← getState
        match ← resultOf (filePut efDek (withoutOldCopy (fileData d efDek) slot)) with
        | .error _ => return some swMemoryFailure
        | .ok _ => return none

/-- What `check_pin` grants. -/
def grantPin (p2 : UInt8) : CardProg UInt16 := do
  modifyRam fun ram ↦ { ram with isUserAuthenticated := true }
  modifyRam fun ram ↦
    if fid = efPw1 then (ram.grant .pw1 p2).setSession .pw1 (C.pinDeriveSession data)
    else if fid = efPw3 then (ram.grant .pw3 p2).setSession .pw3 (C.pinDeriveSession data)
    else ram
  let recovered ← resultOf (
    if fid = efPw1 then pinTxnRecover C .pw1 data
    else if fid = efPw3 then pinTxnRecover C .pw3 data
    else if fid = efRc then pinTxnRecover C .rc data
    else pure ())
  match recovered with
  | .error _ => return swExecError
  | .ok _ => return swOk

/-- `check_pin`: the value of a PIN is compared, upgraded to the format of now and granted. -/
def checkPin (p2 : UInt8) : CardProg UInt16 := do
  let d ← getState
  if !hasData d fid then
    return swReferenceNotFound
  else if offeredPinLenImpossible d fid data.length then
    return swWrongData
  else do
    modifyRam fun ram ↦ { ram with isUserAuthenticated := false }
    let offset := if (fileData d fid).length = 33 then 1 else 2
    let (sw, mismatch) ← pinCheckVerifier C fid data offset
    (if mismatch then clearPinAccessStatus fid p2 else pure ())
    if sw ≠ swOk then
      return sw
    else do
      let upgraded ← (if offset = 1 then upgradePin C fid data p2 else pure none)
      match upgraded with
      | some sw => return sw
      | none => grantPin C fid data p2

/-! ### Start-up -/

/-- A default content, for a file without `data`. -/
def scanFile (content : Bytes) : CardProg Unit := do
  let d ← getState
  if (d.read (.ef fid)).isSome then pure () else filePutIgnoring fid content

/-- The PW1 that a card starts with. -/
def defaultPw1 : Bytes :=
  [0x31, 0x32, 0x33, 0x34, 0x35, 0x36]

/-- The PW3 that a card starts with, which is also a resetting code that is not taken, and the PUK. -/
def defaultPw3 : Bytes :=
  [0x31, 0x32, 0x33, 0x34, 0x35, 0x36, 0x37, 0x38]

/-- The PIV PIN that a card starts with. -/
def defaultPivPin : Bytes :=
  [0x31, 0x32, 0x33, 0x34, 0x35, 0x36, 0xff, 0xff]

/-- The copy of a key under a PIN that a card starts with. -/
def scanDek (pin dek : Bytes) : CardProg Unit := do
  let d ← getState
  modifyRam fun ram ↦ { ram.setSession slot (List.replicate 32 0) with draws := ram.draws + 1 }
  filePutIgnoring slot.file (3 :: C.encryptWithAad d.ram.draws (C.pinDeriveSession pin) dek)

/-- Whether `scan_files_openpgp` makes a key. -/
def provisions (d : CardDevice) : Bool :=
  !hasData d efPw1 && !hasData d efPw3 && (!hasData d efDekPw1 || !hasData d efDekPw3) &&
    !hasData d efDekRc && !hasData d efDek

/-- The PIN that `scan_files_openpgp` and `scan_files_piv` store. -/
def scanPin (reset : Bool) (pin : Bytes) : CardProg Unit := do
  let d ← getState
  if !(d.read (.ef fid)).isSome || reset then filePutIgnoring fid (pinRecord C pin) else pure ()

/-- `scan_files_openpgp`: the records that are not there, and a new key if there are no PINs. -/
def scanFilesOpenpgp : CardProg Unit := do
  let d ← getState
  let resetDek := provisions d
  (if resetDek then do
    modifyRam fun ram ↦ { ram with draws := ram.draws + 1 }
    scanDek C .pw1 defaultPw1 (C.randomDek d.ram.draws)
    scanDek C .pw3 defaultPw3 (C.randomDek d.ram.draws)
  else pure ())
  scanPin C efPw1 resetDek defaultPw1
  scanPin C efPw3 resetDek defaultPw3
  scanFile efSigCount [0, 0, 0]
  scanFile efPwPriv [1, 127, 127, 127, 3, 0, 3]
  restorePwStatusLimits
  let d ← getState
  (if !hasData d efRc || resetDek || pinRecordMatchesValue C (fileData d efRc) defaultPw3 then do
    let _ ← resultOf resetCodeDeactivate
  else pure ())
  scanFile efUifSig [0, 0x20]
  scanFile efUifDec [0, 0x20]
  scanFile efUifAut [0, 0x20]
  scanFile efKdf [0x81, 1, 0]
  scanFile efSex [0x30]
  scanFile efPwRetries [1, 3, 3, 3]

/-- `scan_files_piv`, for the records of the PINs. -/
def scanFilesPiv : CardProg Unit := do
  let d ← getState
  let status := fileData d efPwPriv
  (if status.length = 0 then filePutIgnoring efPwPriv [1, 127, 127, 127, 3, 3, 3, 3, 3]
  else if status.length = 7 then filePutIgnoring efPwPriv (status ++ [3, 3])
  else pure ())
  let d ← getState
  let retries := fileData d efPwRetries
  (if retries.length = 0 then filePutIgnoring efPwRetries [1, 3, 3, 3, 3, 3]
  else if retries.length = 4 then filePutIgnoring efPwRetries (retries ++ [3, 3])
  else pure ())
  let d ← getState
  let resetDek := !hasData d efDekPwpiv
  (if resetDek then do
    modifyRam fun ram ↦ { ram with draws := ram.draws + 1 }
    scanDek C .pwpiv defaultPivPin (C.randomDek d.ram.draws)
  else pure ())
  scanPin C efPivPin resetDek defaultPivPin
  scanPin C efPivPuk false defaultPw3

/-! ### A card to run -/

/-- The first 32 bytes, filled up with zeros. -/
def plainKey : Bytes :=
  (data ++ List.replicate 32 0).take 32

@[simp]
theorem length_plainKey : (plainKey data).length = 32 := by
  simp [plainKey]

/-- A cryptography to run the functions with: the key of a ciphertext stands before the data. -/
def plainCardCrypto : CardCrypto where
  doubleHashPin := plainKey
  pinDeriveVerifier := plainKey
  hashMulti := plainKey
  pinDeriveSession := plainKey
  encryptWithAad draw key data :=
    List.replicate 12 (.ofNat draw) ++ ((plainKey key).take 16 ++ data)
  decryptWithAad key data :=
    if slice data 12 16 = (plainKey key).take 16 then some (data.drop 28) else none
  aesDecryptCfb256 _ _ data := data
  randomDek draw := .ofNat draw :: List.replicate 47 0
  length_doubleHashPin := length_plainKey
  length_pinDeriveVerifier := length_plainKey
  length_encryptWithAad draw key data := by
    simp only [List.length_append, List.length_replicate, List.length_take, length_plainKey]
    omega
  length_randomDek _ := rfl
  decryptWithAad_encryptWithAad draw key data := by
    rw [if_pos (by simp [slice]), List.drop_append, List.drop_append]
    simp

/-- The memory after the start. -/
def cardRamStart : CardRam where
  app := none
  hasPw1 := false
  hasPw2 := false
  hasPw3 := false
  hasRc := false
  hasPwpiv := false
  hasMgm := false
  sessionPw1 := List.replicate 32 0
  sessionRc := List.replicate 32 0
  sessionPw3 := List.replicate 32 0
  sessionPwpiv := List.replicate 32 0
  dek := List.replicate 48 0
  isUserAuthenticated := false
  currentEF := none
  isGpg := false
  draws := 0
  off := false
  history := []

/-- A card whose PINs are those that it starts with. -/
def cardStart : CardDevice where
  files :=
    { view := fun
        | .ef 0x1081 => some (pinRecord plainCardCrypto defaultPw1)
        | .ef 0x1083 => some (pinRecord plainCardCrypto defaultPw3)
        | .ef 0x1184 => some (pinRecord plainCardCrypto defaultPivPin)
        | .ef 0x1185 => some (pinRecord plainCardCrypto defaultPw3)
        | .ef 0x109a => some (3 :: plainCardCrypto.encryptWithAad 0 (plainKey defaultPw1)
            (List.replicate 48 9))
        | .ef 0x109c => some (3 :: plainCardCrypto.encryptWithAad 0 (plainKey defaultPw3)
            (List.replicate 48 9))
        | .ef 0x109d => some (3 :: plainCardCrypto.encryptWithAad 0 (plainKey defaultPivPin)
            (List.replicate 48 8))
        | .ef 0x10c4 => some [1, 127, 127, 127, 3, 0, 3, 3, 3]
        | .ef 0x10c5 => some [1, 3, 3, 3, 3, 3]
        | .ef 0x0093 => some [0, 0, 0]
        | .ef 0x00f9 => some [0x81, 1, 0]
        | _ => none
      stale := fun _ ↦ [] }
  faults _ := []
  ram := cardRamStart

end PicoAll.Openpgp
