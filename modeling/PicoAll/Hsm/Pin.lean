import PicoAll.Fs.Tlv
import PicoAll.Lib.WriteBack
import PicoAll.Transport.Apdu

/-!
# The PINs of the HSM

`sc_hsm.c`, `kek.c`, `cmd_verify.c`, `cmd_change_pin.c`, `cmd_reset_retry.c`, `cmd_initialize.c`: two
PINs, of the user and of the security officer, each with a verifier, a retry counter and a copy of
the master key `MKEK` that is encrypted under the PIN. A write of any of these files can fail or be
cut short, and reaches the flash later.

The history of the comparisons is kept in the memory beside what the source keeps there; no function
reads it.
-/

namespace PicoAll

open FaultProgram BigEndian

/-! ### Files and memory -/

/-- The files. -/
inductive HsmFile where
  /-- `EF_PIN1`. -/
  | pin1
  /-- `EF_PIN1_MAX_RETRIES`. -/
  | pin1MaxRetries
  /-- `EF_PIN1_RETRIES`. -/
  | pin1Retries
  /-- `EF_SOPIN`. -/
  | sopin
  /-- `EF_SOPIN_MAX_RETRIES`. -/
  | sopinMaxRetries
  /-- `EF_SOPIN_RETRIES`. -/
  | sopinRetries
  /-- `EF_MKEK`. -/
  | mkek
  /-- `EF_MKEK_SO`. -/
  | mkekSo
  /-- `EF_DEVOPS`. -/
  | devops
  /-- `EF_PUKAUT`. -/
  | pukaut
  /-- `EF_DKEK`. -/
  | dkek
  /-- `EF_PUK` and the files after it. -/
  | puk (i : ℕ)
  deriving DecidableEq

/-- The two PINs: `file_pin1` and `file_sopin`. -/
inductive HsmPin where
  | user
  /-- Of the security officer. -/
  | so
  deriving DecidableEq

namespace HsmPin

/-- The file of the verifier. -/
def file : HsmPin → HsmFile
  | user => .pin1
  | so => .sopin

/-- `pin->fid + 1`. -/
def maxRetries : HsmPin → HsmFile
  | user => .pin1MaxRetries
  | so => .sopinMaxRetries

/-- `pin->fid + 2`. -/
def retries : HsmPin → HsmFile
  | user => .pin1Retries
  | so => .sopinRetries

/-- The file of the master key under this PIN. -/
def mkek : HsmPin → HsmFile
  | user => .mkek
  | so => .mkekSo

end HsmPin

/-- What is done about PINs, for the history. -/
inductive HsmPinNote where
  /-- A value is compared with the verifier of a PIN, whose counter stands at `retries`. -/
  | compared (pin : HsmPin) (retries : UInt8) (correct : Bool)
  /-- The counter of the user PIN is reset under the PIN of the security officer. -/
  | soReset
  deriving DecidableEq

/-- The memory. -/
structure HsmRam where
  hasSessionPin : Bool
  hasSessionSopin : Bool
  hsmSessionPin : Bytes
  sessionSopin : Bytes
  isUserAuthenticated : Bool
  pukStatus : List UInt8
  /-- `mkek_mask`, if there is one. -/
  mkekMask : Option Bytes
  /-- How much has been drawn from the random number generator. -/
  draws : ℕ
  /-- The power has been lost. -/
  off : Bool
  /-- The history, the latest first. -/
  history : List HsmPinNote

/-- Cryptography, of which the functions of `crypto_utils.h` are used. What depends on the random
number generator has the number of the draw as its first argument. -/
structure HsmPinCrypto where
  doubleHashPin : Bytes → Bytes
  pinDeriveVerifier : Bytes → Bytes
  hashMulti : Bytes → Bytes
  pinDeriveSession : Bytes → Bytes
  /-- `encrypt_with_aad`: of a key and the data. -/
  encryptWithAad : ℕ → Bytes → Bytes → Bytes
  decryptWithAad : Bytes → Bytes → Option Bytes
  /-- `aes_decrypt_cfb_256`: of a key, an initialisation vector and the data. -/
  aesDecryptCfb256 : Bytes → Bytes → Bytes → Bytes
  /-- `crc32c`, as it is stored. -/
  crc32c : Bytes → Bytes
  /-- `random_bytes_get(MKEK_SIZE)`. -/
  randomMkek : ℕ → Bytes
  /-- `otp_key_1`, if there is one. -/
  otpKey1 : Option Bytes
  length_doubleHashPin : ∀ pin, (doubleHashPin pin).length = 32
  length_pinDeriveVerifier : ∀ pin, (pinDeriveVerifier pin).length = 32
  length_encryptWithAad : ∀ draw key data, (encryptWithAad draw key data).length = data.length + 28
  length_decryptWithAad : ∀ key data plain, decryptWithAad key data = some plain →
    plain.length + 28 = data.length
  length_aesDecryptCfb256 : ∀ key iv data, (aesDecryptCfb256 key iv data).length = data.length
  length_randomMkek : ∀ draw, (randomMkek draw).length = 48
  length_otpKey1 : ∀ key ∈ otpKey1, key.length = 32
  decryptWithAad_encryptWithAad : ∀ draw key data,
    decryptWithAad key (encryptWithAad draw key data) = some data

/-- The device, as far as the PINs go. A file without content has no `data`. -/
abbrev HsmDevice := Device HsmFile (Option Bytes) HsmRam

/-- Error codes. -/
inductive HsmError where
  /-- `PICOKEYS_ERR_BLOCKED`. -/
  | blocked
  /-- `PICOKEYS_NO_LOGIN`. -/
  | noLogin
  /-- `PICOKEYS_EXEC_ERROR`. -/
  | execError
  /-- `PICOKEYS_WRONG_DKEK`. -/
  | wrongDkek
  /-- `PICOKEYS_ERR_FILE_NOT_FOUND`. -/
  | fileNotFound
  /-- What `file_put_data` or `file_new` returns. -/
  | memory
  /-- A write behind the end of a buffer: what comes after it is not known. -/
  | outOfBounds
  deriving DecidableEq

/-- A function of the HSM. -/
abbrev HsmProg (α : Type) := Prog HsmDevice HsmError α

variable (C : HsmPinCrypto) (d : HsmDevice) (f : HsmFile) (pin : HsmPin) (data : Bytes)

/-- The bytes of a file, none if there is no `data`. -/
def fileData : Bytes :=
  (d.read f).getD []

/-- `file_has_data`. -/
def hsmFileHasData : Bool :=
  !(fileData d f).isEmpty

def fileReadUint8 : UInt8 :=
  (fileData d f).headD 0

/-- `file_put_data`. -/
def hsmFilePutData : HsmProg Unit :=
  put .memory f (some data)

/-- `file_put_data`, whose result is not looked at. -/
def hsmFilePutDataIgnoring : HsmProg Unit :=
  putIgnoring .memory f (some data)

/-- Change the memory. -/
def modifyRam (f : HsmRam → HsmRam) : HsmProg Unit :=
  modifyState (·.setRam f)

/-- Note something in the history. -/
def notePin (note : HsmPinNote) : HsmProg Unit :=
  modifyRam fun ram ↦ { ram with history := note :: ram.history }

/-! ### Status words and options -/

/-- `set_res_sw(0x63, 0xc0 | retries)`. -/
def swRetries (retries : UInt8) : UInt16 :=
  0x6300 + (0xc0 ||| retries).toUInt16

abbrev hsmOptRrc : ℕ := 0x0001

abbrev hsmOptTransportPin : ℕ := 0x0002

abbrev hsmOptCombinedAuth : ℕ := 0x0010

abbrev hsmOptRrcResetOnly : ℕ := 0x0020

abbrev hsmOptSecureLock : ℕ := 0x0400

def getDeviceOptions : ℕ :=
  if hsmFileHasData d .devops then beNat ((fileData d .devops).take 2) else 0

/-- Whether an option is set. -/
def hsmOption (option : ℕ) : Bool :=
  getDeviceOptions d &&& option ≠ 0

/-! ### Public key authentication -/

abbrev maxPuk : ℕ := 8

def pkaEnabled : Bool :=
  hsmFileHasData d .pukaut && fileReadUint8 d .pukaut > 0

def pkaQuorumMet : Bool :=
  let pukData := fileData d .pukaut
  hsmFileHasData d .pukaut &&
    (d.ram.pukStatus.take (min (pukData.headD 0).toNat maxPuk)).sum ≥ pukData.getD 2 0

def hsmUpdateUserAuth : HsmProg Unit := do
  let d ← getState
  if pkaEnabled d then
    let granted := pkaQuorumMet d && (!hsmOption d hsmOptCombinedAuth || d.ram.hasSessionPin)
    modifyRam fun ram ↦ { ram with isUserAuthenticated := granted }
  else
    pure ()

/-! ### The retry counters -/

def hsmPinResetRetries (force : Bool) : HsmProg Unit := do
  let d ← getState
  if fileReadUint8 d pin.retries = 0 ∧ force = false then
    FaultProgram.fail .blocked
  else
    hsmFilePutData pin.retries [fileReadUint8 d pin.maxRetries]

/-- `pin_wrong_retry`: a try is taken off, the last one blocks the PIN. -/
def pinWrongRetry : HsmProg UInt8 := do
  let d ← getState
  let retries := fileReadUint8 d pin.retries
  if retries > 0 then do
    hsmFilePutData pin.retries [retries - 1]
    if retries - 1 = 0 then FaultProgram.fail .blocked else return retries - 1
  else
    FaultProgram.fail .blocked

/-! ### The master key -/

abbrev mkekSizeOld : ℕ := 52

abbrev mkekFileSize : ℕ := 77

/-- `mkek_masked`, of the key between its initialisation vector and its checksum. -/
def mkekMasked (mkek : Bytes) : Option Bytes → Bytes
  | none => mkek
  | some mask => mkek.take 16 ++ ((mkek.drop 16).take 32).zipWith (· ^^^ ·) mask ++ mkek.drop 48

/-- What `load_mkek` does with the content of a file. -/
def openMkek (mask : Option Bytes) (key content : Bytes) :
    Except HsmError Bytes :=
  if content.length = mkekSizeOld then
    let masked := mkekMasked content mask
    let plain := masked.take 16 ++ C.aesDecryptCfb256 key (masked.take 16) (masked.drop 16)
    if C.crc32c ((plain.drop 16).take 32) ≠ plain.drop 48 then
      .error .wrongDkek
    else
      .ok ((mkekMasked plain C.otpKey1).take 48)
  else if content.length = mkekFileSize then
    if content.headD 0 = 3 then
      match C.decryptWithAad key content.tail with
      | none => .error .execError
      | some mkek => .ok mkek
    else
      .error .execError
  else
    .error .fileNotFound

variable (ram : HsmRam)

/-- The key of the session of a PIN. -/
def HsmRam.sessionKey : HsmPin → Bytes
  | .user => ram.hsmSessionPin
  | .so => ram.sessionSopin

/-- Whether there is a session of a PIN. -/
def HsmRam.hasSession : HsmPin → Bool
  | .user => ram.hasSessionPin
  | .so => ram.hasSessionSopin

/-- A session of a PIN. -/
def HsmRam.openSession (ram : HsmRam) (pin : HsmPin) (key : Bytes) : HsmRam :=
  match pin with
  | .user => { ram with hasSessionPin := true, hsmSessionPin := key }
  | .so => { ram with hasSessionSopin := true, sessionSopin := key }

/-- `store_mkek` for one of the PINs. -/
def storeMkekUnder (mkek : Bytes) (pin : HsmPin) : HsmProg Unit := do
  let d ← getState
  modifyRam fun ram ↦ { ram with draws := ram.draws + 1 }
  hsmFilePutDataIgnoring pin.mkek (3 :: C.encryptWithAad d.ram.draws (d.ram.sessionKey pin) mkek)

/-- `store_mkek`, which draws a key if it is given none. -/
def storeMkek (mkek : Option Bytes) : HsmProg Unit := do
  let d ← getState
  if !d.ram.hasSessionPin && !d.ram.hasSessionSopin then
    FaultProgram.fail .noLogin
  else do
    let key := mkek.getD (C.randomMkek d.ram.draws)
    modifyRam fun ram ↦ { ram with draws := ram.draws + 1 }
    (if d.ram.hasSessionPin then storeMkekUnder C key .user else pure ())
    (if d.ram.hasSessionSopin then storeMkekUnder C key .so else pure ())

/-- The PIN whose copy `load_mkek` reads. -/
def mkekSource : Option HsmPin :=
  if d.ram.hasSessionPin && hsmFileHasData d .mkek then some .user
  else if d.ram.hasSessionSopin && hsmFileHasData d .mkekSo then some .so
  else none

/-- `load_mkek`: the copy of a PIN that has a session, an old one rewritten in the format of now. -/
def loadMkek : HsmProg Bytes := do
  let d ← getState
  if !d.ram.hasSessionPin && !d.ram.hasSessionSopin then
    FaultProgram.fail .noLogin
  else
    match mkekSource d with
    | none => FaultProgram.fail .execError
    | some pin => do
      let content := fileData d pin.mkek
      let mkek ← liftExcept (openMkek C d.ram.mkekMask (d.ram.sessionKey pin) content)
      (if content.length = mkekSizeOld then storeMkek C (some mkek) else pure ())
      return mkek

/-! ### Checking a PIN -/

/-- The comparison in `hsm_check_pin`, if the verifier has one of the two formats. -/
def pinMatches (stored data : Bytes) : Option Bool :=
  if stored.length = 33 then some (stored.drop 1 = C.doubleHashPin data)
  else if stored.length = 34 then some (stored.drop 2 = C.pinDeriveVerifier data)
  else none

/-- The content of the file of a verifier. -/
def pinVerifier : Bytes :=
  .ofNat data.length :: 1 :: C.pinDeriveVerifier data

/-- What `hsm_check_pin` does for a verifier in the old format. -/
def upgradePin : HsmProg Unit := do
  modifyRam (·.openSession pin (C.hashMulti data))
  let mkek ← loadMkek C
  modifyRam (·.openSession pin (C.pinDeriveSession data))
  storeMkek C (some mkek)
  hsmFilePutData pin.file (pinVerifier C data)

/-- What `hsm_check_pin` clears. -/
def HsmRam.beginCheck (pka : Bool) : HsmRam :=
  { ram with
    isUserAuthenticated := ram.isUserAuthenticated && pka
    hasSessionPin := false
    hasSessionSopin := false }

/-- What `hsm_check_pin` grants. -/
def grantPin : HsmProg Unit := do
  let d ← getState
  modifyRam fun ram ↦ { ram with isUserAuthenticated := ram.isUserAuthenticated || !pkaEnabled d }
  modifyRam (·.openSession pin (C.pinDeriveSession data))
  hsmUpdateUserAuth

/-- `hsm_check_pin`: the value of a PIN is compared, upgraded to the format of now and granted. -/
def hsmCheckPin : HsmProg UInt16 := do
  let d ← getState
  if !hsmFileHasData d pin.file then
    return swReferenceNotFound
  else do
    modifyRam (·.beginCheck (pkaEnabled d))
    match pinMatches C (fileData d pin.file) data with
    | none => return swWrongData
    | some false => do
      notePin (.compared pin (fileReadUint8 d pin.retries) false)
      match ← resultOf (pinWrongRetry pin) with
      | .error _ => return swPinBlocked
      | .ok retries => return swRetries retries
    | some true => do
      notePin (.compared pin (fileReadUint8 d pin.retries) true)
      match ← resultOf (hsmPinResetRetries pin false) with
      | .error .blocked => return swPinBlocked
      | .error _ => return swMemoryFailure
      | .ok _ =>
        match ← resultOf (if (fileData d pin.file).length = 33 then upgradePin C pin data
          else pure ()) with
        | .error _ => return swMemoryFailure
        | .ok _ => do
          grantPin C pin data
          return swOk

/-! ### The commands -/

/-- `hsm_cmd_verify`, up to the check: the PIN and the value, or the status word. -/
def verifyTarget (p1 p2 : UInt8) (data : Bytes) : Except UInt16 (HsmPin × Bytes) :=
  if p1 ≠ 0 ∨ p2 &&& 0x60 ≠ 0 then
    .error swWrongP1P2
  else if p2 = 0x81 then
    if hsmOption d hsmOptTransportPin then .error swDataInvalid
    else if d.ram.hasSessionPin ∧ data = [] then .error swOk
    else if fileReadUint8 d .pin1 = 0 ∧ pkaEnabled d = false then .error swReferenceNotFound
    else if data ≠ [] then .ok (.user, data)
    else if fileReadUint8 d .pin1Retries = 0 then .error swPinBlocked
    else .error (swRetries (fileReadUint8 d .pin1Retries))
  else if p2 = 0x88 then
    if fileReadUint8 d .sopin = 0 then .error swReferenceNotFound
    else if data ≠ [] then .ok (.so, data)
    else if fileReadUint8 d .sopinRetries = 0 then .error swPinBlocked
    else if d.ram.hasSessionSopin then .error swOk
    else .error (swRetries (fileReadUint8 d .sopinRetries))
  else
    .error swReferenceNotFound

def hsmCmdVerify (p1 p2 : UInt8) (data : Bytes) : HsmProg UInt16 := do
  match verifyTarget (← getState) p1 p2 data with
  | .error sw => return sw
  | .ok (pin, value) => hsmCheckPin C pin value

/-- What `hsm_cmd_change_pin` and `hsm_cmd_reset_retry` do to set a PIN. -/
def replacePin (newPin : Bytes) : HsmProg UInt16 := do
  match ← resultOf (loadMkek C) with
  | .error _ => return swExecError
  | .ok mkek => do
    modifyRam (·.openSession pin (C.pinDeriveSession newPin))
    match ← resultOf (storeMkek C (some mkek)) with
    | .error _ => return swExecError
    | .ok _ => do
      hsmFilePutDataIgnoring pin.file (pinVerifier C newPin)
      return swOk

/-- What `hsm_cmd_change_pin` is asked: the PIN, its value and the new one. -/
structure ChangePinPlan where
  pin : HsmPin
  value : Bytes
  /-- The new value. -/
  newPin : Bytes

/-- `hsm_cmd_change_pin`, up to the check. -/
def changePinPlan (p1 p2 : UInt8) (data : Bytes) : Except UInt16 ChangePinPlan :=
  if p1 = 0 ∧ (p2 = 0x81 ∨ p2 = 0x88) then
    let pin := if p2 = 0x81 then HsmPin.user else .so
    let pinLen := (fileReadUint8 d pin.file).toNat
    if !hsmFileHasData d pin.file then .error swReferenceNotFound
    else if data.length ≤ pinLen ∨ data.length - pinLen > 16 then .error swWrongLength
    else .ok ⟨pin, data.take pinLen, data.drop pinLen⟩
  else
    .error swWrongP1P2

def hsmCmdChangePin (p1 p2 : UInt8) (data : Bytes) : HsmProg UInt16 := do
  match changePinPlan (← getState) p1 p2 data with
  | .error sw => return sw
  | .ok plan => do
    let sw ← hsmCheckPin C plan.pin plan.value
    if sw ≠ swOk then return sw else replacePin C plan.pin plan.newPin

/-- What `hsm_cmd_reset_retry` is asked: the PIN of the security officer, unless there is a session,
and the new PIN of the user, unless only the counter is to be reset. -/
structure ResetRetryPlan where
  /-- The PIN of the security officer. -/
  soPin : Option Bytes
  /-- The new PIN of the user. -/
  newPin : Option Bytes

/-- `hsm_cmd_reset_retry`, up to the check. The length of the new PIN is that of eight bits. -/
def resetRetryPlan (p1 p2 : UInt8) (data : Bytes) : Except UInt16 ResetRetryPlan :=
  let soPinLen := (fileReadUint8 d .sopin).toNat
  if p2 ≠ 0x81 then .error swReferenceNotFound
  else if !hsmFileHasData d .sopin then .error swReferenceNotFound
  else if !hsmOption d hsmOptRrc then .error swCommandNotAllowed
  else if p1 = 0 then
    if data.length ≤ soPinLen + 1 then .error swWrongLength
    else .ok ⟨some (data.take soPinLen),
      some (data.drop (data.length - (data.length - soPinLen) % 256))⟩
  else if p1 = 2 then
    if !d.ram.hasSessionSopin then .error swConditionsNotSatisfied
    else if data.length > 16 then .error swWrongLength
    else .ok ⟨none, some data⟩
  else if p1 = 1 then
    if !hsmOption d hsmOptRrcResetOnly then .error swCommandNotAllowed
    else if data.length ≠ soPinLen then .error swWrongLength
    else .ok ⟨some data, none⟩
  else if p1 = 3 then
    if !hsmOption d hsmOptRrcResetOnly then .error swCommandNotAllowed
    else if !d.ram.hasSessionSopin then .error swConditionsNotSatisfied
    else if data ≠ [] then .error swWrongLength
    else .ok ⟨none, none⟩
  else
    .error swIncorrectP1P2

/-- RESET RETRY COUNTER, with the SO-PIN or in a session of it, and with a new PIN or none. -/
def hsmCmdResetRetry (p1 p2 : UInt8) (data : Bytes) : HsmProg UInt16 := do
  match resetRetryPlan (← getState) p1 p2 data with
  | .error sw => return sw
  | .ok plan => do
    let sw ← (match plan.soPin with
      | some value => hsmCheckPin C .so value
      | none => pure swOk)
    if sw ≠ swOk then
      return sw
    else do
      notePin .soReset
      match ← resultOf (hsmPinResetRetries .user true) with
      | .error _ => return swMemoryFailure
      | .ok _ =>
        match plan.newPin with
        | none => return swOk
        | some newPin => replacePin C .user newPin

/-! ### Initialisation -/

/-- `scan_files` for one file. -/
def scanFile (content : Bytes) : HsmProg Unit := do
  let d ← getState
  if (d.read f).isSome then pure () else hsmFilePutDataIgnoring f content

def scanFiles : HsmProg Unit := do
  scanFile .pin1 (.replicate 33 0)
  scanFile .sopin (.replicate 33 0)
  scanFile .pin1Retries [3]
  scanFile .sopinRetries [15]
  scanFile .pin1MaxRetries [3]
  scanFile .sopinMaxRetries [15]

/-- `flash_clear_file`, whose result is not looked at. -/
def hsmFlashClearFile : HsmProg Unit :=
  putIgnoring .memory f none

/-- `file_initialize_flash(true)`, for the files that are not persistent. -/
def hsmFileInitializeFlash : HsmProg Unit := do
  [.pin1, .pin1MaxRetries, .pin1Retries, .sopin, .sopinMaxRetries, .sopinRetries, .pukaut,
    .dkek].forM hsmFlashClearFile
  ((List.range maxPuk).map HsmFile.puk).forM hsmFlashClearFile
  modifyRam fun ram ↦ { ram with isUserAuthenticated := false }

/-- Tag 0x81 or 0x82 of `cmd_initialize`. -/
def initializePin (value : Bytes) : HsmProg Unit := do
  let d ← getState
  if (d.read pin.file).isSome then do
    hsmFilePutDataIgnoring pin.file (pinVerifier C value)
    modifyRam (·.openSession pin (C.pinDeriveSession value))
  else
    pure ()

/-- Tag 0x91 of `cmd_initialize`, for one of the two files. -/
def initializeRetries (value : Bytes) : HsmProg Unit := do
  let d ← getState
  if (d.read f).isSome then hsmFilePutDataIgnoring f value else pure ()

/-- `file_new` and `file_put_data(tf, NULL, 0)`. -/
def fileNewEmpty : HsmProg Unit :=
  put .memory f (some [])

/-- The loop of `cmd_initialize`, for one item. -/
def initializeItem (item : TlvItem) : HsmProg Unit :=
  if item.tag = 0x80 then
    hsmFilePutDataIgnoring .devops item.value
  else if item.tag = 0x81 then
    initializePin C .user item.value
  else if item.tag = 0x82 then
    initializePin C .so item.value
  else if item.tag = 0x91 then do
    initializeRetries .pin1MaxRetries item.value
    initializeRetries .pin1Retries item.value
  else if item.tag = 0x92 then
    fileNewEmpty .dkek
  else if item.tag = 0x93 then do
    let puks := min (item.value.headD 0) 8
    hsmFilePutDataIgnoring .pukaut [puks, puks, item.value.getD 1 0, 0]
    ((List.range puks.toNat).map HsmFile.puk).forM fileNewEmpty
  else
    pure ()

/-- `cmd_initialize`, up to `store_mkek`: what follows makes the keys of the device, and writes none
of these files. -/
def cmdInitialize : HsmProg UInt16 := do
  let d ← getState
  if data = [] then
    return swOk
  else if hsmOption d hsmOptSecureLock ∧ d.ram.mkekMask = none then
    return swSecurityStatusNotSatisfied
  else do
    let before ← resultOf (loadMkek C)
    hsmFileInitializeFlash
    scanFiles
    modifyRam fun ram ↦
      { ram with hasSessionPin := false, hasSessionSopin := false, mkekMask := none }
    match ← resultOf ((tlvItems data).forM (initializeItem C)) with
    | .error _ => return swMemoryFailure
    | .ok _ => do
      let mkek ← (match before with
        | .ok mkek => pure (Except.ok mkek)
        | .error _ => resultOf (loadMkek C))
      match ← resultOf (storeMkek C mkek.toOption) with
      | .error _ => return swExecError
      | .ok _ => do
        modifyRam fun ram ↦ { ram with isUserAuthenticated := true }
        return swOk

/-! ### Runs -/

/-- The commands. -/
inductive HsmPinCommand where
  | verify (p1 p2 : UInt8) (data : Bytes)
  /-- CHANGE REFERENCE DATA. -/
  | changePin (p1 p2 : UInt8) (data : Bytes)
  /-- RESET RETRY COUNTER. -/
  | resetRetry (p1 p2 : UInt8) (data : Bytes)
  | initializeHsm (data : Bytes)
  deriving DecidableEq

def HsmPinCommand.run : HsmPinCommand → HsmProg UInt16
  | verify p1 p2 data => hsmCmdVerify C p1 p2 data
  | changePin p1 p2 data => hsmCmdChangePin C p1 p2 data
  | resetRetry p1 p2 data => hsmCmdResetRetry C p1 p2 data
  | initializeHsm data => cmdInitialize C data

/-- The value that a command hands to `hsm_check_pin`. -/
def HsmPinCommand.submission : HsmPinCommand → Option (HsmPin × Bytes)
  | verify p1 p2 data => (verifyTarget d p1 p2 data).toOption
  | changePin p1 p2 data =>
    (changePinPlan d p1 p2 data).toOption.map fun plan ↦ (plan.pin, plan.value)
  | resetRetry p1 p2 data => do
    let plan ← (resetRetryPlan d p1 p2 data).toOption
    plan.soPin.map (.so, ·)
  | initializeHsm _ => none

/-- What happens. `faults` is what the environment does to the writes of each file. -/
inductive HsmPinEvent where
  | command (c : HsmPinCommand) (faults : HsmFile → List Outcome)
  /-- A file reaches the flash. -/
  | flush (f : HsmFile)
  /-- The power is lost, unless it is already, and comes back: of each file what was `keep` contents
  back is found, and `scan_files` runs. -/
  | reboot (keep : HsmFile → ℕ) (faults : HsmFile → List Outcome)

/-- The memory when the power comes back. -/
def HsmRam.reboot : HsmRam :=
  { ram with
    hasSessionPin := false
    hasSessionSopin := false
    isUserAuthenticated := false
    pukStatus := .replicate maxPuk 0
    mkekMask := none
    off := false }

/-- A program runs, and the power may be lost in it. -/
def runHsm {α : Type} (m : HsmProg α) (d : HsmDevice) : HsmDevice :=
  let d' := m.final d []
  match m.result d [] with
  | .error .cut => d'.setRam fun ram ↦ { ram with off := true }
  | _ => d'

/-- What happens to the device. While the power is lost nothing does but that it comes back. -/
def HsmPinEvent.step : HsmPinEvent → HsmDevice
  | command c faults => if d.ram.off then d else runHsm (c.run C) { d with faults := faults }
  | flush f => if d.ram.off then d else { d with files := d.files.flush f }
  | reboot keep faults =>
    runHsm scanFiles ⟨d.files.powerCut keep, faults, d.ram.reboot⟩

end PicoAll
