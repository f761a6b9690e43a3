import PicoAll.Openpgp.PutData

/-!
# The commands of the PINs

The commands of both applets that check, change or reset a PIN, the selection of an applet, and the
card as a machine that runs them.
-/

namespace PicoAll.Openpgp

open FaultProgram

/-! ### VERIFY, CHANGE PIN, RESET RETRY -/

variable (ram : CardRam) (p2 : UInt8)

/-- What VERIFY with P1=FF takes back. -/
def CardRam.forgetPin : Option CardRam :=
  if p2 = 0x81 then some { ram with hasPw1 := false }
  else if p2 = 0x82 then some { ram with hasPw2 := false }
  else if p2 = 0x83 then some { ram with hasPw3 := false }
  else none

/-- Whether VERIFY without a PIN is answered that it has been given. -/
def CardRam.verified : Bool :=
  p2 = 0x81 && ram.hasPw1 || p2 = 0x82 && ram.hasPw2 || p2 = 0x83 && ram.hasPw3

/-- The file that VERIFY looks for. -/
def verifyFid : ℕ :=
  if 0x1000 + p2.toNat = efRc then efPw1 else 0x1000 + p2.toNat

variable (C : CardCrypto)

/-- VERIFY: check a PIN, take back that it has been given, or say what is left of its counter. -/
def cmdVerify (p1 p2 : UInt8) (data : Bytes) : CardProg UInt16 := do
  let d ← getState
  if p1 = 0xff then
    if data ≠ [] then
      return swWrongData
    else
      match d.ram.forgetPin p2 with
      | none => return swWrongP1P2
      | some ram => do
        modifyRam fun _ ↦ ram
        return swOk
  else if p1 ≠ 0 ∨ p2 &&& 0x60 ≠ 0 then
    return swWrongP1P2
  else if fileSearchByFid (verifyFid p2) = none ∨ byteAt d (verifyFid p2) 0 = 0 then
    return swReferenceNotFound
  else if data ≠ [] then
    checkPin C (verifyFid p2) data p2
  else if d.ram.verified p2 then
    return swOk
  else
    return swRetries (byteAt d efPwPriv (retryIndex (verifyFid p2)))

/-- The PIN of P2, for CHANGE PIN. -/
def changePinSlot : Option DekSlot :=
  if p2 = 0x81 then some .pw1
  else if p2 = 0x83 then some .pw3
  else none

/-- What `cmd_change_pin` does with the new PIN, once the old one is right. -/
def changePin (slot : DekSlot) (newPin : Bytes) : CardProg UInt16 := do
  match ← resultOf (loadDek C) with
  | .error _ => return swExecError
  | .ok _ =>
    if checkPinLen slot.pin newPin.length ≠ swOk then
      return checkPinLen slot.pin newPin.length
    else do
      modifyRam (·.setSession slot (C.pinDeriveSession newPin))
      let sealed ← sealDek C (C.pinDeriveSession newPin)
      match ← resultOf (pinTxnStage C slot.pin (pinRecord C newPin) (C.pinDeriveSession newPin)) with
      | .error _ => return swExecError
      | .ok _ =>
        match ← resultOf (storePin slot (pinRecord C newPin) sealed) with
        | .error _ => return swMemoryFailure
        | .ok _ => return swOk

/-- CHANGE PIN: the old PIN, as long as the verifier says, and behind it the new one. -/
def cmdChangePin (p1 p2 : UInt8) (data : Bytes) : CardProg UInt16 := do
  let d ← getState
  if p1 ≠ 0 then
    return swWrongP1P2
  else
    match changePinSlot p2 with
    | none => return swReferenceNotFound
    | some slot =>
      let pinLen := (byteAt d slot.pin 0).toNat
      if data.length < pinLen then
        return swWrongLength
      else do
        let sw ← checkPin C slot.pin (data.take pinLen) p2
        if sw ≠ swOk then
          return sw
        else
          changePin C slot (data.drop pinLen)

/-- What `cmd_reset_retry` does with the new PW1, once it may. -/
def resetPw1 (newPin : Bytes) : CardProg UInt16 := do
  match ← resultOf (loadDek C) with
  | .error _ => return swExecError
  | .ok _ => do
    modifyRam (·.setSession .pw1 (C.pinDeriveSession newPin))
    let sealed ← sealDek C (C.pinDeriveSession newPin)
    match ← resultOf (do
      pinTxnStage C efPw1 (pinRecord C newPin) (C.pinDeriveSession newPin)
      storePin .pw1 (pinRecord C newPin) sealed
      notePin (.entitled efPw1)
      pinResetRetries efPw1 true) with
    | .error _ => return swMemoryFailure
    | .ok _ =>
      match ← resultOf (loadDek C) with
      | .error _ => return swExecError
      | .ok _ => return swOk

/-- The session of a resetting code. -/
def CardRam.openReset (key : Bytes) : CardRam :=
  { ram with
    hasRc := true
    sessionRc := key
    hasPw1 := false
    hasPw3 := false
    isUserAuthenticated := false }

/-- RESET RETRY: a new PW1, under the resetting code before it or under PW3. -/
def cmdResetRetry (p1 p2 : UInt8) (data : Bytes) : CardProg UInt16 := do
  if p2 ≠ 0x81 then
    return swReferenceNotFound
  else if p1 = 0 then do
    modifyRam fun ram ↦ { ram with hasPw1 := false }
    let d ← getState
    let pinLen := (byteAt d efRc 0).toNat
    if hasData d efRc = false ∨ pinLen = 0 then
      return swReferenceNotFound
    else if data.length ≤ pinLen then
      return swWrongLength
    else do
      let sw ← checkPin C efRc (data.take pinLen) p2
      if sw ≠ swOk then
        return sw
      else if checkPinLen efPw1 (data.drop pinLen).length ≠ swOk then
        return checkPinLen efPw1 (data.drop pinLen).length
      else do
        modifyRam (·.openReset (C.pinDeriveSession (data.take pinLen)))
        resetPw1 C (data.drop pinLen)
  else if p1 = 2 then do
    modifyRam fun ram ↦ { ram with hasPw1 := false }
    let d ← getState
    if d.ram.hasPw3 = false then
      return swConditionsNotSatisfied
    else if checkPinLen efPw1 data.length ≠ swOk then
      return checkPinLen efPw1 data.length
    else
      resetPw1 C data
  else
    return swIncorrectP1P2

/-! ### The commands of the PIV applet -/

abbrev pivPinWireSize : ℕ := 8

abbrev pivMaxRetries : UInt8 := 10

/-- VERIFY of the PIV applet. It has the PIV PIN only. -/
def cmdPivVerify (p1 p2 : UInt8) (data : Bytes) : CardProg UInt16 := do
  let d ← getState
  let zero : Bytes := List.replicate 32 0
  if p1 ≠ 0 ∧ p1 ≠ 0xff ∨ p2 ≠ 0x80 then
    return swIncorrectParams
  else if byteAt d efPivPin 0 = 0 then
    return swReferenceNotFound
  else if p1 = 0xff then
    if data ≠ [] then
      return swIncorrectParams
    else do
      modifyRam fun ram ↦ { ram with hasPwpiv := false, sessionPwpiv := zero }
      return swOk
  else if data ≠ [] ∧ data.length ≠ pivPinWireSize then do
    modifyRam fun ram ↦ { ram with hasPwpiv := false, sessionPwpiv := zero }
    return swIncorrectParams
  else if data ≠ [] then do
    modifyRam fun ram ↦ { ram with hasPwpiv := false }
    let (sw, _) ← pinCheckVerifier C efPivPin data 2
    if sw = swOk then do
      modifyRam fun ram ↦ { ram with hasPwpiv := true, sessionPwpiv := C.pinDeriveSession data }
      return sw
    else
      return sw
  else
    let retries := byteAt d efPwPriv (retryIndex efPivPin)
    if retries = 0 then return swPinBlocked
    else if d.ram.hasPwpiv then return swOk
    else return swRetries retries

/-- The reference of P2, for the CHANGE PIN of the PIV applet. -/
def pivReference : Option ℕ :=
  if p2 = 0x80 then some efPivPin
  else if p2 = 0x81 then some efPivPuk
  else none

/-- CHANGE PIN of the PIV applet: the old value and the new one, of eight bytes each. -/
def cmdPivChangePin (p1 p2 : UInt8) (data : Bytes) : CardProg UInt16 := do
  match (pivReference p2).filter fun _ ↦ p1 = 0 with
  | none => return swReferenceNotFound
  | some fid =>
    if data.length ≠ 2 * pivPinWireSize then
      return swIncorrectParams
    else do
      let (sw, _) ← pinCheckVerifier C fid (data.take pivPinWireSize) 2
      if sw ≠ swOk then
        return sw
      else do
        filePutIgnoring fid (pinRecord C (data.drop pivPinWireSize))
        return swOk

/-- `pin_reset_retries`, whose result is not looked at. -/
def pinResetRetriesIgnoring (fid : ℕ) : CardProg Unit := do
  notePin (.entitled fid)
  let _ ← resultOf (pinResetRetries fid true)

/-- RESET RETRY of the PIV applet: the PUK, and a new PIV PIN. -/
def cmdPivResetRetry (p1 p2 : UInt8) (data : Bytes) : CardProg UInt16 := do
  if p1 ≠ 0 ∨ p2 ≠ 0x80 then
    return swReferenceNotFound
  else if data.length ≠ 2 * pivPinWireSize then
    return swIncorrectParams
  else do
    let (sw, _) ← pinCheckVerifier C efPivPuk (data.take pivPinWireSize) 2
    if sw ≠ swOk then
      return sw
    else do
      filePutIgnoring efPivPin (pinRecord C (data.drop pivPinWireSize))
      pinResetRetriesIgnoring efPivPin
      return swOk

/-- SET RETRIES: new limits and the default values for the PIV PIN and the PUK. -/
def cmdSetRetries (p1 p2 : UInt8) : CardProg UInt16 := do
  let d ← getState
  let retries := fileData d efPwRetries
  if !d.ram.hasMgm || !d.ram.hasPwpiv then
    return swSecurityStatusNotSatisfied
  else if p1 > pivMaxRetries ∨ p2 > pivMaxRetries then
    return swIncorrectParams
  else if retries.length < 6 then
    return swWrongData
  else do
    filePutIgnoring efPwRetries ((retries.set 4 p1).set 5 p2)
    filePutIgnoring efPivPin (pinRecord C defaultPivPin)
    pinResetRetriesIgnoring efPivPin
    filePutIgnoring efPivPuk (pinRecord C defaultPw3)
    pinResetRetriesIgnoring efPivPuk
    return swOk

/-- `init_piv`, as far as PINs go. -/
def initPiv : CardProg Unit := do
  scanFilesPiv C
  modifyRam fun ram ↦ { ram with hasPwpiv := false, hasMgm := false }

/-- The files of the table that `cmd_reset` deletes first. -/
def pivResetFids : List ℕ :=
  pivAdminFids ++ pivKeyFids ++ [efPivKeyAttestation] ++ pivDataFids ++ pivMoreDataFids

/-- The files that `cmd_reset` deletes last. -/
def pivResetDeferredFids : List ℕ :=
  [efDekPwpiv, efPivPin, efPivPuk]

/-- The records of a PIV applet that has been reset. -/
def resetRecord (record : Bytes) (i : ℕ) : Bytes :=
  (record.set i 3).set (i + 1) 3

/-- `cmd_reset`. `vault` and `others` are that the vault and the files that are not in the table are
deleted. -/
def cmdPivReset (p1 p2 : UInt8) (data : Bytes) (vault others : Bool) :
    CardProg UInt16 := do
  let d ← getState
  let status := fileData d efPwPriv
  let retries := fileData d efPwRetries
  if p1 ≠ 0 ∨ p2 ≠ 0 then
    return swIncorrectP1P2
  else if data ≠ [] then
    return swWrongLength
  else if status.length ≠ 9 ∨ retries.length ≠ 6 then
    return swExecError
  else if status.getD (retryIndex efPivPin) 0 ≠ 0 ∨ status.getD (retryIndex efPivPuk) 0 ≠ 0 then
    return swIncorrectParams
  else
    match ← resultOf (do
      (if vault then pure () else FaultProgram.fail .execError)
      pivResetFids.forM flashClear
      (if others then pure () else FaultProgram.fail .execError)
      pivResetDeferredFids.forM flashClear
      filePut efPwRetries (resetRecord retries 4)
      notePin (.entitled efPivPin)
      notePin (.entitled efPivPuk)
      filePut efPwPriv (resetRecord status 7)) with
    | .error _ => return swExecError
    | .ok _ => do
      modifyRam fun ram ↦ { ram with
        sessionPwpiv := List.replicate 32 0
        dek := List.replicate dekSize 0 }
      initPiv C
      return swOk

/-! ### The card -/

/-- The applets that may be selected. -/
inductive CardApplet where
  | openpgp
  | piv
  /-- The management applet, which initialises the files of the PIV applet as well. -/
  | management
  /-- Any other. -/
  | other
  deriving DecidableEq

/-- What is selected afterwards. -/
def CardApplet.app : CardApplet → Option CardApp
  | openpgp => some .openpgp
  | piv => some .piv
  | management | other => none

/-- `unload` of the applet that is selected, and `clear_selection`. -/
def CardRam.unload : CardRam :=
  { ram with
    app := none
    hasPw1 := ram.app ≠ some .openpgp && ram.hasPw1
    hasPw2 := ram.app ≠ some .openpgp && ram.hasPw2
    hasPw3 := ram.app ≠ some .openpgp && ram.hasPw3
    hasPwpiv := ram.app ≠ some .piv && ram.hasPwpiv
    hasMgm := ram.app ≠ some .piv && ram.hasMgm
    isUserAuthenticated := false
    currentEF := none }

/-- `openpgp_select_aid`, `piv_select_aid` and `man_select`. -/
def selectAid : CardApplet → CardProg Unit
  | .openpgp => do
    modifyRam fun ram ↦ { ram with
      isGpg := true
      isUserAuthenticated := false
      hasPw1 := false
      hasPw2 := false
      hasPw3 := false }
    scanFilesOpenpgp C
  | .piv => initPiv C
  | .management => do
    initPiv C
    modifyRam fun ram ↦ { ram with isGpg := false }
  | .other => pure ()

/-- `select_app`. `again` is that the name is the one under which the applet has been selected. -/
def selectApp (applet : CardApplet) (again : Bool) : CardProg UInt16 := do
  modifyRam fun ram ↦ if again ∧ ram.app = applet.app then ram else ram.unload
  selectAid C applet
  modifyRam fun ram ↦ { ram with app := applet.app }
  return swOk

/-- The commands. -/
inductive CardCommand where
  | select (applet : CardApplet) (again : Bool)
  | verify (p1 p2 : UInt8) (data : Bytes)
  | changePin (p1 p2 : UInt8) (data : Bytes)
  | resetRetry (p1 p2 : UInt8) (data : Bytes)
  | putData (requested : ℕ) (data : Bytes)
  /-- GET DATA and the like. -/
  | read (cmd : ReadCommand)
  /-- VERIFY of the PIV applet. -/
  | pivVerify (p1 p2 : UInt8) (data : Bytes)
  /-- CHANGE PIN of the PIV applet. -/
  | pivChangePin (p1 p2 : UInt8) (data : Bytes)
  /-- RESET RETRY of the PIV applet. -/
  | pivResetRetry (p1 p2 : UInt8) (data : Bytes)
  | setRetries (p1 p2 : UInt8)
  /-- RESET of the PIV applet. -/
  | pivReset (p1 p2 : UInt8) (data : Bytes) (vault others : Bool)
  /-- The management key has been given. -/
  | authenticateMgm
  deriving DecidableEq

/-- The applet that has a command, if it is not for all. -/
def CardCommand.app : CardCommand → Option CardApp
  | select .. => none
  | verify .. | changePin .. | resetRetry .. | putData .. | read .. => some .openpgp
  | pivVerify .. | pivChangePin .. | pivResetRetry .. | setRetries .. | pivReset .. |
    authenticateMgm => some .piv

/-- What a command does in its applet. -/
def CardCommand.run (config : CardConfig) : CardCommand → CardProg UInt16
  | select applet again => selectApp C applet again
  | verify p1 p2 data => cmdVerify C p1 p2 data
  | changePin p1 p2 data => cmdChangePin C p1 p2 data
  | resetRetry p1 p2 data => cmdResetRetry C p1 p2 data
  | putData requested data => cmdPutData C config requested data
  | read cmd => do
    let d ← getState
    let (response, ram) := cmd.run config (fun fid ↦ d.read (.ef fid)) d.ram
    modifyRam fun _ ↦ ram
    return response.1
  | pivVerify p1 p2 data => cmdPivVerify C p1 p2 data
  | pivChangePin p1 p2 data => cmdPivChangePin C p1 p2 data
  | pivResetRetry p1 p2 data => cmdPivResetRetry C p1 p2 data
  | setRetries p1 p2 => cmdSetRetries C p1 p2
  | pivReset p1 p2 data vault others => cmdPivReset C p1 p2 data vault others
  | authenticateMgm => do
    modifyRam fun ram ↦ { ram with hasMgm := true }
    return swOk

/-- A command, if its applet is selected. -/
def CardCommand.dispatch (config : CardConfig) (c : CardCommand) :
    CardProg UInt16 := do
  let d ← getState
  if c.app = none ∨ c.app = d.ram.app then c.run C config else return swInsNotSupported

def cardMachine (config : CardConfig) :
    Machine CardFile (Option Bytes) CardRam Status CardCommand UInt16 where
  command := CardCommand.dispatch C config
  isOff ram := ram.off
  powerDown ram := { ram with off := true }
  restart ram := { cardRamStart with draws := ram.draws, history := ram.history }

end PicoAll.Openpgp
