import PicoAll.Openpgp.GetData
import PicoAll.Openpgp.Kdf

/-!
# Writing the data objects

`cmd_put_data.c`: the object is named by the id of its file, or by another id for the resetting code,
the algorithm attributes and the status of the passwords; a cardholder certificate is the one that is
selected.
-/

namespace PicoAll.Openpgp

open FaultProgram

variable (ram : CardRam) (C : CardCrypto) (config : CardConfig) (d : CardDevice) (requested : ℕ)
  (ef : OpenpgpEf) (data : Bytes) (fid : ℕ)

def putDataAuthorized : Bool :=
  if fid = efPrivDo1 ∨ fid = efPrivDo3 then ram.hasPw2 else ram.hasPw3

/-- `fixed_do_max_size`, none for 0. -/
def fixedDoMaxSize : Option ℕ :=
  if fid ∈ [efFpSig, efFpDec, efFpAut, efFpCa1, efFpCa2, efFpCa3] then some 20
  else if fid ∈ [efTsSig, efTsDec, efTsAut] then some 4
  else none

def isAlgorithmAttr : Bool :=
  fid = efAlgoSig ∨ fid = efAlgoDec ∨ fid = efAlgoAut

/-- The file that `cmd_put_data` looks for. -/
def putDataFid : ℕ :=
  if requested = efResetCode then efRc
  else if isAlgorithmAttr requested then 0x1000 + requested
  else requested

/-- What `cmd_put_data` checks about a value. -/
def putDataValueOk : Bool :=
  data.length ≤ openpgpMaxDoSize &&
    (fixedDoMaxSize requested).all (data.length ≤ ·) &&
    (!isAlgorithmAttr requested || data = [] ||
      ¬(data.length > openpgpMaxAlgorithmAttrSize ∨ data.headD 0 = algoRsa ∧ data.length < 3) &&
        algorithmAttrSupported config data) &&
    (requested ≠ efChName || data.length ≤ 39) &&
    (requested ≠ efLangPref || data.length ≤ 8) &&
    (requested ≠ efSex ||
      (data.length ≤ 1 && data.all fun b ↦ b ∈ [0x30, 0x31, 0x32, 0x39]))

/-- A user interaction flag that has been made permanent is not to be taken back. -/
def uifPermanent : Bool :=
  requested ∈ [efUifSig, efUifDec, efUifAut] && hasData d ef.fid && byteAt d ef.fid 0 = 2 &&
    (data = [] || data.headD 0 ≠ 2)

/-- What `cmd_put_data` is to do. -/
inductive PutDataPlan where
  /-- `openpgp_kdf_update`. -/
  | kdf
  /-- Write a file. -/
  | file (ef : OpenpgpEf)

/-- The file that is selected, if it is the same. -/
def selectedOr : OpenpgpEf :=
  match ram.currentEF with
  | some cur => if cur.fid = ef.fid then cur else ef
  | none => ef

/-- The file that `cmd_put_data` writes, once it may. -/
def putDataTarget :
    Except UInt16 PutDataPlan :=
  if requested = efKdf then
    if data = [] then .error swWrongData else .ok .kdf
  else if requested = efPwStatus then
    if data.length ≠ 1 ∨ data.headD 0 > 1 then .error swWrongData
    else
      match fileSearchByFid efPwPriv with
      | none => .error swReferenceNotFound
      | some ef => .ok (.file (selectedOr ram ef))
  else if requested = efChCert then
    match ram.selectedCert with
    | some cur => .ok (.file cur)
    | none =>
      match fileSearchByFid efCh1 with
      | none => .error swReferenceNotFound
      | some ef => .ok (.file ef)
  else
    .ok (.file (selectedOr ram ef))

/-- What `cmd_put_data` checks before it writes. -/
def putDataPlan :
    Except UInt16 PutDataPlan :=
  if !putDataAuthorized d.ram requested then .error swSecurityStatusNotSatisfied
  else if !putDataValueOk config requested data then .error swWrongData
  else
    match fileSearchByFid (putDataFid requested) with
    | none => .error swWrongP1P2
    | some ef =>
      if !fileAuthenticateAction d.ram.isUserAuthenticated ef aclOpUpdateErase then
        .error swWrongP1P2
      else if uifPermanent d requested ef data then .error swConditionsNotSatisfied
      else putDataTarget d.ram requested ef data

/-- The record `EF_PW_PRIV` with another first byte, in seven bytes. -/
def putPwStatus (value : UInt8) : Bytes :=
  let status : Bytes :=
    if hasData d efPwPriv then
      ((fileData d efPwPriv).take 7 ++ List.replicate 7 0).take 7
    else [1, 127, 127, 127, 3, 0, 3]
  status.set 0 value

/-- A new resetting code. -/
def putResetCode : CardProg UInt16 := do
  if checkPinLen efRc data.length ≠ swOk then
    return swWrongData
  else do
    modifyRam fun ram ↦ { ram with hasRc := false }
    match ← resultOf (loadDek C) with
    | .error _ => return swExecError
    | .ok _ => do
      modifyRam (·.setSession .rc (C.pinDeriveSession data))
      let sealed ← sealDek C (C.pinDeriveSession data)
      match ← resultOf (pinTxnStage C efRc (pinRecord C data) (C.pinDeriveSession data)) with
      | .error _ => return swExecError
      | .ok _ =>
        match ← resultOf (do
          storePin .rc (pinRecord C data) sealed
          notePin (.entitled efRc)
          pinResetRetries efRc true) with
        | .error _ => return swMemoryFailure
        | .ok _ => return swOk

/-- The status word for a write. -/
def writeStatus (m : CardProg Unit) : CardProg UInt16 := do
  match ← resultOf m with
  | .error _ => return swMemoryFailure
  | .ok _ => return swOk

/-- What `cmd_put_data` writes. -/
def putDataWrite :
    CardProg UInt16 := do
  let d ← getState
  if ef.data ≠ .flash then
    return swOk
  else if data = [] then
    writeStatus (if ef.fid = efRc then resetCodeDeactivate else flashClear ef.fid)
  else if requested = efPwStatus then
    writeStatus (filePut ef.fid (putPwStatus d (data.headD 0)))
  else if ef.fid = efRc then
    putResetCode C data
  else
    writeStatus (filePut ef.fid data)

def cmdPutData :
    CardProg UInt16 := do
  let d ← getState
  match putDataPlan config d requested data with
  | .error sw => return sw
  | .ok .kdf => openpgpKdfUpdate C data
  | .ok (.file ef) => putDataWrite C requested ef data

end PicoAll.Openpgp
