import PicoAll.Fs.Tlv
import PicoAll.Lib.ByteBuffer
import PicoAll.Lib.WriteBack
import PicoAll.Transport.Apdu

/-!
# The OATH application

`oath.c`: credentials with a name, a key, a type and, for HOTP, a moving factor, each a list of TLV
items in a file of its own; an access code and an OTP PIN that protect them; and the commands.

A credential is either a legacy file, whose content is the list, or a container, which holds the list
and the metadata that are read to list the credentials and to look for a name. The container is one
content here: what it takes to replace the two together is the business of `oath_container.c`.

The slots of the OTP application stand among the files because a press on one of them computes its
code with `calculate_oath`.
-/

namespace PicoAll

open FaultProgram BigEndian ByteBuffer

/-! ### Files and memory -/

abbrev maxOathCred : ℕ := 255

/-- The files. -/
inductive OathFile where
  /-- `EF_OATH_CODE`, the access code. -/
  | code
  /-- `EF_OTP_PIN`, the OTP PIN with its retry counter. -/
  | otpPin
  /-- `EF_OATH_CRED + i`, a credential. -/
  | cred (i : Fin maxOathCred)
  /-- `EF_OTP_SLOT1 + i`, a slot of the OTP application. -/
  | otpSlot (i : Fin 4)
  deriving DecidableEq

/-- What a file holds. -/
inductive OathContent where
  /-- Bytes. -/
  | plain (data : Bytes)
  /-- The objects of a container. -/
  | container (credential metadata : Bytes)
  deriving DecidableEq

/-- What is done about the protections, for the history. -/
inductive OathNote where
  /-- The application is selected. -/
  | selected
  /-- A response to the challenge is right. -/
  | codeProven
  /-- A code is stored. -/
  | codeSet
  /-- A PIN is about to be stored where there is none. -/
  | pinSet
  /-- A PIN is compared with the one that is stored. -/
  | pinCompared (correct : Bool)
  deriving DecidableEq

/-- `oath_chain_state`: what SEND REMAINING goes on with, and the index of the next credential. -/
inductive OathChain where
  /-- `OATH_CHAIN_NONE`. -/
  | none
  /-- `OATH_CHAIN_LIST`. -/
  | list (next : ℕ) (ext : Bool)
  /-- `OATH_CHAIN_CALCULATE_ALL`. -/
  | calculateAll (next : ℕ) (p2 : UInt8) (challenge : Bytes)
  deriving DecidableEq

/-- The memory. -/
structure OathRam where
  /-- `current_app` is this one. -/
  current : Bool
  validated : Bool
  otpPinVerified : Bool
  /-- `oath_migration_done`. -/
  migrationDone : Bool
  challenge : Bytes
  /-- `oath_chain_state`. -/
  chain : OathChain
  /-- How much has been drawn from the random number generator. -/
  draws : ℕ
  /-- The power has been lost. -/
  off : Bool
  /-- The history, the latest first. -/
  history : List OathNote

/-- The hash functions of `get_oath_md_info`. -/
inductive OathHash where
  /-- `MBEDTLS_MD_SHA1`. -/
  | sha1
  /-- `MBEDTLS_MD_SHA256`. -/
  | sha256
  /-- `MBEDTLS_MD_SHA512`. -/
  | sha512
  deriving DecidableEq

/-- `mbedtls_md_get_size`. -/
def OathHash.size : OathHash → ℕ
  | sha1 => 20
  | sha256 => 32
  | sha512 => 64

/-- Cryptography, and what else the application is given. What depends on the random number generator
has the number of the draw as its first argument. -/
structure OathCrypto where
  /-- `mbedtls_md_hmac`, of a key and a message. -/
  hmac : OathHash → Bytes → Bytes → Bytes
  /-- `encrypt_with_aad` under the key of `oath_derive_key`. -/
  encryptWithAad : ℕ → Bytes → Bytes
  /-- `decrypt_with_aad` under the key of `oath_derive_key`. -/
  decryptWithAad : Bytes → Option Bytes
  pinDeriveVerifier : Bytes → Bytes
  doubleHashPin : Bytes → Bytes
  /-- `random_fill_buffer`, of the challenge. -/
  randomChallenge : ℕ → Bytes
  /-- `cap_supported(CAP_OATH)`. -/
  capSupported : Bool
  /-- `PICO_FIDO_VERSION_MAJOR` and `PICO_FIDO_VERSION_MINOR`. -/
  version : UInt8 × UInt8
  /-- `pico_serial_str`. -/
  serial : Bytes
  isNk : Bool
  length_hmac : ∀ hash key message, (hmac hash key message).length = hash.size
  decryptWithAad_encryptWithAad : ∀ draw plain,
    decryptWithAad (encryptWithAad draw plain) = some plain
  length_encryptWithAad : ∀ draw plain, (encryptWithAad draw plain).length = plain.length + 28
  length_pinDeriveVerifier : ∀ pin, (pinDeriveVerifier pin).length = 32

/-- The device. A file that is not there has no content. -/
abbrev OathDevice := Device OathFile (Option OathContent) OathRam

/-- Why a command ends early. -/
inductive OathError where
  /-- An error code of a function: no caller tells one from another. -/
  | storage
  /-- The status word of the command. -/
  | sw (w : UInt16)
  deriving DecidableEq

/-- A function of the application. -/
abbrev OathProg (α : Type) := Prog OathDevice OathError α

/-- `SW_OK` and the response, or what is more to come. -/
structure OathReply where
  /-- The status word. -/
  sw : UInt16
  /-- The response. -/
  data : Bytes
  deriving DecidableEq

/-- Change the memory. -/
def oathModifyRam (f : OathRam → OathRam) : OathProg Unit :=
  modifyState (·.setRam f)

/-- Note something in the history. -/
def noteOath (note : OathNote) : OathProg Unit :=
  oathModifyRam fun ram ↦ { ram with history := note :: ram.history }

variable (w : UInt16) (record : Bytes)

/-- End the command if there is nothing. -/
def orSw {α : Type} : Option α → OathProg α
  | none => FaultProgram.fail (.sw w)
  | some a => pure a

/-- End the command unless `b` holds. -/
def guardSw (b : Bool) : OathProg Unit :=
  if b then pure () else FaultProgram.fail (.sw w)

/-- End the command when a function reports an error. -/
def onStorageError {α : Type} (m : OathProg α) : OathProg α :=
  onError m fun _ ↦ FaultProgram.fail (.sw w)

/-- The bytes of a content, none if there is none. -/
def contentBytes : Option OathContent → Bytes
  | some (.plain data) => data
  | _ => []

variable (C : OathCrypto) (data : Bytes) (d : OathDevice)

/-- The bytes of a file. -/
def oathBytes (f : OathFile) : Bytes :=
  contentBytes (d.read f)

/-- `file_has_data`, of the access code. -/
def codeStored : Bool :=
  !(oathBytes d .code).isEmpty

/-- `file_has_data`, of the OTP PIN. -/
def otpPinStored : Bool :=
  !(oathBytes d .otpPin).isEmpty

/-! ### Tags -/

abbrev tagName : ℕ := 0x71

abbrev tagKey : ℕ := 0x73

abbrev tagChallenge : ℕ := 0x74

abbrev tagResponse : ℕ := 0x75

abbrev tagProperty : ℕ := 0x78

abbrev tagImf : ℕ := 0x7a

abbrev tagPassword : ℕ := 0x80

abbrev tagNewPassword : ℕ := 0x81

abbrev tagPwsLogin : ℕ := 0x83

abbrev tagPwsPassword : ℕ := 0x84

abbrev tagPwsMetadata : ℕ := 0x85

/-! ### Keys in the flash -/

abbrev oathSecureKeyOverhead : ℕ := 33

/-- `oath_secure_key_magic`, and `OATH_SECURE_KEY_VERSION`. -/
def oathSecureKeyHeader : Bytes :=
  [0x4f, 0x41, 0x54, 0x48, 1]

def oathKeyIsSecure (key : Bytes) : Bool :=
  decide (oathSecureKeyOverhead < key.length) && key.take 5 == oathSecureKeyHeader

def oathEncryptKey (draw : ℕ) (plain : Bytes) : Option Bytes :=
  if oathSecureKeyOverhead + plain.length > 0xffff then none
  else some (oathSecureKeyHeader ++ C.encryptWithAad draw plain)

def oathDecryptKey (stored : Bytes) : Option Bytes :=
  if stored.length > 0xffff then none
  else if oathKeyIsSecure stored then C.decryptWithAad (stored.drop 5)
  else some stored

def tlvAppend (tag : ℕ) (value : Bytes) : Bytes :=
  (if tag > 0xff then [.ofNat (tag / 256)] else []) ++
    .ofNat tag :: tlvFormatLen value.length ++ value

/-- What `oath_put_credential_data` writes. -/
def oathSealedData (draw : ℕ) (data : Bytes) : Option Bytes :=
  match tlvFindTag tagKey data with
  | none => some data
  | some key =>
    if oathKeyIsSecure key then
      some data
    else
      (oathEncryptKey C draw key).map fun encrypted ↦
        (tlvItems data).flatMap fun item ↦
          tlvAppend item.tag (if item.tag = tagKey then encrypted else item.value)

def oathPutCredentialData (i : Fin maxOathCred) (data : Bytes) :
    OathProg Unit := do
  let d ← getState
  match oathSealedData C d.ram.draws data with
  | none => FaultProgram.fail .storage
  | some content => do
    oathModifyRam fun ram ↦ { ram with draws := ram.draws + 1 }
    put .storage (.cred i) (some (.plain content))

def oathPutCodeKey (key : Bytes) : OathProg Unit := do
  let d ← getState
  match if oathKeyIsSecure key then some key else oathEncryptKey C d.ram.draws key with
  | none => FaultProgram.fail .storage
  | some content => do
    oathModifyRam fun ram ↦ { ram with draws := ram.draws + 1 }
    put .storage .code (some (.plain content))

def oathMigrateCredential (i : Fin maxOathCred) : OathProg Unit := do
  let d ← getState
  match d.read (.cred i) with
  | some (.plain data) =>
    match tlvFindTag tagKey data with
    | some key => if oathKeyIsSecure key then pure () else oathPutCredentialData C i data
    | none => pure ()
  | _ => pure ()

/-- `oath_migrate_secrets`. The credentials are visited in the order of the index there. -/
def oathMigrateSecrets : OathProg Unit := do
  let d ← getState
  if d.ram.migrationDone then
    pure ()
  else do
    (List.finRange maxOathCred).forM (oathMigrateCredential C)
    let d ← getState
    (if codeStored d && !oathKeyIsSecure (oathBytes d .code) then
      oathPutCodeKey C (oathBytes d .code) else pure ())
    oathModifyRam fun ram ↦ { ram with migrationDone := true }

/-! ### Credentials -/

/-- `present_oath_cred_fids`. -/
def presentOathCreds : List (Fin maxOathCred) :=
  (List.finRange maxOathCred).filter fun i ↦ (d.read (.cred i)).isSome

/-- The objects of a credential. -/
inductive OathObject where
  /-- `FIDO_OATH_OBJECT_CREDENTIAL`. -/
  | credential
  /-- `FIDO_OATH_OBJECT_METADATA`. -/
  | metadata
  deriving DecidableEq

/-- The bytes of an object of a content. -/
def OathContent.object : OathContent → OathObject → Bytes
  | plain data, _ => data
  | container credential _, .credential => credential
  | container _ metadata, .metadata => metadata

/-- `oath_credential_open`: the bytes of an object, if it can be read. -/
def oathCredentialOpen (i : Fin maxOathCred) (object : OathObject) :
    Option Bytes := do
  let content ← d.read (.cred i)
  let data := content.object object
  if data = [] ∨ data.length > 0xffff then none else some data

/-- The items of a credential that are repeated in its metadata. -/
def oathCredentialMetadata : Option Bytes := do
  let name ← tlvFindTag tagName data
  let key ← tlvFindTag tagKey data
  let passwordSafe := (tlvFindTag tagPwsLogin data).isSome || (tlvFindTag tagPwsPassword data).isSome ||
    (tlvFindTag tagPwsMetadata data).isSome
  let metadata := tlvAppend tagName name ++ tlvAppend tagKey (key.take 2) ++
    ((tlvFindTag tagProperty data).elim [] (tlvAppend tagProperty)) ++
    (if passwordSafe then tlvAppend tagPwsMetadata [] else [])
  if key.length < 2 ∨ metadata.length > 0xffff then none else some metadata

/-- `oath_container_create` or `oath_container_update`, with the metadata of the credential. -/
def oathContainerWrite (i : Fin maxOathCred) (data : Bytes) : OathProg Unit :=
  match oathCredentialMetadata data with
  | none => FaultProgram.fail .storage
  | some metadata => put .storage (.cred i) (some (.container data metadata))

/-- `oath_credential_write`, whose size has 16 bits. -/
def oathCredentialWrite (i : Fin maxOathCred) (data : Bytes) : OathProg Unit := do
  let d ← getState
  let data := data.take (data.length % 0x10000)
  match d.read (.cred i) with
  | some (.plain (_ :: _)) => oathPutCredentialData C i data
  | _ => oathContainerWrite i data

def findOathCred (name : Bytes) : Option (Fin maxOathCred) :=
  (presentOathCreds d).find? fun i ↦
    ((oathCredentialOpen d i .metadata).bind (tlvFindTag tagName)) == some name

/-! ### Codes -/

def getOathMdInfo (alg : UInt8) : Option OathHash :=
  if alg &&& 0x0f = 1 then some .sha1
  else if alg &&& 0x0f = 2 then some .sha256
  else if alg &&& 0x0f = 3 then some .sha512
  else none

/-- `(key[0] & OATH_TYPE_MASK) == OATH_TYPE_HOTP`. -/
def oathIsHotp (key : Bytes) : Bool :=
  key.headD 0 &&& 0xf0 == 0x10

abbrev oathResponseMaxSize : ℕ := 2036

/-- `oath_response_has_room`, when `used` bytes are taken. -/
def oathResponseHasRoom (used len : ℕ) : Bool :=
  decide (used + len ≤ oathResponseMaxSize)

/-- The four bytes that the low bits of the last one point to, without their sign. -/
def oathTruncate (hmac : Bytes) : Bytes :=
  let offset := (hmac.getD (hmac.length - 1) 0 &&& 0x0f).toNat
  [hmac.getD offset 0 &&& 0x7f, hmac.getD (offset + 1) 0, hmac.getD (offset + 2) 0,
    hmac.getD (offset + 3) 0]

/-- `calculate_oath`: what it appends to a response of which `used` bytes are taken. -/
def calculateOath (truncate : UInt8) (key message : Bytes) (used : ℕ) :
    Option Bytes :=
  if key.length < 2 then none
  else
    match getOathMdInfo (key.headD 0) with
    | none => none
    | some hash =>
      let hmac := C.hmac hash (key.drop 2) message
      if truncate = 1 then
        if oathResponseHasRoom used 7 then some (5 :: key.getD 1 0 :: oathTruncate hmac) else none
      else if oathResponseHasRoom used (hash.size + 2) then
        some (.ofNat (hash.size + 1) :: key.getD 1 0 :: hmac)
      else none

/-- Whether a touch is required: `PROP_TOUCH`. -/
def oathTouchRequired : Bool :=
  match tlvFindTag tagProperty record with
  | some (property :: _) => property &&& 2 != 0
  | _ => false

/-- The key of a credential, or the status word. -/
def oathLoadKey (record : Bytes) : Except UInt16 Bytes :=
  match tlvFindTag tagKey record with
  | none => .error swIncorrectParams
  | some stored =>
    match oathDecryptKey C stored with
    | none => .error swExecError
    | some key => if key.length < 2 then .error swExecError else .ok key

/-- End the command with the status word, if there is one. -/
def liftSw {α : Type} (x : Except UInt16 α) : OathProg α :=
  FaultProgram.liftExcept (x.mapError .sw)

/-! ### The commands on the credentials -/

/-- `if (validated == false)`. -/
def requireValidated : OathProg Unit := do
  guardSw swSecurityStatusNotSatisfied (← getState).ram.validated

def oathRequireOtpPin : OathProg Unit := do
  let d ← getState
  guardSw swSecurityStatusNotSatisfied (!otpPinStored d || d.ram.otpPinVerified)

/-- `SW_OK` without a response. -/
def oathDone : OathReply :=
  ⟨swOk, []⟩

/-- The data that `cmd_put` stores for a HOTP credential: with a moving factor of eight bytes at
least. -/
def putImf : Bytes :=
  match tlvFind tagImf data with
  | none => data ++ [0x7a, 8, 0, 0, 0, 0, 0, 0, 0, 0]
  | some imf =>
    if imf.value.length < 8 then
      let off := tlvOffset data imf
      patch (data.take off) (off - 1) [8] ++ List.replicate (8 - imf.value.length) 0 ++ data.drop off
    else
      data

/-- The first free slot. -/
def freeOathSlot : Option (Fin maxOathCred) :=
  (List.finRange maxOathCred).find? fun i ↦ (d.read (.cred i)).isNone

/-- PUT: a credential is stored, over the one of its name if there is one. -/
def cmdPut : OathProg OathReply := do
  requireValidated
  let key ← orSw swIncorrectParams (tlvFindTag tagKey data)
  guardSw swWrongData (decide (2 ≤ key.length))
  let name ← orSw swIncorrectParams (tlvFindTag tagName data)
  guardSw swWrongLength (!oathIsHotp key || decide (data.length ≤ 0xffff - 10))
  let record := if oathIsHotp key then putImf data else data
  let d ← getState
  let i ← orSw swFileFull ((findOathCred d name).or (freeOathSlot d))
  onStorageError swExecError (oathCredentialWrite C i record)
  return oathDone

/-- `oath_credential_delete`, of a credential that can be read. -/
def oathCredentialDelete (i : Fin maxOathCred) : OathProg Unit :=
  put .storage (.cred i) none

def cmdDelete : OathProg OathReply := do
  requireValidated
  let name ← orSw swIncorrectParams (tlvFindTag tagName data)
  let d ← getState
  let i ← orSw swDataInvalid (findOathCred d name)
  onStorageError swMemoryFailure (oathCredentialDelete i)
  return oathDone

/-- The record that `cmd_rename` writes: the new name in the place of the old one, and its length in
the byte before it. -/
def renamedRecord (record newName : Bytes) (name : TlvItem) : Bytes :=
  let off := tlvOffset record name
  patch (record.take off) (off - 1) [.ofNat newName.length] ++ newName ++ name.rest

/-- The names in the data of `cmd_rename`. -/
def renameNames : Option (Bytes × Bytes) := do
  if data.headD 0 ≠ 0x71 then none else
    let name ← tlvFind tagName data
    let newName ← tlvFindTag tagName name.rest
    if name.value = newName ∨ newName.length > 0xff then none else some (name.value, newName)

/-- RENAME: a credential gets another name. -/
def cmdRename : OathProg OathReply := do
  requireValidated
  let (name, newName) ← orSw swWrongData (renameNames data)
  let d ← getState
  let i ← orSw swDataInvalid (findOathCred d name)
  let record ← orSw swExecError (oathCredentialOpen d i .credential)
  let item ← orSw swWrongData (tlvFind tagName record)
  onStorageError swExecError (oathCredentialWrite C i (renamedRecord record newName item))
  return oathDone

/-- The moving factor of a HOTP credential is counted up, and what it was is returned. What the source
reads past the end of a record is not modelled. -/
def hotpAdvance (i : Fin maxOathCred) (record : Bytes) (imf : TlvItem) :
    OathProg Bytes := do
  let off := tlvOffset record imf
  let factor := slice record off 8
  guardSw swExecError (decide (factor.length = 8))
  onStorageError swMemoryFailure
    (oathCredentialWrite C i (patch record off (beBytes 8 (beNat factor + 1))))
  return factor

/-- `cmd_calculate`. `touched` is what `check_user_presence` returns. -/
def cmdCalculate (p2 : UInt8) (data : Bytes) (touched : Bool) :
    OathProg OathReply := do
  guardSw swIncorrectP1P2 (decide (p2 = 0 ∨ p2 = 1))
  requireValidated
  let challenge ← orSw swIncorrectParams (tlvFindTag tagChallenge data)
  let name ← orSw swIncorrectParams (tlvFindTag tagName data)
  let d ← getState
  let i ← orSw swDataInvalid (findOathCred d name)
  let record ← orSw swExecError (oathCredentialOpen d i .credential)
  let key ← liftSw (oathLoadKey C record)
  guardSw swIncorrectParams (!oathIsHotp key || (tlvFind tagImf record).isSome)
  guardSw swConditionsNotSatisfied (!oathTouchRequired record || touched)
  let message ← (match tlvFind tagImf record with
    | some imf => if oathIsHotp key then hotpAdvance C i record imf else pure challenge
    | none => pure challenge)
  let response ← orSw swExecError (calculateOath C p2 key message 1)
  return ⟨swOk, (.ofNat tagResponse + p2) :: response⟩

/-- VERIFY CODE: the code is compared with the one of the stored moving factor. -/
def cmdVerifyHotp (touched : Bool) : OathProg OathReply := do
  requireValidated
  oathRequireOtpPin
  let name ← orSw swIncorrectParams (tlvFindTag tagName data)
  let d ← getState
  let i ← orSw swDataInvalid (findOathCred d name)
  let record ← orSw swExecError (oathCredentialOpen d i .credential)
  let key ← liftSw (oathLoadKey C record)
  guardSw swDataInvalid (oathIsHotp key)
  let imf ← orSw swIncorrectParams (tlvFindTag tagImf record)
  guardSw swConditionsNotSatisfied (!oathTouchRequired record || touched)
  let code ← orSw swIncorrectParams (tlvFindTag tagResponse data)
  guardSw swIncorrectParams (decide (code.length = 4))
  let response ← orSw swExecError (calculateOath C 1 key imf 0)
  let base := if response.getD 1 0 = 6 then 10 ^ 6 else 10 ^ 8
  guardSw swWrongData (decide (beField response 2 4 % base = beNat code))
  return oathDone

def oathResponseAppend (tag : ℕ) (value : Option Bytes) (response : Bytes) : Option Bytes :=
  match value with
  | none => some response
  | some value =>
    if value.length > 0xff ∨ !oathResponseHasRoom response.length (value.length + 2) then none
    else some (response ++ .ofNat tag :: .ofNat value.length :: value)

/-- GET CREDENTIAL: what a credential holds for a password safe. -/
def cmdGetCredential : OathProg OathReply := do
  requireValidated
  oathRequireOtpPin
  guardSw swIncorrectParams (decide (3 ≤ data.length))
  guardSw swWrongData (data.headD 0 == 0x71)
  let name ← orSw swWrongData (tlvFindTag tagName data)
  let d ← getState
  let i ← orSw swDataInvalid (findOathCred d name)
  let record ← orSw swExecError (oathCredentialOpen d i .credential)
  let response ← orSw swWrongLength
    ([tagName, tagPwsLogin, tagPwsPassword, tagPwsMetadata, tagProperty].foldlM
      (fun response tag ↦ oathResponseAppend tag (tlvFindTag tag record) response) [])
  return ⟨swOk, response⟩

/-! ### Commands that answer in several responses -/

/-- What a credential adds to the response. -/
inductive ChainEntry where
  /-- Nothing. -/
  | skip
  /-- The command ends with `SW_WRONG_LENGTH`. -/
  | tooLong
  /-- Bytes, for which so many are asked for. -/
  | entry (len : ℕ) (data : Bytes)

/-- The loop over the credentials, from one of them on, as far as there is room. -/
def oathChainFrom (entry : ℕ → Bytes → ChainEntry) :
    List (Option Bytes) → ℕ → Bytes → Option (OathReply × ℕ)
  | [], next, response => some (⟨swOk, response⟩, next)
  | none :: records, next, response => oathChainFrom entry records (next + 1) response
  | some record :: records, next, response =>
    match entry response.length record with
    | .skip => oathChainFrom entry records (next + 1) response
    | .tooLong => none
    | .entry len data =>
      if oathResponseHasRoom response.length len then
        oathChainFrom entry records (next + 1) (response ++ data)
      else
        some (⟨swBytesRemaining00, response⟩, next)

/-- A response of a chain: `resume` is what SEND REMAINING goes on with. -/
def oathChainNext (object : OathObject) (entry : ℕ → Bytes → ChainEntry) (next : ℕ)
    (resume : ℕ → OathChain) : OathProg OathReply := do
  oathModifyRam fun ram ↦ { ram with chain := .none }
  requireValidated
  let d ← getState
  let records := (presentOathCreds d).map fun i ↦ oathCredentialOpen d i object
  let (reply, next) ← orSw swWrongLength (oathChainFrom entry (records.drop next) next [])
  (if reply.sw = swBytesRemaining00 then oathModifyRam fun ram ↦ { ram with chain := resume next }
    else pure ())
  return reply

/-- What `oath_list_next` adds for a credential. -/
def listEntry (ext : Bool) (metadata : Bytes) : ChainEntry :=
  match tlvFindTag tagName metadata, tlvFindTag tagKey metadata with
  | some name, some stored =>
    match oathDecryptKey C stored with
    | none => .skip
    | some key =>
      let extra := if ext then 1 else 0
      if key.length < 2 then .skip
      else if name.length > 0xff - (1 + extra) ∨ 3 + name.length + extra > oathResponseMaxSize then
        .tooLong
      else
        let passwordSafe := (tlvFindTag tagPwsLogin metadata).isSome ||
          (tlvFindTag tagPwsPassword metadata).isSome || (tlvFindTag tagPwsMetadata metadata).isSome
        let props : UInt8 := (if passwordSafe then 4 else 0) |||
          (if oathTouchRequired metadata then 1 else 0)
        .entry (3 + name.length + extra)
          (0x72 :: .ofNat (name.length + 1 + extra) :: key.headD 0 :: name ++
            if ext then [props] else [])
  | _, _ => .skip

def oathListNext (next : ℕ) (ext : Bool) : OathProg OathReply :=
  oathChainNext .metadata (fun _ ↦ listEntry C ext) next (.list · ext)

def cmdList : OathProg OathReply :=
  oathListNext C 0 (data == [1])

/-- What `oath_calculate_all_next` adds for a credential, when `used` bytes are taken. -/
def calculateAllEntry (p2 : UInt8) (challenge : Bytes) (used : ℕ) (record : Bytes) : ChainEntry :=
  match tlvFindTag tagName record, tlvFindTag tagKey record with
  | some name, some stored =>
    if name.length > 0xff then .tooLong
    else
      match oathDecryptKey C stored with
      | none => .skip
      | some key =>
        let quiet := oathIsHotp key || oathTouchRequired record
        let size := (getOathMdInfo (key.headD 0)).elim 0 fun hash ↦ hash.size + 3
        let resultLen := if quiet then 3 else if p2 = 1 then 7 else size
        let len := 2 + name.length + resultLen
        let head := 0x71 :: .ofNat name.length :: name
        if key.length < 2 then .skip
        else if resultLen = 0 ∨ len > oathResponseMaxSize then .tooLong
        else if oathIsHotp key then .entry len (head ++ [0x77, 1, key.getD 1 0])
        else if oathTouchRequired record then .entry len (head ++ [0x7c, 1, key.getD 1 0])
        else
          .entry len (head ++ (.ofNat tagResponse + p2) ::
            (calculateOath C p2 key challenge (used + head.length + 1)).getD [1, key.getD 1 0])
  | _, _ => .skip

def oathCalculateAllNext (next : ℕ) (p2 : UInt8) (challenge : Bytes) :
    OathProg OathReply :=
  oathChainNext .credential (calculateAllEntry C p2 challenge) next (.calculateAll · p2 challenge)

def cmdCalculateAll (p2 : UInt8) (data : Bytes) : OathProg OathReply := do
  guardSw swIncorrectP1P2 (decide (p2 = 0 ∨ p2 = 1))
  requireValidated
  let challenge ← orSw swIncorrectParams (tlvFindTag tagChallenge data)
  guardSw swIncorrectParams (decide (challenge.length ≤ 0xff))
  oathCalculateAllNext C 0 p2 challenge

def cmdSendRemaining : OathProg OathReply := do
  let d ← getState
  match d.ram.chain with
  | .none => return oathDone
  | .list next ext => oathListNext C next ext
  | .calculateAll next p2 challenge => oathCalculateAllNext C next p2 challenge

/-! ### The access code -/

/-- What `cmd_set_code` does for an empty code. -/
def deleteCode : OathProg OathReply := do
  let d ← getState
  let result ← resultOf (if (d.read .code).isSome then put .storage .code none else pure ())
  oathModifyRam fun ram ↦ { ram with validated := true }
  match result with
  | .ok _ => return oathDone
  | .error _ => FaultProgram.fail (.sw swMemoryFailure)

/-- The code that `cmd_set_code` is to store, with a proof that the caller has it. -/
def setCodeKey : Except UInt16 Bytes := do
  let key ← (tlvFindTag tagKey data).elim (.error swIncorrectParams) .ok
  if key.length = 1 ∨ key.length > 65 then .error swWrongData
  else if key = [] then .ok key
  else
    let challenge ← (tlvFindTag tagChallenge data).elim (.error swIncorrectParams) .ok
    let response ← (tlvFindTag tagResponse data).elim (.error swIncorrectParams) .ok
    let hash ← (getOathMdInfo (key.headD 0)).elim (.error swIncorrectParams) .ok
    if response = C.hmac hash key.tail challenge then .ok key else .error swDataInvalid

/-- SET CODE: a code replaces the OTP PIN, no data delete it. -/
def cmdSetCode : OathProg OathReply := do
  requireValidated
  if data = [] then
    deleteCode
  else do
    let key ← liftSw (setCodeKey C data)
    if key = [] then
      deleteCode
    else do
      oathModifyRam fun ram ↦ { ram with validated := false }
      let d ← getState
      (if otpPinStored d then onStorageError swMemoryFailure (put .storage .otpPin none) else pure ())
      oathModifyRam fun ram ↦
        { ram with challenge := C.randomChallenge ram.draws, draws := ram.draws + 1 }
      onStorageError swExecError (oathPutCodeKey C key)
      noteOath .codeSet
      return oathDone

/-- The hash function and the key of the code that is stored, or the status word. -/
def storedCode : Except UInt16 (OathHash × Bytes) :=
  match oathDecryptKey C (oathBytes d .code) with
  | none => .error swExecError
  | some key =>
    if key.length < 2 ∨ key.length > 65 then .error swWrongData
    else (getOathMdInfo (key.headD 0)).elim (.error swIncorrectParams) fun hash ↦ .ok (hash, key.tail)

/-- VALIDATE: the response to the challenge under the code. -/
def cmdValidate : OathProg OathReply := do
  let challenge ← orSw swIncorrectParams (tlvFindTag tagChallenge data)
  let response ← orSw swIncorrectParams (tlvFindTag tagResponse data)
  let d ← getState
  if !codeStored d then do
    oathModifyRam fun ram ↦ { ram with validated := true }
    FaultProgram.fail (.sw swDataInvalid)
  else do
    let (hash, key) ← liftSw (storedCode C d)
    guardSw swDataInvalid (response == C.hmac hash key d.ram.challenge)
    noteOath .codeProven
    oathModifyRam fun ram ↦ { ram with validated := true }
    return ⟨swOk, .ofNat tagResponse :: .ofNat hash.size :: C.hmac hash key challenge⟩

/-! ### The OTP PIN -/

abbrev maxOtpCounter : UInt8 := 3

/-- `OTP_PIN_LEGACY_SIZE` and `OTP_PIN_V1_SIZE`. -/
def otpPinSizeValid : Bool :=
  decide (record.length = 33 ∨ record.length = 34)

def otpPinMatches (record pin : Bytes) : Bool :=
  if record.length = 34 ∧ record.getD 1 0 = 1 then record.drop 2 == C.pinDeriveVerifier pin
  else if record.length = 33 ∧ pin ≠ [] then record.drop 1 == C.doubleHashPin pin
  else false

def otpPinRecordV1 (pin : Bytes) : Bytes :=
  maxOtpCounter :: 1 :: C.pinDeriveVerifier pin

/-- `otp_pin_match_result_t`. -/
inductive OtpPinMatchResult where
  /-- `OTP_PIN_MATCH`. -/
  | pinMatch
  /-- `OTP_PIN_MISMATCH`. -/
  | mismatch
  /-- `OTP_PIN_BLOCKED`. -/
  | blocked
  /-- `OTP_PIN_STORAGE_ERROR`. -/
  | storageError
  deriving DecidableEq

/-- The counter is written and reaches the flash. -/
def otpPinSpend : OathProg Unit := do
  put .storage .otpPin (some (.plain record))
  sync .storage .otpPin

/-- `oath_check_pin`: a try is taken off before the comparison. -/
def oathCheckPin (pin : Bytes) : OathProg OtpPinMatchResult := do
  let d ← getState
  let record := oathBytes d .otpPin
  if !otpPinSizeValid record then
    return .storageError
  else if record.headD 0 = 0 then
    return .blocked
  else do
    let spent := (record.headD 0 - 1) :: record.tail
    match ← resultOf (otpPinSpend spent) with
    | .error _ => return .storageError
    | .ok _ => do
      let stored := oathBytes (← getState) .otpPin
      if stored.length ≠ record.length ∨ stored.headD 0 ≠ spent.headD 0 then
        return .storageError
      else do
        let correct := otpPinMatches C stored pin
        noteOath (.pinCompared correct)
        return if correct then .pinMatch else .mismatch

/-- A PIN is written. -/
def otpPinWrite (pin : Bytes) : OathProg Unit :=
  onStorageError swMemoryFailure (put .storage .otpPin (some (.plain (otpPinRecordV1 C pin))))

/-- SET PIN, of the OTP PIN, if there is none. -/
def cmdSetOtpPin : OathProg OathReply := do
  requireValidated
  let d ← getState
  guardSw swConditionsNotSatisfied (!otpPinStored d)
  let pin ← orSw swIncorrectParams (tlvFindTag tagPassword data)
  noteOath .pinSet
  otpPinWrite C pin
  oathModifyRam fun ram ↦ { ram with otpPinVerified := false }
  return oathDone

/-- CHANGE PIN, of the OTP PIN. -/
def cmdChangeOtpPin : OathProg OathReply := do
  let d ← getState
  guardSw swConditionsNotSatisfied (otpPinSizeValid (oathBytes d .otpPin))
  let pin ← orSw swIncorrectParams (tlvFindTag tagPassword data)
  let newPin ← orSw swIncorrectParams (tlvFindTag tagNewPassword data)
  let result ← oathCheckPin C pin
  if result ≠ .pinMatch then do
    oathModifyRam fun ram ↦ { ram with otpPinVerified := false }
    FaultProgram.fail (.sw (if result = .storageError then swMemoryFailure
      else swSecurityStatusNotSatisfied))
  else do
    otpPinWrite C newPin
    oathModifyRam fun ram ↦ { ram with otpPinVerified := false }
    return oathDone

/-- VERIFY PIN, of the OTP PIN. -/
def cmdVerifyOtpPin : OathProg OathReply := do
  let d ← getState
  guardSw swConditionsNotSatisfied (otpPinSizeValid (oathBytes d .otpPin))
  oathModifyRam fun ram ↦ { ram with otpPinVerified := false }
  let pin ← orSw swIncorrectParams (tlvFindTag tagPassword data)
  let result ← oathCheckPin C pin
  if result = .storageError then
    FaultProgram.fail (.sw swMemoryFailure)
  else if result ≠ .pinMatch then do
    oathModifyRam fun ram ↦ { ram with validated := false }
    FaultProgram.fail (.sw swSecurityStatusNotSatisfied)
  else do
    otpPinWrite C pin
    oathModifyRam fun ram ↦ { ram with validated := true, otpPinVerified := true }
    return oathDone

/-! ### Selection and reset -/

/-- `cmd_reset` for one credential. -/
def resetCredential (i : Fin maxOathCred) : OathProg Unit := do
  let d ← getState
  match d.read (.cred i) with
  | some (.container _ _) => onStorageError swExecError (put .storage (.cred i) none)
  | some (.plain (_ :: _)) => putIgnoring .storage (.cred i) none
  | _ => pure ()

def cmdReset (p1 p2 : UInt8) : OathProg OathReply := do
  guardSw swIncorrectP1P2 (decide (p1 = 0xde ∧ p2 = 0xad))
  let d ← getState
  (presentOathCreds d).forM resetCredential
  (if (d.read .code).isSome then putIgnoring .storage .code none else pure ())
  (if (d.read .otpPin).isSome then putIgnoring .storage .otpPin none else pure ())
  oathModifyRam fun ram ↦ { ram with validated := true, otpPinVerified := false }
  return oathDone

def selectResponse (code : Bool) : Bytes :=
  [0x79, 3, C.version.1, C.version.2, 0, 0x71, 8] ++ C.serial.take 8 ++
    (if code then 0x74 :: .ofNat d.ram.challenge.length :: d.ram.challenge ++ [0x7b, 1, 1] else []) ++
    (if C.isNk then
      [0x8f, 8] ++ C.serial.take 8 ++
        (if otpPinStored d then [0x82, 1, (oathBytes d .otpPin).headD 0] else [])
    else [])

/-- `oath_select`: the selection migrates the secrets, and a stored code asks for a challenge. -/
def oathSelect : OathProg OathReply := do
  guardSw swFileNotFound C.capSupported
  let d ← getState
  let code := codeStored d
  oathModifyRam fun ram ↦
    { ram with
      chain := .none
      validated := !code && !otpPinStored d
      otpPinVerified := false }
  noteOath .selected
  oathMigrateSecrets C
  (if code then oathModifyRam fun ram ↦
    { ram with challenge := C.randomChallenge ram.draws, draws := ram.draws + 1 } else pure ())
  oathModifyRam fun ram ↦ { ram with current := true }
  return ⟨swOk, selectResponse C (← getState) code⟩

/-- `oath_unload`. -/
def OathRam.unload (ram : OathRam) : OathRam :=
  { ram with chain := .none, validated := false, otpPinVerified := false }

/-- `select_app` for this application. -/
def selectOath : OathProg OathReply := do
  let d ← getState
  match ← resultOf (oathSelect C) with
  | .ok reply => return reply
  | .error _ => do
    (if d.ram.current then pure () else oathModifyRam OathRam.unload)
    FaultProgram.fail (.sw swFileNotFound)

/-! ### Runs -/

/-- The commands. -/
inductive OathCommand where
  | select
  /-- SELECT of another application. -/
  | deselect
  | put (data : Bytes)
  | delete (data : Bytes)
  | setCode (data : Bytes)
  | reset (p1 p2 : UInt8)
  | rename (data : Bytes)
  | list (data : Bytes)
  | calculate (p2 : UInt8) (data : Bytes) (touched : Bool)
  | validate (data : Bytes)
  | calculateAll (p2 : UInt8) (data : Bytes)
  | sendRemaining
  | verifyCode (data : Bytes) (touched : Bool)
  | verifyPin (data : Bytes)
  | changePin (data : Bytes)
  | setPin (data : Bytes)
  | getCredential (data : Bytes)
  deriving DecidableEq

/-- `cmds`. -/
def OathCommand.handler : OathCommand → OathProg OathReply
  | select => selectOath C
  | deselect => do
    oathModifyRam fun ram ↦ if ram.current then { ram.unload with current := false } else ram
    return oathDone
  | put data => cmdPut C data
  | delete data => cmdDelete data
  | setCode data => cmdSetCode C data
  | reset p1 p2 => cmdReset p1 p2
  | rename data => cmdRename C data
  | list data => cmdList C data
  | calculate p2 data touched => cmdCalculate C p2 data touched
  | validate data => cmdValidate C data
  | calculateAll p2 data => cmdCalculateAll C p2 data
  | sendRemaining => cmdSendRemaining C
  | verifyCode data touched => cmdVerifyHotp C data touched
  | verifyPin data => cmdVerifyOtpPin C data
  | changePin data => cmdChangeOtpPin C data
  | setPin data => cmdSetOtpPin C data
  | getCredential data => cmdGetCredential data

/-- `oath_process_apdu`, and SELECT. -/
def OathCommand.run (c : OathCommand) : OathProg OathReply :=
  if c = select ∨ c = deselect then
    c.handler C
  else do
    let d ← getState
    guardSw swFileNotFound d.ram.current
    (if c = sendRemaining then pure ()
      else oathModifyRam fun ram ↦ { ram with chain := .none })
    guardSw swInsNotSupported C.capSupported
    c.handler C

/-- What a command answers: nothing when the power is lost, and no data with an error. -/
def oathOutput : Except (Exit OathError) OathReply → Option OathReply
  | .ok reply => some reply
  | .error (.code (.sw w)) => some ⟨w, []⟩
  | .error (.code .storage) => some ⟨swExecError, []⟩
  | .error .cut => none

/-- A command runs, and the power may be lost in it. -/
def runOath (c : OathCommand) (d : OathDevice) : Option OathReply × OathDevice :=
  let d' := (c.run C).final d []
  match (c.run C).result d [] with
  | .error .cut => (none, d'.setRam fun ram ↦ { ram with off := true })
  | result => (oathOutput result, d')

/-- What happens. `faults` is what the environment does to the writes of each file. -/
inductive OathEvent where
  | command (c : OathCommand) (faults : OathFile → List Outcome)
  /-- A file reaches the flash. -/
  | flush (f : OathFile)
  /-- The power is lost, unless it is already, and comes back: of each file what was `keep` contents
  back is found. -/
  | reboot (keep : OathFile → ℕ)

/-- The memory when the power comes back. -/
def OathRam.reboot (ram : OathRam) : OathRam :=
  { ram with
    current := false
    validated := true
    otpPinVerified := false
    migrationDone := false
    challenge := List.replicate 8 0
    chain := .none
    off := false }

/-- What happens to the device, and what it answers. While the power is lost nothing does but that it
comes back. -/
def OathEvent.step : OathEvent → Option OathReply × OathDevice
  | command c faults => if d.ram.off then (none, d) else runOath C c { d with faults := faults }
  | flush f => (none, if d.ram.off then d else { d with files := d.files.flush f })
  | reboot keep => (none, ⟨d.files.powerCut keep, fun _ ↦ [], d.ram.reboot⟩)

/-- What happens in a run: the events, each with the answer and the device after it. -/
def oathRun (C : OathCrypto) : OathDevice → List OathEvent → OathDevice
  | d, [] => d
  | d, event :: events => oathRun C (event.step C d).2 events

end PicoAll
