import PicoAll.Fs.FileMeta
import PicoAll.Fs.TlvEdit
import PicoAll.Hsm.KeyContainer
import PicoAll.Hsm.KeyDomain

/-!
# Key usage counters

`get_key_counter` and `decrement_key_counter` of `sc_hsm.c`, and the commands that use a key:
`cmd_signature.c`, `cmd_decrypt_asym.c`, `cmd_derive_asym.c`, `cmd_cipher_sym.c`. The metadata of a
key is an item of `EF_META`, or, if the key is in a container, an object of the container. Tag 0x90
of it is a counter of four bytes.

Every command has its result before it decrements the counter, and does not look at what became of
the decrement. What stands behind the metadata in memory is taken to be zero.
-/

namespace PicoAll

open FaultProgram BigEndian ByteBuffer

/-- The tag of the usage counter. -/
abbrev tagKeyCounter : ℕ := 0x90

/-- The tag of the algorithms that the key may be used for. -/
abbrev tagKeyPurpose : ℕ := 0x91

/-! ### Files and memory -/

/-- The files. -/
inductive KeyFile where
  /-- Under `KEY_PREFIX`. -/
  | legacy (id : UInt8)
  /-- Under `HSM_OBJECT_PREFIX`: the marker of a container, or an object. -/
  | object (id : UInt8)
  /-- The private key in a container. -/
  | privateKey (id : UInt8)
  /-- The metadata in a container. -/
  | metadata (id : UInt8)
  /-- Under `PRKD_PREFIX`. -/
  | prkd (id : UInt8)
  /-- `EF_META`. -/
  | fileMeta
  /-- `EF_XKEK` and the files after it. -/
  | xkek (n : Fin maxKeyDomains)
  /-- `EF_DKEK` and the files after it. -/
  | dkek (n : Fin maxKeyDomains)
  deriving DecidableEq

/-- The memory. -/
structure KeyRam where
  isUserAuthenticated : Bool
  /-- There is a session PIN, of the user or of the security officer: the MKEK can be loaded. -/
  hasSession : Bool
  hdKeytype : UInt8
  /-- The power has been lost. -/
  off : Bool

abbrev KeyDevice := Device KeyFile (Option Bytes) KeyRam

/-- Programs over the device. The errors are status words: whatever goes wrong in a file or in a key
ends a command with `SW_EXEC_ERROR`. -/
abbrev KeyProg (α : Type) := Prog KeyDevice UInt16 α

/-- Cryptography. What is drawn at random in it makes no difference here. -/
structure KeyCrypto where
  /-- Open a record under the MKEK. -/
  openRecord : Bytes → Option Bytes
  /-- The record is one of `mkek_store_file`. -/
  isAead : Bytes → Bool
  /-- The record of `mkek_store_file`. -/
  sealRecord : Bytes → Bytes
  /-- The description of a key that is derived. -/
  prkd : UInt8 → Bytes → Bytes
  /-- A signature: of a key, an algorithm and the data. -/
  sign : Bytes → UInt8 → Bytes → Except UInt16 Bytes
  /-- A signature with `hd_context`. -/
  signHd : UInt8 → Bytes → Except UInt16 Bytes
  /-- What is decrypted, or agreed upon: of a key, an algorithm and the data. -/
  decrypt : Bytes → UInt8 → Bytes → Except UInt16 Bytes
  /-- The UID of a key domain and the key that is agreed upon for it. -/
  exchange : Bytes → Bytes → Except UInt16 (Bytes × Bytes)
  /-- A derived key. -/
  derive : Bytes → Bytes → Except UInt16 Bytes
  /-- What a secret key does: of a key, an algorithm and the data. -/
  cipher : Bytes → UInt8 → Bytes → Except UInt16 Bytes
  /-- What `hd_context` does, and `hd_keytype` then. -/
  cipherHd : UInt8 → UInt8 → Bytes → Except UInt16 (Bytes × UInt8)
  sealRecord_length : ∀ key, 8 < (sealRecord key).length

/-! ### Keys -/

variable (C : KeyCrypto) (d : KeyDevice) (id : UInt8) (f : KeyFile)

/-- `hsm_key_container_is_marker`. -/
def isKeyMarker (file : Option Bytes) : Bool :=
  file = some (containerMarker [0x50, 0x4b, 0x48, 0x31] id)

def hsmKeySearch : Option KeyFile :=
  let legacyPresent := fileHasData (d.read (.legacy id))
  let objectPresent := fileHasData (d.read (.object id))
  if legacyPresent && objectPresent then none
  else if objectPresent then some (.object id)
  else if (d.read (.legacy id)).isSome then some (.legacy id)
  else none

def hsmKeyOpenOrCreate : Option KeyFile :=
  let legacyPresent := fileHasData (d.read (.legacy id))
  let objectPresent := fileHasData (d.read (.object id))
  if legacyPresent && objectPresent then none
  else if legacyPresent then some (.legacy id)
  else if objectPresent then some (.object id)
  else if (d.read (.legacy id)).isSome then some (.legacy id)
  else some (.object id)

/-- The id of a key in `EF_META`. -/
def keyFid : UInt16 :=
  0xcc00 + id.toUInt16

def hsmKeyMetadataFind : Option Bytes :=
  if isKeyMarker id (d.read (.object id)) then
    (d.read (.metadata id)).filter fun metadata ↦
      0 < metadata.length ∧ metadata.length ≤ UINT16_MAX
  else
    (d.read .fileMeta).bind (metaFind · (keyFid id))

/-- The item of the counter, and the metadata that it is in. -/
def keyCounterItem : Option (Bytes × TlvItem) := do
  let metadata ← hsmKeyMetadataFind d id
  let item ← tlvFind tagKeyCounter metadata
  return (metadata, item)

/-- `get_uint32_be` where the value of an item begins. -/
def itemUint32 (metadata : Bytes) (item : TlvItem) : ℕ :=
  beNat ((metadata.drop (tlvOffset metadata item) ++ List.replicate 4 0).take 4)

def getKeyCounter : ℕ :=
  match keyCounterItem d id with
  | some (metadata, item) => itemUint32 metadata item
  | none => 0xffffffff

def keyHasPurpose (id purpose : UInt8) : Bool :=
  match (hsmKeyMetadataFind d id).bind (tlvFindTag tagKeyPurpose) with
  | some purposes => purposes.contains purpose
  | none => true

/-- A write of `hsm_key_container_update`, which returns when the objects have reached the flash. -/
def containerPut (data : Bytes) : KeyProg Unit := do
  let d ← getState
  if d.ram.isUserAuthenticated && d.ram.hasSession then do
    put swExecError f (some data)
    sync swExecError f
  else
    FaultProgram.fail swExecError

/-- `meta_add`, of a file that is there. -/
def keyMetaAdd (data : Bytes) : KeyProg Unit := do
  let d ← getState
  match d.read .fileMeta with
  | none => FaultProgram.fail swExecError
  | some content =>
    if data.length > UINT16_MAX then FaultProgram.fail swExecError
    else put swExecError .fileMeta (some (metaAddContent content (keyFid id) data))

/-- `decrement_key_counter`. The buffer that the number is written into is as long as the metadata:
what is written behind it is not stored. -/
def decrementKeyCounter : KeyProg ℕ := do
  let d ← getState
  match keyCounterItem d id with
  | none => return 0xffffffff
  | some (metadata, item) => do
    let val := (itemUint32 metadata item + (2 ^ 32 - 1)) % 2 ^ 32
    let cmeta := (patch metadata (tlvOffset metadata item) (beBytes 4 val)).take metadata.length
    onError (do
        (if isKeyMarker id (d.read (.object id)) then containerPut (.metadata id) cmeta
          else keyMetaAdd id cmeta)
        return val)
      fun _ ↦ return 0xffffffff

/-! ### Loading and storing keys -/

def mkekStoreFile (key : Bytes) : KeyProg Unit := do
  let d ← getState
  if d.ram.hasSession then put swExecError f (some (C.sealRecord key))
  else FaultProgram.fail swExecError

/-- `mkek_load_file`: an older record is stored again. -/
def mkekLoadFile : KeyProg Bytes := do
  let d ← getState
  match d.read f with
  | none => FaultProgram.fail swExecError
  | some record =>
    match if d.ram.hasSession then C.openRecord record else none with
    | none => FaultProgram.fail swExecError
    | some key => do
      (if C.isAead record then pure () else mkekStoreFile C f key)
      return key

/-- `mkek_load_key_file`, of the file of a key. -/
def mkekLoadKeyFile : KeyProg Bytes := do
  let d ← getState
  let authorized := d.ram.isUserAuthenticated && d.ram.hasSession
  if isKeyMarker id (d.read f) then
    match if authorized then d.read (.privateKey id) else none with
    | none => FaultProgram.fail swExecError
    | some key => return key
  else if f = .object id ∧ !authorized then
    FaultProgram.fail swExecError
  else
    mkekLoadFile C f

/-- `hsm_store_keys`, of an EC key. A container can be created or resumed as far as it is not there
or has a private key. -/
def hsmStoreKeys (key : Bytes) (id : UInt8) : KeyProg Unit := do
  let d ← getState
  if fileHasData (d.read (.legacy id)) && fileHasData (d.read (.object id)) then
    FaultProgram.fail swExecError
  else
    let existing := (hsmKeySearch d id).bind d.read
    if id ≠ 0 ∧ (isKeyMarker id existing ∨ (d.read (.privateKey id)).isSome ∨
        !fileHasData existing) then do
      containerPut (.privateKey id) key
      (if isKeyMarker id (d.read (.object id)) then pure ()
        else containerPut (.object id) (containerMarker [0x50, 0x4b, 0x48, 0x31] id))
    else
      match hsmKeyOpenOrCreate d id with
      | none => FaultProgram.fail swExecError
      | some f => do
        mkekStoreFile C f key
        put swExecError (.prkd id) (some (C.prkd id key))

/-! ### Commands -/

abbrev swSecureMessageExecError : UInt16 := 0x6600

abbrev algoEcDhXkek : UInt8 := 0x84

abbrev algoHd : UInt8 := 0xa0

abbrev algoEcDerive : UInt8 := 0x98

/-- The status word ends a command unless `b` holds. -/
def requireSw (w : UInt16) (b : Bool) : KeyProg Unit :=
  if b then pure () else FaultProgram.fail w

/-- What the commands ask of a key before they use it. Two of them look for its data. -/
def usableKey (id purpose : UInt8) (withData : Bool) : Except UInt16 KeyFile :=
  match hsmKeySearch d id with
  | none => .error swFileNotFound
  | some f =>
    if withData && !fileHasData (d.read f) then .error swFileNotFound
    else if getKeyCounter d id = 0 then .error swFileFull
    else if !keyHasPurpose d id purpose then .error swConditionsNotSatisfied
    else .ok f

/-- The end of a command: the result is there, and nothing comes of a decrement that failed. -/
def counted (m : KeyProg Bytes) : KeyProg Bytes := do
  let response ← m
  let _ ← decrementKeyCounter id
  return response

/-- The middle of `cmd_signature`. -/
def signatureResponse (p2 : UInt8) (data : Bytes) (touched : Bool) : KeyProg Bytes :=
  if 0x20 ≤ p2 ∧ p2 ≤ 0x45 ∨ 0x70 ≤ p2 ∧ p2 ≤ 0x75 then do
    requireSw swSecureMessageExecError touched
    let key ← mkekLoadKeyFile C id f
    FaultProgram.liftExcept (C.sign key p2 data)
  else if p2 = algoHd then do
    let d ← getState
    let response ← FaultProgram.liftExcept (C.signHd d.ram.hdKeytype data)
    modifyState (·.setRam fun ram ↦ { ram with hdKeytype := 0 })
    return response
  else
    FaultProgram.fail swIncorrectP1P2

def cmdSignature (id p2 : UInt8) (data : Bytes) (touched : Bool) :
    KeyProg Bytes := do
  let d ← getState
  requireSw swSecurityStatusNotSatisfied d.ram.isUserAuthenticated
  let f ← FaultProgram.liftExcept (usableKey d id p2 true)
  counted id (signatureResponse C id f p2 data touched)

/-- The loop of `cmd_decrypt_asym` over the key domains: the first one with a UID. -/
def findXkek (uid : Bytes) : Option (Fin maxKeyDomains) :=
  (List.finRange maxKeyDomains).find? fun n ↦ d.read (.xkek n) = some uid

/-- The middle of `cmd_decrypt_asym`. -/
def decryptResponse (p2 : UInt8) (data : Bytes) (touched : Bool) : KeyProg Bytes :=
  if 0x21 ≤ p2 ∧ p2 ≤ 0x23 ∨ p2 = 0x80 then do
    requireSw swSecureMessageExecError touched
    let key ← mkekLoadKeyFile C id f
    FaultProgram.liftExcept (C.decrypt key p2 data)
  else if p2 = algoEcDhXkek then do
    requireSw swSecureMessageExecError touched
    let key ← mkekLoadKeyFile C id f
    let agreed ← FaultProgram.liftExcept (C.exchange key data)
    let d ← getState
    match findXkek d agreed.1 with
    | none => FaultProgram.fail swReferenceNotFound
    | some n => do
      mkekStoreFile C (.dkek n) agreed.2
      return []
  else
    FaultProgram.fail swWrongP1P2

def cmdDecryptAsym (id p2 : UInt8) (data : Bytes) (touched : Bool) :
    KeyProg Bytes := do
  let d ← getState
  requireSw swSecurityStatusNotSatisfied d.ram.isUserAuthenticated
  let f ← FaultProgram.liftExcept (usableKey d id p2 false)
  counted id (decryptResponse C id f p2 data touched)

/-- The middle of `cmd_derive_asym`. -/
def deriveResponse (dest : UInt8) (data : Bytes) (touched : Bool) : KeyProg Bytes := do
  requireSw swWrongLength (!data.isEmpty)
  requireSw swWrongData (data.head? = some algoEcDerive)
  requireSw swSecureMessageExecError touched
  let key ← mkekLoadKeyFile C id f
  let derived ← FaultProgram.liftExcept (C.derive key (data.drop 1))
  hsmStoreKeys C derived dest
  return []

def cmdDeriveAsym (id dest : UInt8) (data : Bytes) (touched : Bool) :
    KeyProg Bytes := do
  let d ← getState
  requireSw swSecurityStatusNotSatisfied d.ram.isUserAuthenticated
  let f ← FaultProgram.liftExcept (usableKey d id algoEcDerive true)
  counted id (deriveResponse C id f dest data touched)

/-- The middle of `cmd_cipher_sym`, of a secret key. -/
def cipherResponse (algo : UInt8) (data : Bytes) :
    KeyProg Bytes := do
  let key ← mkekLoadKeyFile C id f
  requireSw swExecError (key.length ≤ 64)
  requireSw swWrongData (key.length ∈ [16, 24, 32, 64])
  FaultProgram.liftExcept (C.cipher key algo data)

/-- `cmd_cipher_sym`. With a derived key in memory it is that key that is used, and nothing is
counted. -/
def cmdCipherSym (id algo : UInt8) (data : Bytes) (touched : Bool) :
    KeyProg Bytes := do
  let d ← getState
  requireSw swSecurityStatusNotSatisfied d.ram.isUserAuthenticated
  requireSw swSecureMessageExecError touched
  if d.ram.hdKeytype = 0 then do
    let f ← FaultProgram.liftExcept (usableKey d id algo false)
    counted id (cipherResponse C id f algo data)
  else do
    let response ← FaultProgram.liftExcept (C.cipherHd d.ram.hdKeytype algo data)
    modifyState (·.setRam fun ram ↦ { ram with hdKeytype := response.2 })
    return response.1

/-- What the host asks for. -/
inductive KeyCommand where
  | signature (id p2 : UInt8) (data : Bytes) (touched : Bool)
  | decryptAsym (id p2 : UInt8) (data : Bytes) (touched : Bool)
  | deriveAsym (id dest : UInt8) (data : Bytes) (touched : Bool)
  | cipherSym (id algo : UInt8) (data : Bytes) (touched : Bool)
  /-- Whatever opens or closes a session, or derives a key in memory. -/
  | session (isUserAuthenticated hasSession : Bool) (hdKeytype : UInt8)

/-- What a command does, and its response. -/
def KeyCommand.run : KeyCommand → KeyProg Bytes
  | signature id p2 data touched => cmdSignature C id p2 data touched
  | decryptAsym id p2 data touched => cmdDecryptAsym C id p2 data touched
  | deriveAsym id dest data touched => cmdDeriveAsym C id dest data touched
  | cipherSym id algo data touched => cmdCipherSym C id algo data touched
  | session isUserAuthenticated hasSession hdKeytype => do
    modifyState (·.setRam fun ram ↦
      { ram with
        isUserAuthenticated := isUserAuthenticated
        hasSession := hasSession
        hdKeytype := hdKeytype })
    return []

/-- The machine. When the power comes back there is no session. -/
def keyMachine : Machine KeyFile (Option Bytes) KeyRam UInt16 KeyCommand Bytes where
  command := KeyCommand.run C
  isOff := KeyRam.off
  powerDown ram := { ram with off := true }
  restart _ := ⟨false, false, 0, false⟩

/-- What happens. -/
abbrev KeyEvent := MachineEvent KeyFile KeyCommand

/-! ### Results -/

/-- The key that a command uses. -/
def KeyCommand.target (hdKeytype : UInt8) : KeyCommand → Option UInt8
  | signature id .. | decryptAsym id .. | deriveAsym id .. => some id
  | cipherSym id .. => if hdKeytype = 0 then some id else none
  | session .. => none

/-- A command had a result. -/
def resultCount : Option (Except UInt16 Bytes) → ℕ
  | some (.ok _) => 1
  | _ => 0

/-- How many results of a key come of an event. -/
def keyResult (d : KeyDevice) : KeyEvent → ℕ
  | .command c faults =>
    if c.target d.ram.hdKeytype = some id then
      resultCount ((keyMachine C).step d (.command c faults)).1
    else 0
  | _ => 0

/-- How many results come of a key in a run. -/
def keyResults (C : KeyCrypto) (id : UInt8) : KeyDevice → List KeyEvent → ℕ
  | _, [] => 0
  | d, event :: events =>
    keyResult C id d event + keyResults C id ((keyMachine C).step d event).2 events

/-! ### What is to hold -/

/-- The metadata with another counter. -/
def withCounter (metadata : Bytes) (c : ℕ) : Bytes :=
  match tlvFind tagKeyCounter metadata with
  | some item => patch metadata (tlvOffset metadata item) (beBytes 4 c)
  | none => metadata

/-- The metadata of a key has a counter, of four bytes at least. -/
structure HasCounter (metadata : Bytes) (n : ℕ) : Prop where
  item : ∃ item, tlvFind tagKeyCounter metadata = some item ∧ 4 ≤ item.value.length ∧
    itemUint32 metadata item = n
  fits : metadata.length ≤ UINT16_MAX

/-- How a key is stored. -/
inductive KeyFormat where
  /-- In a file, with its metadata in `EF_META`. -/
  | legacy
  | container
  deriving DecidableEq

namespace KeyFormat

/-- The file that the metadata of a key is in. -/
def metadataFile (id : UInt8) : KeyFormat → KeyFile
  | legacy => .fileMeta
  | container => .metadata id

/-- The content of a file has the metadata of a key. -/
def HasMetadata (id : UInt8) (metadata : Bytes) : KeyFormat → Option Bytes → Prop
  | legacy, file => ∃ content, file = some content ∧ metaFind content (keyFid id) = some metadata
  | container, file => file = some metadata

/-- A key is stored in this way and in no other one, also after a loss of power. -/
def Placed (id : UInt8) (d : KeyDevice) : KeyFormat → Prop
  | legacy =>
    (d.Always (.legacy id) fun a ↦ isKeyMarker id a = false) ∧
    (d.Always (.object id) fun a ↦ isKeyMarker id a = false) ∧
    (d.Always (.privateKey id) fun a ↦ a = none) ∧
    ((d.Always (.legacy id) fun a ↦ fileHasData a = true) ∨
      d.Always (.object id) fun a ↦ fileHasData a = true)
  | container => id ≠ 0 ∧ d.Always (.object id) fun a ↦ isKeyMarker id a = true

end KeyFormat

/-- A key whose counter stands at `c`. -/
structure KeyHeld (id : UInt8) (metadata : Bytes) (format : KeyFormat) (c : ℕ) (d : KeyDevice) :
    Prop where
  counter : format.HasMetadata id (withCounter metadata c) (d.read (format.metadataFile id))
  found : d.Always (format.metadataFile id) fun a ↦
    ∃ c' < 2 ^ 32, format.HasMetadata id (withCounter metadata c') a
  placed : format.Placed id d

def keyMetadataFile : KeyFile :=
  if isKeyMarker id (d.read (.object id)) then .metadata id else .fileMeta

/-- The signature that is not made with the key. -/
def KeyCommand.usesHd : KeyCommand → Bool
  | signature _ p2 .. => p2 = algoHd
  | _ => false

/-- What is asked of an event: the counter can be written, and a loss of power does not raise it. -/
def KeyCareful (d : KeyDevice) : KeyEvent → Prop
  | .command c faults => c.target d.ram.hdKeytype = some id →
    -- the write is not refused, and the container may be updated
    (faults (keyMetadataFile d id)).headD .ok ≠ .fail ∧
      (c.usesHd → isKeyMarker id (d.read (.object id)) → d.ram.hasSession = true)
  | .flush _ => True
  | .reboot keep => getKeyCounter { d with files := d.files.powerCut keep } id ≤ getKeyCounter d id

/-- What is asked of a run. -/
def CarefulKeyRun (C : KeyCrypto) (id : UInt8) : KeyDevice → List KeyEvent → Prop
  | _, [] => True
  | d, event :: events => KeyCareful id d event ∧
    CarefulKeyRun C id ((keyMachine C).step d event).2 events

/-- The counter is at most `left`, the four bytes that are read and written are bytes of its tag, and
the other tags are what they were. -/
def CounterKept (metadata : Bytes) (left : ℕ) (d : KeyDevice) : Prop :=
  ∃ c ≤ left, hsmKeyMetadataFind d id = some (withCounter metadata c) ∧
    HasCounter (withCounter metadata c) c ∧
    ∀ tag ≠ tagKeyCounter, tlvFindTag tag (withCounter metadata c) = tlvFindTag tag metadata

end PicoAll
