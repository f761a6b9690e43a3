import PicoAll.Fido.CredentialEnvelope
import PicoAll.Fido.ResidentCalls

/-!
# The status of a resident credential

What `credential.c` makes of the container of a resident credential: which credentials are usable,
which an assertion finds, and the operations on them, those of `cbor_config.c` among them. A slot
may also have a credential of an earlier firmware, whose record is kept in the place of the marker.

The formats of credentials and their cryptography are parameters (`CredentialCodec`).
-/

namespace PicoAll

open FaultProgram

/-- `FIDO_RESIDENT_STATUS_EXPIRED`. -/
abbrev residentStatusExpired : UInt8 := 1

/-- `FIDO_RESIDENT_PROPERTY_BUTTON`. -/
abbrev residentPropertyButton : UInt8 := 2

/-- `FIDO_RESIDENT_OBJECT_RP_ID_HASH`. -/
abbrev residentObjectRpIdHash : UInt16 := 1

/-- `FIDO_RESIDENT_OBJECT_CLIENT_ID`. -/
abbrev residentObjectClientId : UInt16 := 2

/-- `FIDO_RESIDENT_OBJECT_CREDENTIAL`. -/
abbrev residentObjectCredential : UInt16 := 3

abbrev rpIdHashLen : ℕ := 32

abbrev credResidentLen : ℕ := 42

abbrev credSilentTagLen : ℕ := 16

abbrev credResidentSilentVersion : UInt8 := 1

abbrev maxCredentialCountInList : ℕ := 16

/-- The slots, `MAX_RESIDENT_CREDENTIALS` of them. -/
def residentSlots : List UInt8 :=
  (List.range 256).map .ofNat

/-- The errors of `credential.c` and `cbor_config.c`. -/
inductive CredentialError where
  /-- `CTAP2_ERR_NO_CREDENTIALS`. -/
  | noCredentials
  /-- `CTAP1_ERR_INVALID_PARAMETER`. -/
  | invalidParameter
  /-- `CTAP2_ERR_NOT_ALLOWED`. -/
  | notAllowed
  /-- `-1`. -/
  | failed
  /-- An error of the file system. -/
  | status (r : Status)
  /-- Another error of a credential's format or cryptography. -/
  | other (code : ℤ)
  deriving DecidableEq, Repr

/-- `credential_import_record_t`. -/
structure CredentialImportRecord where
  credentialId : Bytes
  privateKey : Bytes
  rpId : Bytes
  metadata : Bytes
  requestedId : Bytes
  credentialHash : Bytes

/-- What `credential_import` makes of a record that passes its checks. -/
structure ImportedCredential where
  rpIdHash : Vector UInt8 32
  clientId : Bytes
  publicKey : Bytes

/-- The formats of credentials, and the cryptography in them. -/
structure CredentialCodec where
  credentialLoad : Bytes → Vector UInt8 32 → Except CredentialError Credential
  credentialParseMetadata : Bytes → Except CredentialError Credential
  credentialVerify : Bytes → Vector UInt8 32 → Bool → Except CredentialError Unit
  credentialDeriveResident : Bytes → Except CredentialError Bytes
  credentialSilentTag : Bytes → Vector UInt8 32 → Except CredentialError Bytes
  /-- The checks of `credential_import`, and the public key it computes. -/
  credentialImportCheck : CredentialImportRecord → Except CredentialError ImportedCredential

/-- What the functions go by: the formats, the keys of the containers, which may not be at hand, and
the clock, if it is set. -/
structure CredentialContext where
  sha256 : Bytes → Bytes
  codec : CredentialCodec
  primary : Option FileObjectContainerCrypto
  legacy : Option FileObjectContainerCrypto
  /-- `has_set_rtc` and `get_rtc_time`. -/
  rtc : Option ℕ

/-- An error of the file system, as `credential.c` returns it. -/
def ofStatus {α : Type} : Except Status α → Except CredentialError α :=
  Except.mapError .status

def fileObjectContainerObjectSize (layout : FileObjectContainerLayout) (containerId : UInt32)
    (files : Files) (objectType objectTag : UInt16) (primary : FileObjectContainerCrypto)
    (legacy : Option FileObjectContainerCrypto) : Except Status ℕ := do
  let state ← fileObjectContainerLoad layout containerId files primary legacy
  match fileObjectContainerFind state.current.2 objectType objectTag with
  | none => throw .fileNotFound
  | some object => return object.logicalSize.toNat

def credentialIsResident (credId : Bytes) : Bool :=
  decide (8 ≤ credId.length) &&
    ((credId.drop 4).take 4 == [0xf1, 0xd0, 0x02, 0x03] ||
      (credId.drop 4).take 4 == [0xf1, 0xd0, 0x02, 0x06])

/-! ### Reading -/

section Reading

variable [FileDeletion] (C : CredentialContext) (files : Files) (slot : UInt8)

/-- The marker of a slot, or the record of an earlier firmware. -/
def residentEntry : Option Bytes :=
  files (residentMarkerFid slot)

def residentContainerObjectSize (objectType : UInt16) : Except Status ℕ :=
  if !residentObjectTypeValid objectType then
    .error .nullParam
  else
    match C.primary with
    | none => .error .execError
    | some crypto =>
      fileObjectContainerObjectSize (residentContainerLayout C.sha256) slot.toUInt32 files objectType
        0 crypto C.legacy

def credentialResidentContainerReadAlloc (objectType : UInt16) : Except Status Bytes := do
  if !residentContainerIsMarker slot (residentEntry files slot) then
    throw .nullParam
  let objectSize ← residentContainerObjectSize C files slot objectType
  let data ← residentContainerRead C.sha256 C.primary C.legacy slot files objectType objectSize
  if data.length ≠ objectSize then
    throw .wrongLength
  return data

/-- The clock is set, and the time is not before `expiration`. -/
def rtcPassed (rtc : Option ℕ) (expiration : UInt32) : Bool :=
  rtc.any fun now ↦ decide (expiration.toNat ≤ now)

/-- `credential_resident_read_metadata`. -/
def credentialResidentReadMetadata : Except Status FidoResidentMetadata :=
  if !fileHasData (residentEntry files slot) then
    .error .nullParam
  else if !residentContainerIsMarker slot (residentEntry files slot) then
    .ok ⟨residentStatusActive, residentPropertyNative, 0⟩
  else do
    let metadata ← residentContainerReadMetadata C.sha256 C.primary C.legacy slot files
    if metadata.status = residentStatusActive ∧ metadata.expiration ≠ 0 ∧
        rtcPassed C.rtc metadata.expiration = true then
      return { metadata with status := residentStatusExpired }
    return metadata

def credentialResidentUsable : Bool :=
  match credentialResidentReadMetadata C files slot with
  | .error _ => false
  | .ok metadata =>
    metadata.status != residentStatusExpired && metadata.status != residentStatusRevoked &&
      (metadata.expiration == 0 || !rtcPassed C.rtc metadata.expiration)

/-- `credential_resident_rp_id_hash`. -/
def credentialResidentRpIdHash : Except Status Bytes :=
  if !fileHasData (residentEntry files slot) then
    .error .nullParam
  else if !residentContainerIsMarker slot (residentEntry files slot) then
    let record := (residentEntry files slot).getD []
    if record.length < rpIdHashLen then .error .wrongLength else .ok (record.take rpIdHashLen)
  else do
    let hash ← residentContainerRead C.sha256 C.primary C.legacy slot files residentObjectRpIdHash
      rpIdHashLen
    if hash.length ≠ rpIdHashLen then
      throw .wrongLength
    return hash

def credentialResidentMatchesRp (rpIdHash : Vector UInt8 32) : Bool :=
  match credentialResidentRpIdHash C files slot with
  | .error _ => false
  | .ok hash => hash == rpIdHash.toList

/-- The resident id that `credential_resident_matches_id` compares with. -/
def residentStoredId : Option Bytes :=
  let record := ((residentEntry files slot).getD []).drop rpIdHashLen
  if residentContainerIsMarker slot (residentEntry files slot) then
    match credentialResidentContainerReadAlloc C files slot residentObjectClientId with
    | .error _ => none
    | .ok clientRecord =>
      if clientRecord.length < credResidentLen then none else some (clientRecord.take credResidentLen)
  else if credResidentLen ≤ record.length ∧ credentialIsResident record = true then
    some (record.take credResidentLen)
  else if record = [] then
    none
  else
    (C.codec.credentialDeriveResident record).toOption

/-- `credential_resident_matches_id`. -/
def credentialResidentMatchesId (residentId : Bytes) : Bool :=
  if !fileHasData (residentEntry files slot) || residentId.length != credResidentLen then
    false
  else
    match residentContainerReadMetadata C.sha256 C.primary C.legacy slot files with
    | .ok metadata =>
      if metadata.properties &&& residentPropertyImported ≠ 0 then
        match credentialResidentContainerReadAlloc C files slot residentObjectClientId with
        | .error _ => false
        | .ok importedId => importedId == residentId
      else
        residentStoredId C files slot == some residentId
    | .error _ => residentStoredId C files slot == some residentId

/-- What `credential_load_resident` makes of a container. -/
def residentContainerCredential (rpIdHash : Vector UInt8 32) : Except CredentialError Credential := do
  let credential ← ofStatus (credentialResidentContainerReadAlloc C files slot
    residentObjectCredential)
  let residentId ← ofStatus (credentialResidentContainerReadAlloc C files slot
    residentObjectClientId)
  if residentId.length < credResidentLen then
    throw (.status .wrongLength)
  let residentMetadata ← ofStatus (residentContainerReadMetadata C.sha256 C.primary C.legacy slot
    files)
  let cred ← if residentMetadata.properties &&& residentPropertyImported ≠ 0 then do
      let metadata ← ofStatus (credentialResidentContainerReadAlloc C files slot
        residentObjectMetadata)
      let privateKey ← ofStatus (credentialResidentContainerReadAlloc C files slot
        residentObjectPrivateKey)
      -- The parser starts from a blank credential, which also clears the mark that it is imported.
      let cred ← C.codec.credentialParseMetadata metadata
      pure { cred with id := some credential, privateKey := some privateKey }
    else
      C.codec.credentialLoad credential rpIdHash
  return { cred with
    requireButton := residentMetadata.properties &&& residentPropertyButton != 0
    residentId := some (residentId.take credResidentLen) }

/-- `credential_load_resident`. -/
def credentialLoadResident (rpIdHash : Vector UInt8 32) : Except CredentialError Credential :=
  let record := ((residentEntry files slot).getD []).drop rpIdHashLen
  if !fileHasData (residentEntry files slot) then
    .error .invalidParameter
  else if residentContainerIsMarker slot (residentEntry files slot) then
    if !credentialResidentUsable C files slot then
      .error .noCredentials
    else if !credentialResidentMatchesRp C files slot rpIdHash then
      .error .noCredentials
    else
      residentContainerCredential C files slot rpIdHash
  else if record = [] then
    .error .noCredentials
  else if credentialIsResident record then do
    let cred ← C.codec.credentialLoad (record.drop credResidentLen) rpIdHash
    return { cred with residentId := some (record.take credResidentLen) }
  else
    C.codec.credentialLoad record rpIdHash

/-- The silent branch of `credential_resident_verify`. -/
def residentSilentVerify (rpIdHash : Vector UInt8 32) : Except CredentialError Unit :=
  match credentialResidentContainerReadAlloc C files slot residentObjectClientId with
  | .error _ => .error .noCredentials
  | .ok clientRecord =>
    if clientRecord.length ≠ credResidentLen + 1 + credSilentTagLen ∨
        clientRecord.getD credResidentLen 0 ≠ credResidentSilentVersion then
      .error .noCredentials
    else do
      let tag ← C.codec.credentialSilentTag clientRecord rpIdHash
      if tag.take credSilentTagLen ≠ clientRecord.drop (credResidentLen + 1) then
        throw .noCredentials

/-- `credential_resident_verify`: the credential of a slot, in either format. -/
def credentialResidentVerify (rpIdHash : Vector UInt8 32) (silent : Bool) :
    Except CredentialError Unit :=
  let record := ((residentEntry files slot).getD []).drop rpIdHashLen
  if !fileHasData (residentEntry files slot) then
    .error .invalidParameter
  else if !residentContainerIsMarker slot (residentEntry files slot) then
    if record = [] then
      .error .noCredentials
    else
      C.codec.credentialVerify (if credentialIsResident record then record.drop credResidentLen
        else record) rpIdHash silent
  else if !credentialResidentUsable C files slot then
    .error .noCredentials
  else if silent then
    residentSilentVerify C files slot rpIdHash
  else do
    let credential ← ofStatus (credentialResidentContainerReadAlloc C files slot
      residentObjectCredential)
    C.codec.credentialVerify credential rpIdHash silent

end Reading

/-! ### What an assertion finds -/

section Assertion

variable [FileDeletion] (C : CredentialContext) (files : Files) (rpIdHash : Vector UInt8 32)

/-- A slot that `cbor_get_assertion` looks into: one with a credential for the relying party. -/
def assertionSlot (slot : UInt8) : Bool :=
  fileHasData (residentEntry files slot) && credentialResidentMatchesRp C files slot rpIdHash

/-- The credential of a slot, if it loads. -/
def assertionCredential (slot : UInt8) : Option (UInt8 × Credential) :=
  match credentialLoadResident C files slot rpIdHash with
  | .error _ => none
  | .ok cred => some (slot, cred)

/-- The resident credentials that `cbor_get_assertion` collects without a list of ids. -/
def discoverableCredentials : List (UInt8 × Credential) :=
  ((residentSlots.filter (assertionSlot C files rpIdHash)).filterMap
    (assertionCredential C files rpIdHash)).take maxCredentialCountInList

end Assertion

/-! ### The operations -/

section Operations

variable [FileDeletion] (C : CredentialContext)

/-- `credential_resident_update_metadata`. -/
def credentialResidentUpdateMetadata (slot : UInt8) (metadata : FidoResidentMetadata) :
    FsProg TxnRam Unit := do
  let ef ← fileSearch (residentMarkerFid slot)
  if !fileHasData ef then
    FaultProgram.fail .nullParam
  else if residentContainerIsMarker slot ef then
    residentContainerUpdateMetadata C.sha256 C.primary C.legacy slot metadata
  else
    FaultProgram.fail .fileNotFound

/-- The loop of `credential_store` over the slots: the one to write to, and whether it becomes a
container. A credential of the same user is replaced, else the first free slot is taken. -/
def credentialStoreSlot (files : Files) (userId : Bytes) (rpIdHash : Vector UInt8 32) :
    List UInt8 → Option UInt8 → Option (UInt8 × Bool)
  | [], free => free.map (·, true)
  | slot :: slots, free =>
    if !fileHasData (residentEntry files slot) then
      credentialStoreSlot files userId rpIdHash slots
        (if free.isNone && residentContainerCanCreate C.sha256 C.primary C.legacy slot files then
          some slot else free)
    else if !credentialResidentMatchesRp C files slot rpIdHash then
      credentialStoreSlot files userId rpIdHash slots free
    else
      match credentialLoadResident C files slot rpIdHash with
      | .error _ => credentialStoreSlot files userId rpIdHash slots free
      | .ok rcred =>
        if rcred.userId.getD [] = userId then
          some (slot, residentContainerIsMarker slot (residentEntry files slot))
        else
          credentialStoreSlot files userId rpIdHash slots free

/-- The client record of a new credential: its resident id, a version and a tag over both. -/
def residentClientRecord (residentId : Bytes) (rpIdHash : Vector UInt8 32) :
    Except CredentialError Bytes := do
  let head := residentId ++ [credResidentSilentVersion]
  let tag ← C.codec.credentialSilentTag (head ++ List.replicate credSilentTagLen 0) rpIdHash
  return head ++ tag.take credSilentTagLen

/-- `credential_store`: a credential goes into a container, or into one file. -/
def credentialStore (credId : Bytes) (rpIdHash : Vector UInt8 32) (publicKey : Bytes) :
    FsProg TxnRam (Except CredentialError Unit) := do
  let files := (← getState).files
  match C.codec.credentialLoad credId rpIdHash with
  | .error e => pure (.error e)
  | .ok cred =>
    match credentialStoreSlot C files (cred.userId.getD []) rpIdHash residentSlots none with
    | none => pure (.error .failed)
    | some (slot, useContainer) =>
      match C.codec.credentialDeriveResident credId with
      | .error e => pure (.error e)
      | .ok residentId =>
        if useContainer then
          match residentClientRecord C residentId rpIdHash with
          | .error e => pure (.error e)
          | .ok clientRecord => do
            residentContainerCreate C.sha256 C.primary C.legacy slot
              ⟨rpIdHash, clientRecord, credId, publicKey⟩
            pure (.ok ())
        else do
          fileNew (residentMarkerFid slot)
          filePutData (residentMarkerFid slot) (rpIdHash.toList ++ residentId ++ credId)
          pure (.ok ())

/-- `credential_import`. -/
def credentialImport (record : CredentialImportRecord) :
    FsProg TxnRam (Except CredentialError Unit) := do
  let files := (← getState).files
  match C.codec.credentialImportCheck record with
  | .error e => pure (.error e)
  | .ok imported =>
    match residentSlots.find? fun slot ↦ !fileHasData (residentEntry files slot) &&
        residentContainerCanCreate C.sha256 C.primary C.legacy slot files with
    | none => pure (.error (.status .memoryFatal))
    | some slot => do
      residentContainerCreateImported C.sha256 C.primary C.legacy slot
        ⟨imported.rpIdHash, imported.clientId, record.credentialId, imported.publicKey⟩
        record.privateKey record.metadata
      pure (.ok ())

/-- `credential_resident_update`. The record of an earlier firmware gets its resident id. -/
def credentialResidentUpdate (slot : UInt8) (credential : Bytes) :
    FsProg TxnRam (Except CredentialError Unit) := do
  let ef ← fileSearch (residentMarkerFid slot)
  let content := ef.getD []
  let record := content.drop rpIdHashLen
  if !fileHasData ef then
    pure (.error (.status .nullParam))
  else if residentContainerIsMarker slot ef then do
    residentContainerUpdateCredential C.sha256 C.primary C.legacy slot credential
    pure (.ok ())
  else if content.length < rpIdHashLen then
    pure (.error (.status .wrongData))
  else
    match if credResidentLen ≤ record.length ∧ credentialIsResident record = true then
        some (record.take credResidentLen)
      else if record = [] then none else (C.codec.credentialDeriveResident record).toOption with
    | none => pure (.error (.status .wrongData))
    | some residentId => do
      filePutData (residentMarkerFid slot) (content.take rpIdHashLen ++ residentId ++ credential)
      pure (.ok ())

def credentialResidentDelete (slot : UInt8) : FsProg TxnRam Unit := do
  let ef ← fileSearch (residentMarkerFid slot)
  if !fileHasData ef then
    FaultProgram.fail .fileNotFound
  else if residentContainerIsMarker slot ef then
    residentContainerDelete C.sha256 C.primary C.legacy slot
  else
    fileDeleteDynamic (residentMarkerFid slot)

/-- How `cbor_config` is given a credential. -/
inductive ConfigTarget where
  | slot (slot : ℕ)
  /-- By its resident id. -/
  | id (credentialId : Bytes)

/-- `config_resident_credential` and `config_resident_credential_by_id`. -/
def configResidentCredential (files : Files) : ConfigTarget → Option UInt8
  | .slot slot =>
    if 0xff < slot then none
    else if residentContainerIsMarker (.ofNat slot) (residentEntry files (.ofNat slot)) then
      some (.ofNat slot)
    else none
  | .id credentialId =>
    if credentialId = [] then none
    else residentSlots.find? fun slot ↦
      residentContainerIsMarker slot (residentEntry files slot) &&
        credentialResidentMatchesId C files slot credentialId

/-- What `cbor_config` returns for an update of the metadata. -/
def configUpdateMetadata (slot : UInt8) (metadata : FidoResidentMetadata) :
    FsProg TxnRam (Except CredentialError Unit) :=
  onError (do
      credentialResidentUpdateMetadata C slot metadata
      pure (.ok ()))
    fun _ ↦ pure (.error .notAllowed)

/-- `CTAP_CONFIG_CREDENTIAL_REVOKE`. -/
def configCredentialRevoke (target : ConfigTarget) : FsProg TxnRam (Except CredentialError Unit) := do
  let files := (← getState).files
  match configResidentCredential C files target with
  | none => pure (.error .noCredentials)
  | some slot =>
    match credentialResidentReadMetadata C files slot with
    | .error _ => pure (.error .noCredentials)
    | .ok metadata => configUpdateMetadata C slot { metadata with status := residentStatusRevoked }

/-- `CTAP_CONFIG_CREDENTIAL_EXPIRE`. -/
def configCredentialExpire (target : ConfigTarget) (timestamp : UInt32) :
    FsProg TxnRam (Except CredentialError Unit) := do
  let files := (← getState).files
  if C.rtc.isNone then
    pure (.error .notAllowed)
  else
    match configResidentCredential C files target with
    | none => pure (.error .noCredentials)
    | some slot =>
      match credentialResidentReadMetadata C files slot with
      | .error _ => pure (.error .noCredentials)
      | .ok metadata =>
        if metadata.status ≠ residentStatusActive ∨
            metadata.expiration ≠ 0 ∧ rtcPassed C.rtc metadata.expiration = true then
          pure (.error .notAllowed)
        else
          configUpdateMetadata C slot { metadata with
            status := if timestamp ≠ 0 ∧ rtcPassed C.rtc timestamp = true then residentStatusExpired
              else metadata.status
            expiration := timestamp }

/-- `CTAP_CONFIG_CREDENTIAL_BUTTON`. -/
def configCredentialButton (target : ConfigTarget) (button : Bool) :
    FsProg TxnRam (Except CredentialError Unit) := do
  let files := (← getState).files
  match configResidentCredential C files target with
  | none => pure (.error .noCredentials)
  | some slot =>
    match credentialResidentReadMetadata C files slot with
    | .error _ => pure (.error .noCredentials)
    | .ok metadata =>
      configUpdateMetadata C slot { metadata with
        properties := if button then metadata.properties ||| residentPropertyButton
          else metadata.properties &&& ~~~residentPropertyButton }

end Operations

/-- An operation on resident credentials. -/
inductive ResidentOperation where
  /-- `credential_store`. -/
  | store (credId : Bytes) (rpIdHash : Vector UInt8 32) (publicKey : Bytes)
  /-- `credential_import`. -/
  | importRecord (record : CredentialImportRecord)
  /-- `credential_resident_update_metadata`. -/
  | updateMetadata (slot : UInt8) (metadata : FidoResidentMetadata)
  /-- `credential_resident_update`. -/
  | update (slot : UInt8) (credential : Bytes)
  /-- `CTAP_CONFIG_CREDENTIAL_REVOKE`. -/
  | revoke (target : ConfigTarget)
  /-- `CTAP_CONFIG_CREDENTIAL_EXPIRE`. -/
  | expire (target : ConfigTarget) (timestamp : UInt32)
  /-- `CTAP_CONFIG_CREDENTIAL_BUTTON`. -/
  | button (target : ConfigTarget) (button : Bool)
  /-- `credential_resident_delete`. -/
  | delete (slot : UInt8)

/-- The operation as a program. -/
def ResidentOperation.run [FileDeletion] (C : CredentialContext) :
    ResidentOperation → FsProg TxnRam (Except CredentialError Unit)
  | store credId rpIdHash publicKey => credentialStore C credId rpIdHash publicKey
  | importRecord record => credentialImport C record
  | updateMetadata slot metadata => do
    credentialResidentUpdateMetadata C slot metadata
    pure (.ok ())
  | update slot credential => credentialResidentUpdate C slot credential
  | revoke target => configCredentialRevoke C target
  | expire target timestamp => configCredentialExpire C target timestamp
  | button target on => configCredentialButton C target on
  | delete slot => do
    credentialResidentDelete C slot
    pure (.ok ())

end PicoAll
