import PicoAll.Apps.ContainerMap

/-!
# The keys and the label of the vault

The calls of `vault_container.c` on top of its container: the vault key is kept once for each
application, wrapped under a key of that application, and there is one label for all of them. An
earlier firmware kept a single wrapped key in a file of its own, and the label in another one. What
they hold is moved to the container the first time the key of application 0 is asked for and is not
there.

The pointers that the source checks are those of its callers' buffers, and the vault is initialised.
-/

namespace PicoAll

open FaultProgram

abbrev picokeysVaultKeySize : ℕ := 32

/-- `PICOKEYS_VAULT_RECORD_FORMAT`, which is `PIN_KDF_V2`. -/
abbrev vaultRecordFormat : UInt8 := 2

/-- A key of the vault, or one that it is wrapped under. -/
abbrev VaultKey := {key : Bytes // key.length = picokeysVaultKeySize}

/-- `encrypt_with_aad` and `decrypt_with_aad` on such keys. What is encrypted carries a nonce of its
own, from the draw given. -/
structure VaultSeal where
  /-- `encrypt_with_aad`: a nonce, the ciphertext and a tag. -/
  encryptWithAad : ℕ → VaultKey → VaultKey → Bytes
  decryptWithAad : VaultKey → Bytes → Except Status VaultKey
  length_encryptWithAad : ∀ draw encryptionKey kvault,
    (encryptWithAad draw encryptionKey kvault).length = vaultRecordSize - 1
  decryptWithAad_encryptWithAad : ∀ draw encryptionKey kvault,
    decryptWithAad encryptionKey (encryptWithAad draw encryptionKey kvault) = .ok kvault

/-- A file that is none of the container's. -/
abbrev OutsideVault := {fid : ℕ // fid < 0xc400 ∨ 0xca00 ≤ fid}

/-- `picokeys_vault_state_t`, as `picokeys_vault_init` leaves it, and the cryptography below it. -/
structure VaultState where
  sha256 : Bytes → Bytes
  aead : VaultSeal
  primary : FileObjectContainerCrypto
  legacy : Option FileObjectContainerCrypto
  legacyFile : Option OutsideVault
  legacyLabelFile : Option OutsideVault
  /-- The key and the label were not in one file. -/
  files_ne : ∀ file ∈ legacyFile, ∀ labelFile ∈ legacyLabelFile, file ≠ labelFile

/-- `vault_layout`. -/
abbrev VaultState.layout (V : VaultState) : FileObjectContainerLayout :=
  (ContainerApplication.vault V.legacyFile).layout V.sha256

def vaultRecordValid (record : Bytes) : Bool :=
  record.length == vaultRecordSize && record.head? == some vaultRecordFormat

/-- `vault_legacy_record`, of the content of the file. -/
def vaultLegacyRecord (file : Option Bytes) : Option Bytes :=
  file.filter vaultRecordValid

section Calls

variable (V : VaultState)

def vaultWrap (draw : ℕ) (wrappingKey kvault : VaultKey) : Bytes :=
  vaultRecordFormat :: V.aead.encryptWithAad draw wrappingKey kvault

def vaultUnwrap (wrappingKey : VaultKey) (record : Bytes) : Except Status VaultKey :=
  if record.head? ≠ some vaultRecordFormat then .error .wrongData
  else V.aead.decryptWithAad wrappingKey record.tail

/-- `vault_clear_legacy_record`, of the legacy file if there is one. -/
def vaultClearLegacyRecord : FsProg TxnRam Unit :=
  match V.legacyFile with
  | none => pure ()
  | some file => do
    let content ← fileSearch file
    if !fileHasData content then
      pure ()
    else if (vaultLegacyRecord content).isNone then
      FaultProgram.fail .wrongData
    else
      flashClearFile file

/-- `vault_clear_file`, of the label file if there is one. -/
def vaultClearLabelFile : FsProg TxnRam Unit :=
  match V.legacyLabelFile with
  | none => pure ()
  | some file => flashClearFile file

def vaultUpdate (writes : List FileObjectContainerWrite) : FsProg TxnRam Unit :=
  if writes.isEmpty then
    FaultProgram.fail .nullParam
  else
    fileObjectContainerUpdateWithoutRecordValidation V.layout 0 writes V.primary V.legacy

def vaultGetWrapRecord (files : Files) (appId : UInt8) : Except Status Bytes := do
  let record ← fileObjectContainerRead V.layout 0 files vaultObjectWrap appId.toUInt16 V.primary
    V.legacy vaultRecordSize
  if record.length ≠ vaultRecordSize then
    throw .wrongLength
  return record

def picokeysVaultSetKvault (draw : ℕ) (kvault encryptionKey : VaultKey) (appId : UInt8) :
    FsProg TxnRam Unit :=
  vaultUpdate V [vaultWrapWrite appId.toUInt16 (vaultWrap V draw encryptionKey kvault)]

/-- The content of the label file of the earlier firmware; none if there is no such file. -/
def vaultLegacyLabel (files : Files) : Bytes :=
  match V.legacyLabelFile with
  | none => []
  | some file => (files file).getD []

/-- What `vault_migrate_legacy` writes. -/
def vaultMigrationWrites (record label : Bytes) : List FileObjectContainerWrite :=
  [vaultWrapWrite 0 record, vaultLabelWrite label]

/-- `vault_migrate_legacy`: the record and the label of an earlier firmware go into the container. -/
def vaultMigrateLegacy : FsProg TxnRam Unit :=
  match V.legacyFile with
  | none => FaultProgram.fail .nullParam
  | some file => do
    let files := (← getState).files
    match vaultGetWrapRecord V files 0 with
    | .ok _ => pure ()
    | .error .fileNotFound =>
      match vaultLegacyRecord (files file) with
      | none => FaultProgram.fail .fileNotFound
      | some record =>
        if (vaultLegacyLabel V files).length > vaultLabelMax then
          FaultProgram.fail .wrongLength
        else do
          vaultUpdate V (vaultMigrationWrites record (vaultLegacyLabel V files))
          vaultClearLabelFile V
    | .error r => FaultProgram.fail r

/-- `picokeys_vault_get_kvault`, which migrates the key of application 0 if it has none. -/
def picokeysVaultGetKvault (appId : UInt8) (encryptionKey : VaultKey) : FsProg TxnRam VaultKey := do
  let read := vaultGetWrapRecord V (← getState).files appId
  let record ← if read = .error .fileNotFound ∧ appId = 0 ∧ V.legacyFile.isSome then do
      vaultMigrateLegacy V
      liftExcept (vaultGetWrapRecord V (← getState).files 0)
    else
      liftExcept read
  liftExcept (vaultUnwrap V encryptionKey record)

/-- `picokeys_vault_get_label`, into a buffer with room for `capacity` bytes: a label that is not
there is empty. -/
def picokeysVaultGetLabel (capacity : ℕ) : FsProg TxnRam Bytes := do
  match fileObjectContainerRead V.layout 0 (← getState).files vaultObjectLabel 0 V.primary V.legacy
      capacity with
  | .ok label => pure label
  | .error .fileNotFound => pure []
  | .error r => FaultProgram.fail r

def picokeysVaultSetLabel (label : Bytes) : FsProg TxnRam Unit :=
  if label.length > vaultLabelMax then
    FaultProgram.fail .wrongLength
  else
    vaultUpdate V [vaultLabelWrite label]

/-- The manifest that `picokeys_vault_delete_kvault` goes by: the current one, or the one before it
if the current one does not validate. -/
def vaultDeleteManifest (files : Files) (state : FileObjectContainerState) :
    Except Status FileObjectManifest :=
  match fileObjectContainerValidate V.layout 0 files state.current.2 state.crypto.protector with
  | .ok _ => .ok state.current.2
  | .error r =>
    match state.candidates state.current.1.rev with
    | none => .error r
    | some previous =>
      match fileObjectContainerValidate V.layout 0 files previous state.crypto.protector with
      | .ok _ => .ok previous
      | .error _ => .error r

/-- `wrap_count`. -/
def vaultWrapCount (manifest : FileObjectManifest) : ℕ :=
  manifest.objects.countP (·.objectType == vaultObjectWrap)

/-- `picokeys_vault_delete_kvault`: the last key takes the container with it. -/
def picokeysVaultDeleteKvault (appId : UInt8) : FsProg TxnRam Unit := do
  let files := (← getState).files
  match fileObjectContainerLoad V.layout 0 files V.primary V.legacy with
  | .error .fileNotFound =>
    if appId = 0 then do
      if V.legacyFile.any fun file ↦ (vaultLegacyRecord (files file)).isSome then
        vaultClearLegacyRecord V
      vaultClearLabelFile V
    else
      pure ()
  | .error r => FaultProgram.fail r
  | .ok state => do
    let current ← liftExcept (vaultDeleteManifest V files state)
    if (fileObjectContainerFind current vaultObjectWrap appId.toUInt16).isNone then
      FaultProgram.fail .fileNotFound
    else if vaultWrapCount current = 1 then
      fileObjectContainerDelete V.layout 0 V.primary V.legacy
    else
      fileObjectContainerRemove V.layout 0 vaultObjectWrap appId.toUInt16 V.primary V.legacy

end Calls

/-- A call on the vault. -/
inductive VaultCall where
  /-- `picokeys_vault_set_kvault`. -/
  | setKvault (draw : ℕ) (kvault encryptionKey : VaultKey) (appId : UInt8)
  /-- `picokeys_vault_get_kvault`. -/
  | getKvault (appId : UInt8) (encryptionKey : VaultKey)
  /-- `picokeys_vault_set_label`. -/
  | setLabel (label : Bytes)
  /-- `picokeys_vault_get_label`. -/
  | getLabel (capacity : ℕ)
  /-- `picokeys_vault_delete_kvault`. -/
  | deleteKvault (appId : UInt8)

/-- What a call returns: a get the key or the label, the others nothing. -/
abbrev VaultCall.Answer : VaultCall → Type
  | getKvault .. => VaultKey
  | getLabel _ => Bytes
  | _ => Unit

/-- The call as a program. -/
def VaultCall.run (V : VaultState) : (call : VaultCall) → FsProg TxnRam call.Answer
  | setKvault draw kvault encryptionKey appId =>
    picokeysVaultSetKvault V draw kvault encryptionKey appId
  | getKvault appId encryptionKey => picokeysVaultGetKvault V appId encryptionKey
  | setLabel label => picokeysVaultSetLabel V label
  | getLabel capacity => picokeysVaultGetLabel V capacity
  | deleteKvault appId => picokeysVaultDeleteKvault V appId

end PicoAll
