import PicoAll.Fs.ObjectContainerManifest

/-!
# What a sealed record is bound to

`file_object_record_seal` and `file_object_record_unseal` with the protector that the applications give
them (`object_crypto_provider.c`): a key for each record, derived from a root key over the key domain and
the associated data, and under it a MAC over a payload in the clear or an AEAD over a payload in secret.

The associated data is laid out from the record's identity alone and determines it (`aad_injective`), and
so does the nonce for the record id and the generation (`recordNonce_injective`). A record that was
sealed is therefore unsealed under its own identity and, if the MAC and the AEAD are ideal, under no other
(`record_seal_binds_identity`).

For a protector that does not look at the identity, as the container store has it, this is the codec of
`ObjectContainer` (`fileObjectRecordSealBy_eq`).
-/

namespace PicoAll

open FaultProgram BigEndian Fields List

/-- `FILE_OBJECT_POLICY_HASH_SIZE` bytes. -/
abbrev PolicyHash := {hash : Bytes // hash.length = 16}

/-- `file_object_record_identity_t`. -/
structure FileObjectRecordIdentity where
  namespaceId : UInt16
  containerKind : UInt16
  containerId : UInt32
  objectType : UInt16
  objectTag : UInt16
  generation : UInt32
  logicalSize : UInt32
  policyId : UInt16
  policyHash : PolicyHash
  keyDomain : UInt8
  protection : UInt8
  flags : UInt16
  recordId : UInt64
  deriving DecidableEq

open FileObjectRecordIdentity

namespace FileObjectRecordIdentity

variable (identity : FileObjectRecordIdentity)

/-- The associated data before the policy hash. -/
def aadHead : Fields :=
  [(4, recordMagic), (1, 1), (2, identity.namespaceId.toNat), (2, identity.containerKind.toNat),
    (4, identity.containerId.toNat), (2, identity.objectType.toNat), (2, identity.objectTag.toNat),
    (4, identity.generation.toNat), (4, identity.logicalSize.toNat), (2, identity.policyId.toNat)]

/-- The associated data behind the policy hash. -/
def aadTail : Fields :=
  [(1, identity.keyDomain.toNat), (1, identity.protection.toNat), (2, identity.flags.toNat),
    (8, identity.recordId.toNat)]

/-- The associated data of a record. -/
def aad : Bytes :=
  identity.aadHead.encode ++ identity.policyHash ++ identity.aadTail.encode

end FileObjectRecordIdentity

/-- The nonce of a record: its record id and its generation. -/
def recordNonce (recordId : UInt64) (generation : UInt32) : Bytes :=
  encode [(8, recordId.toNat), (4, generation.toNat)]

variable (manifest : FileObjectManifestFull) (policyHash : PolicyHash)

/-- The identity of the record that a manifest lists first. -/
def FileObjectManifestFull.identity :
    FileObjectRecordIdentity where
  namespaceId := manifest.namespaceId
  containerKind := manifest.containerKind
  containerId := manifest.containerId
  objectType := (manifest.objects 0).objectType
  objectTag := (manifest.objects 0).objectTag
  generation := (manifest.objects 0).generation
  logicalSize := (manifest.objects 0).logicalSize
  policyId := (manifest.objects 0).policyId
  policyHash := policyHash
  keyDomain := (manifest.objects 0).keyDomain
  protection := (manifest.objects 0).protection
  flags := (manifest.objects 0).flags
  recordId := (manifest.objects 0).recordId

/-- `file_object_record_identity_build`: the identity and the associated data. -/
def fileObjectRecordIdentityBuild :
    Except Status (FileObjectRecordIdentity × Bytes) :=
  if !manifest.hasObject || !(manifest.objects 0).coreValid then
    .error .wrongData
  else
    .ok (manifest.identity policyHash, (manifest.identity policyHash).aad)

/-- `file_object_record_protector_t`. The number is the room there is for the result. -/
structure FileObjectRecordProtectorOps where
  /-- `seal`: the stored bytes and the tag. -/
  sealRecord : FileObjectRecordIdentity → (nonce aad plaintext : Bytes) → ℕ →
    Except Status (Bytes × Bytes)
  /-- `unseal`. -/
  unsealRecord : FileObjectRecordIdentity → (nonce aad stored tag : Bytes) → ℕ →
    Except Status Bytes

/-- `file_object_record_seal`, into a buffer with room for `capacity` more bytes. -/
def fileObjectRecordSealBy (protector : FileObjectRecordProtectorOps)
    (manifest : FileObjectManifestFull) (policyHash : PolicyHash) (plaintext : Bytes)
    (capacity : ℕ) : Except Status Bytes := do
  let object := manifest.objects 0
  if manifest.hasObject = false ∨ plaintext.length ≠ object.logicalSize.toNat ∨
      plaintext.length ≠ object.storedSize.toNat then
    throw .wrongLength
  if capacity < recordHeaderSize + plaintext.length + authTagSize then
    throw .wrongLength
  let (identity, aad) ← fileObjectRecordIdentityBuild manifest policyHash
  let header ← fileObjectRecordHeaderBuild object
  let (stored, tag) ← protector.sealRecord identity (header.drop 28) aad plaintext plaintext.length
  if stored.length ≠ plaintext.length then
    throw .wrongLength
  return header ++ stored ++ tag

/-- `file_object_record_unseal`, into a buffer with room for `capacity` more bytes. -/
def fileObjectRecordUnsealBy (protector : FileObjectRecordProtectorOps)
    (manifest : FileObjectManifestFull) (policyHash : PolicyHash) (record : Bytes)
    (capacity : ℕ) : Except Status Bytes := do
  let object := manifest.objects 0
  if manifest.hasObject = false ∨ capacity < object.logicalSize.toNat ∨
      object.logicalSize ≠ object.storedSize then
    throw .wrongLength
  fileObjectRecordHeaderParse record object
  let (identity, aad) ← fileObjectRecordIdentityBuild manifest policyHash
  let plaintext ← protector.unsealRecord identity ((record.drop 28).take 12) aad
    ((record.drop recordHeaderSize).take object.storedSize.toNat)
    ((record.drop (recordHeaderSize + object.storedSize.toNat)).take authTagSize) capacity
  if plaintext.length ≠ object.logicalSize.toNat then
    throw .wrongLength
  return plaintext

/-! ### The crypto provider -/

/-- The primitives: SHA-256 as HKDF without salt and as HMAC, and AES-256-GCM. A call that fails gives
nothing, and fails again when it is made again. -/
structure ObjectCryptoPrimitives where
  /-- `mbedtls_hkdf`, to 32 bytes. -/
  hkdf : (key info : Bytes) → Option Bytes
  /-- `mbedtls_md_hmac`. -/
  hmac : (key message : Bytes) → Option Bytes
  /-- `mbedtls_gcm_setkey`. -/
  gcmSetkey : (key : Bytes) → Bool
  /-- `mbedtls_gcm_crypt_and_tag`: the ciphertext and the tag. -/
  gcmEncrypt : (key nonce aad plaintext : Bytes) → Option (Bytes × Bytes)
  /-- `mbedtls_gcm_auth_decrypt`. -/
  gcmDecrypt : (key nonce aad stored tag : Bytes) → Option Bytes
  length_hmac : ∀ key message full, hmac key message = some full → full.length = 32
  length_stored : ∀ key nonce aad plaintext stored tag,
    gcmEncrypt key nonce aad plaintext = some (stored, tag) → stored.length = plaintext.length
  length_tag : ∀ key nonce aad plaintext stored tag,
    gcmEncrypt key nonce aad plaintext = some (stored, tag) → tag.length = 16
  /-- What was encrypted is decrypted again. -/
  gcmDecrypt_gcmEncrypt : ∀ key nonce aad plaintext stored tag,
    gcmEncrypt key nonce aad plaintext = some (stored, tag) →
      gcmDecrypt key nonce aad stored tag = some plaintext

/-- `file_object_crypto_provider_t`, initialized: what its callbacks answer. -/
structure FileObjectCryptoProvider where
  crypto : ObjectCryptoPrimitives
  namespaceId : UInt16
  loadRoot : Except Status Bytes
  /-- `load_public_root`, if there is one. -/
  loadPublicRoot : Option (Except Status Bytes)
  /-- `identity_valid`; where there is none, every identity is. -/
  identityValid : FileObjectRecordIdentity → Bool
  /-- Checked by `file_object_crypto_provider_init`. -/
  namespaceId_ne : namespaceId ≠ 0

/-- `"PKOC/domain/v1"`. -/
def cryptoDomainLabel : Bytes :=
  [0x50, 0x4b, 0x4f, 0x43, 0x2f, 0x64, 0x6f, 0x6d, 0x61, 0x69, 0x6e, 0x2f, 0x76, 0x31]

/-- `"PKOC/object/v1"`. -/
def cryptoKeyLabel : Bytes :=
  [0x50, 0x4b, 0x4f, 0x43, 0x2f, 0x6f, 0x62, 0x6a, 0x65, 0x63, 0x74, 0x2f, 0x76, 0x31]

/-- The result of a primitive, or `PICOKEYS_EXEC_ERROR`. -/
def orExecError {α : Type} : Option α → Except Status α
  | none => .error .execError
  | some a => .ok a

section Provider

variable (provider : FileObjectCryptoProvider) (identity : FileObjectRecordIdentity)

def fileObjectCryptoLoadRoot (publicRoot : Bool) : Except Status Bytes :=
  if publicRoot then provider.loadPublicRoot.getD provider.loadRoot else provider.loadRoot

def fileObjectCryptoDeriveRecordKey (aad : Bytes) : Except Status Bytes := do
  let domainInfo := encode [(2, identity.namespaceId.toNat), (1, identity.keyDomain.toNat)] ++
    cryptoDomainLabel
  let objectInfo := cryptoKeyLabel ++ aad
  let root ← fileObjectCryptoLoadRoot provider
    (identity.protection == protectionAuthenticatedPublic)
  let domainKey ← orExecError (provider.crypto.hkdf root domainInfo)
  orExecError (provider.crypto.hkdf domainKey objectInfo)

/-- `file_object_crypto_identity_valid`: the associated data and the nonce are those of the identity. -/
def fileObjectCryptoIdentityValid (nonce aad : Bytes) : Bool :=
  identity.namespaceId == provider.namespaceId && identity.generation != 0 &&
    identity.recordId != 0 && decide (protectionAuthenticatedPublic ≤ identity.protection) &&
    decide (identity.protection ≤ protectionFirmwareInternal) &&
    (identity.flags &&& ~~~flagMask) == 0 && (identity.flags &&& flagInline) == 0 &&
    provider.identityValid identity &&
    beField aad 0 4 == recordMagic && beField aad 4 1 == 1 &&
    beField aad 5 2 == identity.namespaceId.toNat &&
    beField aad 7 2 == identity.containerKind.toNat &&
    beField aad 9 4 == identity.containerId.toNat &&
    beField aad 13 2 == identity.objectType.toNat &&
    beField aad 15 2 == identity.objectTag.toNat &&
    beField aad 17 4 == identity.generation.toNat &&
    beField aad 21 4 == identity.logicalSize.toNat &&
    beField aad 25 2 == identity.policyId.toNat &&
    (aad.drop 27).take 16 == identity.policyHash.val &&
    beField aad 43 1 == identity.keyDomain.toNat &&
    beField aad 44 1 == identity.protection.toNat &&
    beField aad 45 2 == identity.flags.toNat &&
    beField aad 47 8 == identity.recordId.toNat &&
    beField nonce 0 8 == identity.recordId.toNat && beField nonce 8 4 == identity.generation.toNat

def fileObjectCryptoHmac (key nonce aad stored : Bytes) : Except Status Bytes := do
  let fullTag ← orExecError (provider.crypto.hmac key (aad ++ nonce ++ stored))
  return fullTag.take authTagSize

/-- `file_object_crypto_record_seal`: a public record gets a MAC, a secret one is encrypted. -/
def fileObjectCryptoRecordSeal (nonce aad plaintext : Bytes) (capacity : ℕ) :
    Except Status (Bytes × Bytes) := do
  if !fileObjectCryptoIdentityValid provider identity nonce aad ∨ capacity < plaintext.length then
    throw .wrongData
  let key ← fileObjectCryptoDeriveRecordKey provider identity aad
  if identity.protection = protectionAuthenticatedPublic then
    let tag ← fileObjectCryptoHmac provider key nonce aad plaintext
    return (plaintext, tag)
  else
    if !provider.crypto.gcmSetkey key then
      throw .execError
    orExecError (provider.crypto.gcmEncrypt key nonce aad plaintext)

/-- `file_object_crypto_record_unseal`, into a buffer of a capacity. -/
def fileObjectCryptoRecordUnseal (nonce aad stored tag : Bytes) (capacity : ℕ) :
    Except Status Bytes := do
  if !fileObjectCryptoIdentityValid provider identity nonce aad ∨ capacity < stored.length then
    throw .wrongData
  let key ← fileObjectCryptoDeriveRecordKey provider identity aad
  if identity.protection = protectionAuthenticatedPublic then
    let calculatedTag ← fileObjectCryptoHmac provider key nonce aad stored
    if calculatedTag ≠ tag then
      throw .wrongSignature
    return stored
  else
    if !provider.crypto.gcmSetkey key then
      throw .execError
    match provider.crypto.gcmDecrypt key nonce aad stored tag with
    | none => throw .wrongSignature
    | some plaintext => return plaintext

/-- `file_object_crypto_record_protector`. -/
def FileObjectCryptoProvider.recordProtector : FileObjectRecordProtectorOps where
  sealRecord := fileObjectCryptoRecordSeal provider
  unsealRecord := fileObjectCryptoRecordUnseal provider

end Provider

/-! ### What the associated data and the nonce say -/

namespace FileObjectRecordIdentity

variable (identity : FileObjectRecordIdentity)

theorem length_aadHead : identity.aadHead.encode.length = 27 :=
  length_encode _

theorem length_aadTail : identity.aadTail.encode.length = 12 :=
  length_encode _

/-- `FILE_OBJECT_RECORD_AAD_SIZE`. -/
theorem length_aad : identity.aad.length = 55 := by
  rw [aad, length_append, length_append, length_aadHead, length_aadTail, identity.policyHash.2]

theorem fits_aadHead : identity.aadHead.Fits := by
  simp only [aadHead, Fits, forall_mem_cons]
  exact ⟨by decide, by decide, identity.namespaceId.toNat_lt, identity.containerKind.toNat_lt,
    identity.containerId.toNat_lt, identity.objectType.toNat_lt, identity.objectTag.toNat_lt,
    identity.generation.toNat_lt, identity.logicalSize.toNat_lt, identity.policyId.toNat_lt,
    by simp⟩

theorem fits_aadTail : identity.aadTail.Fits := by
  simp only [aadTail, Fits, forall_mem_cons]
  exact ⟨identity.keyDomain.toNat_lt, identity.protection.toNat_lt, identity.flags.toNat_lt,
    identity.recordId.toNat_lt, by simp⟩

end FileObjectRecordIdentity

/-- **The associated data determines the identity.** -/
theorem aad_injective : Function.Injective aad := by
  intro a b h
  obtain ⟨hfront, htail⟩ := append_inj' h (by rw [a.length_aadTail, b.length_aadTail])
  obtain ⟨hhead, hhash⟩ := append_inj hfront (by rw [a.length_aadHead, b.length_aadHead])
  replace hhead := encode_inj (show a.aadHead.widths = b.aadHead.widths from rfl) a.fits_aadHead
    b.fits_aadHead hhead
  replace htail := encode_inj (show a.aadTail.widths = b.aadTail.widths from rfl) a.fits_aadTail
    b.fits_aadTail htail
  simp only [aadHead, aadTail, List.cons.injEq,
    Prod.mk.injEq, true_and, and_true, UInt8.toNat_inj, UInt16.toNat_inj, UInt32.toNat_inj,
    UInt64.toNat_inj] at hhead htail
  obtain ⟨h1, h2, h3, h4, h5, h6, h7, h8⟩ := hhead
  obtain ⟨h9, h10, h11, h12⟩ := htail
  cases a
  cases b
  simp only [mk.injEq]
  exact ⟨h1, h2, h3, h4, h5, h6, h7, h8, Subtype.ext hhash, h9, h10, h11, h12⟩

theorem length_recordNonce (recordId : UInt64) (generation : UInt32) :
    (recordNonce recordId generation).length = 12 := by
  rfl

theorem fits_recordNonce (recordId : UInt64) (generation : UInt32) :
    Fits [(8, recordId.toNat), (4, generation.toNat)] := by
  simp only [Fits, forall_mem_cons]
  exact ⟨recordId.toNat_lt, generation.toNat_lt, by simp⟩

/-- **No nonce is used for two records.** -/
theorem recordNonce_injective {recordId recordId' : UInt64} {generation generation' : UInt32}
    (h : recordNonce recordId generation = recordNonce recordId' generation') :
    recordId = recordId' ∧ generation = generation' := by
  have hfields : ([(8, recordId.toNat), (4, generation.toNat)] : Fields) =
      [(8, recordId'.toNat), (4, generation'.toNat)] :=
    encode_inj rfl (fits_recordNonce _ _) (fits_recordNonce _ _) h
  simpa only [List.cons.injEq, Prod.mk.injEq, true_and, and_true, UInt32.toNat_inj,
    UInt64.toNat_inj] using hfields

/-- The header of a record ends with its nonce. -/
theorem drop_recordFields (object : FileObjectDescriptor) :
    (recordFields object).encode.drop 28 = recordNonce object.recordId object.generation := by
  have hsplit : (recordFields object).encode =
      encode ((recordFields object).take 8) ++
        recordNonce object.recordId object.generation := by
    rfl
  have hlength : (encode ((recordFields object).take 8)).length = 28 := by
    rfl
  rw [hsplit, drop_left' hlength]

/-- The associated data of the container store. -/
theorem recordAad_eq :
    recordAad manifest.listed (manifest.objects 0) policyHash =
      (manifest.identity policyHash).aad :=
  rfl

/-- **The provider's own check of the associated data**: it is that of the identity, so all that is
left is the identity. -/
theorem cryptoIdentityValid_aad (provider : FileObjectCryptoProvider)
    {manifest : FileObjectManifestFull} (policyHash : PolicyHash)
    (hcore : (manifest.objects 0).coreValid = true) :
    fileObjectCryptoIdentityValid provider (manifest.identity policyHash)
      (recordNonce (manifest.objects 0).recordId (manifest.objects 0).generation)
      (manifest.identity policyHash).aad =
      (manifest.namespaceId == provider.namespaceId &&
        provider.identityValid (manifest.identity policyHash)) := by
  obtain ⟨identity, hidentity⟩ : ∃ identity, identity = manifest.identity policyHash := ⟨_, rfl⟩
  have hhead := at_encode identity.fits_aadHead (identity.policyHash ++ identity.aadTail.encode)
  have hfront : (identity.aadHead.encode ++ identity.policyHash).length = 43 := by
    rw [length_append, identity.length_aadHead, identity.policyHash.2]
  have htail := at_append identity.fits_aadTail (identity.aadHead.encode ++ identity.policyHash) []
  rw [hfront, append_nil] at htail
  replace hhead : At identity.aad 0 identity.aadHead := hhead
  replace htail : At identity.aad 43 identity.aadTail := htail
  simp only [aadHead, aadTail, At, Nat.reduceAdd, Nat.zero_add] at hhead htail
  have hhash : (identity.aad.drop 27).take 16 = identity.policyHash := by
    rw [aad, append_assoc, drop_left' identity.length_aadHead, take_left' identity.policyHash.2]
  have hnonce := at_encode (fits_recordNonce identity.recordId identity.generation) []
  replace hnonce : At (recordNonce identity.recordId identity.generation) 0 _ := hnonce
  simp only [At, Nat.zero_add] at hnonce
  simp only [FileObjectDescriptor.coreValid, Bool.and_eq_true] at hcore
  obtain ⟨⟨⟨⟨⟨⟨⟨⟨⟨-, -⟩, hgen⟩, hid⟩, hlow⟩, hhigh⟩, hmask⟩, hinline⟩, -⟩, -⟩ := hcore
  have hfields : identity.generation = (manifest.objects 0).generation ∧
      identity.recordId = (manifest.objects 0).recordId ∧
      identity.protection = (manifest.objects 0).protection ∧
      identity.flags = (manifest.objects 0).flags ∧
      identity.namespaceId = manifest.namespaceId := hidentity ▸ ⟨rfl, rfl, rfl, rfl, rfl⟩
  obtain ⟨hgenEq, hidEq, hprotEq, hflagsEq, hnsEq⟩ := hfields
  rw [← hidentity, ← hidEq, ← hgenEq, ← hnsEq]
  rw [← hgenEq] at hgen
  rw [← hidEq] at hid
  rw [← hprotEq] at hlow hhigh
  rw [← hflagsEq] at hmask hinline
  rw [fileObjectCryptoIdentityValid]
  simp only [hhead, htail, hhash, hnonce,
    hgen, hid, hlow, hhigh, hmask, hinline, beq_self_eq_true, Bool.and_true]

/-! ### Sealing and unsealing -/

section Codec

variable {provider : FileObjectCryptoProvider} {manifest : FileObjectManifestFull}
  {policyHash : PolicyHash} {plaintext record : Bytes} {capacity : ℕ}

theorem orExecError_eq_ok {α : Type} {x : Option α} {a : α} : orExecError x = .ok a ↔ x = some a := by
  rcases x with - | b
  · exact iff_of_false nofun nofun
  · exact ⟨fun h ↦ congrArg some (Except.ok.inj h), fun h ↦ congrArg Except.ok (Option.some.inj h)⟩

/-- What the primitives have to do for a record of some protection, under its key. -/
def CryptoSeals (crypto : ObjectCryptoPrimitives) (protection : UInt8)
    (key nonce aad plaintext stored tag : Bytes) : Prop :=
  if protection = protectionAuthenticatedPublic then
    stored = plaintext ∧ ∃ full, crypto.hmac key (aad ++ nonce ++ plaintext) = some full ∧
      tag = full.take authTagSize
  else
    crypto.gcmSetkey key = true ∧ crypto.gcmEncrypt key nonce aad plaintext = some (stored, tag)

variable {identity : FileObjectRecordIdentity} {nonce aad p : Bytes}

/-- **The provider's verdict on a record to be sealed.** -/
theorem cryptoRecordSeal_eq_ok {stored tag : Bytes} :
    fileObjectCryptoRecordSeal provider identity nonce aad plaintext capacity = .ok (stored, tag) ↔
      fileObjectCryptoIdentityValid provider identity nonce aad = true ∧
      plaintext.length ≤ capacity ∧
      ∃ key, fileObjectCryptoDeriveRecordKey provider identity aad = .ok key ∧
        CryptoSeals provider.crypto identity.protection key nonce aad plaintext stored tag := by
  unfold fileObjectCryptoRecordSeal
  simp only [throw_eq_error, error_bind, ite_error_eq_ok, except_bind_eq_ok, not_or, not_lt,
    Bool.not_eq_true', Bool.not_eq_false, CryptoSeals, and_assoc]
  refine and_congr_right fun _ ↦ and_congr_right fun _ ↦ exists_congr fun key ↦
    and_congr_right fun _ ↦ ?_
  by_cases hpublic : identity.protection = protectionAuthenticatedPublic
  · rw [if_pos hpublic, if_pos hpublic]
    unfold fileObjectCryptoHmac
    simp only [except_bind_eq_ok, orExecError_eq_ok, pure_eq_ok, Except.ok.injEq, Prod.mk.injEq]
    constructor
    · rintro ⟨_, ⟨full, hfull, rfl⟩, rfl, rfl⟩
      exact ⟨rfl, full, hfull, rfl⟩
    · rintro ⟨rfl, full, hfull, rfl⟩
      exact ⟨_, ⟨full, hfull, rfl⟩, rfl, rfl⟩
  · rw [if_neg hpublic, if_neg hpublic, ite_error_eq_ok, Bool.not_eq_false, orExecError_eq_ok]

/-- What was sealed has the lengths the record has room for. -/
theorem CryptoSeals.lengths {crypto : ObjectCryptoPrimitives} {protection : UInt8}
    {key stored tag : Bytes} (h : CryptoSeals crypto protection key nonce aad plaintext stored tag) :
    stored.length = plaintext.length ∧ tag.length = authTagSize := by
  rw [CryptoSeals] at h
  split_ifs at h with hpublic
  · obtain ⟨rfl, full, hfull, rfl⟩ := h
    refine ⟨rfl, ?_⟩
    rw [length_take, crypto.length_hmac _ _ _ hfull]
    rfl
  · exact ⟨crypto.length_stored _ _ _ _ _ _ h.2, crypto.length_tag _ _ _ _ _ _ h.2⟩

/-- **The provider on a record it has sealed.** -/
theorem cryptoRecordUnseal_seal {stored tag : Bytes} {capacity' : ℕ}
    (h : fileObjectCryptoRecordSeal provider identity nonce aad plaintext capacity = .ok (stored, tag))
    (hcapacity : plaintext.length ≤ capacity') :
    fileObjectCryptoRecordUnseal provider identity nonce aad stored tag capacity' =
      .ok plaintext := by
  obtain ⟨hvalid, -, key, hkey, hseals⟩ := cryptoRecordSeal_eq_ok.mp h
  have hlength := hseals.lengths.1
  unfold fileObjectCryptoRecordUnseal
  rw [if_neg (not_or.mpr ⟨by simp [hvalid], by omega⟩), hkey, ok_bind]
  rw [CryptoSeals] at hseals
  split_ifs at hseals ⊢ with hpublic hsetkey
  · obtain ⟨rfl, full, hfull, rfl⟩ := hseals
    unfold fileObjectCryptoHmac
    simp only [hfull, orExecError, ok_bind, pure_eq_ok, ne_eq, not_true_eq_false, if_false]
  · rw [hseals.1] at hsetkey
    cases hsetkey
  · rw [provider.crypto.gcmDecrypt_gcmEncrypt _ _ _ _ _ _ hseals.2]
    rfl

/-- What a record is made of, once it has been sealed. -/
structure SealedRecord (provider : FileObjectCryptoProvider) (manifest : FileObjectManifestFull)
    (policyHash : PolicyHash) (plaintext stored tag : Bytes) : Prop where
  hasObject : manifest.hasObject = true
  sizes : RecordSizes (manifest.objects 0) plaintext
  /-- What the provider made of the payload. -/
  sealedBy : fileObjectCryptoRecordSeal provider (manifest.identity policyHash)
    (recordNonce (manifest.objects 0).recordId (manifest.objects 0).generation)
    (manifest.identity policyHash).aad plaintext plaintext.length = .ok (stored, tag)

/-- The bytes of a sealed record. -/
def sealedBytes (manifest : FileObjectManifestFull) (stored tag : Bytes) : Bytes :=
  (recordFields (manifest.objects 0)).encode ++ (stored ++ tag)

/-- **The sealer's verdict.** -/
theorem recordSealBy_eq_ok :
    fileObjectRecordSealBy provider.recordProtector manifest policyHash plaintext capacity =
        .ok record ↔
      recordHeaderSize + plaintext.length + authTagSize ≤ capacity ∧
      ∃ stored tag, SealedRecord provider manifest policyHash plaintext stored tag ∧
        record = sealedBytes manifest stored tag := by
  unfold fileObjectRecordSealBy fileObjectRecordIdentityBuild fileObjectRecordHeaderBuild
  simp only [throw_eq_error, error_bind, ite_error_eq_ok, except_bind_eq_ok, not_or, not_not,
    not_lt, Bool.or_eq_true, Bool.not_eq_true', Bool.not_eq_false, pure_eq_ok, Except.ok.injEq]
  constructor
  · rintro ⟨⟨hobject, hlogical, hstoredSize⟩, hcapacity, ⟨identity, aad⟩, ⟨⟨-, hcore⟩, hid⟩,
      header, ⟨-, rfl⟩, ⟨stored, tag⟩, hsealed, hlength, rfl⟩
    obtain ⟨rfl, rfl⟩ := Prod.mk.inj hid
    refine ⟨hcapacity, stored, tag, ⟨hobject, ⟨hcore, hlogical, ?_⟩, hsealed⟩, ?_⟩
    · exact UInt32.toNat_inj.mp (hlogical.symm.trans hstoredSize)
    · rw [sealedBytes, append_assoc]
  · rintro ⟨hcapacity, stored, tag, hsealed, rfl⟩
    obtain ⟨hcore, hlogical, hsame⟩ := hsealed.sizes
    obtain ⟨-, -, key, -, hseals⟩ := cryptoRecordSeal_eq_ok.mp hsealed.sealedBy
    refine ⟨⟨hsealed.hasObject, hlogical, hsame ▸ hlogical⟩, hcapacity, _,
      ⟨⟨hsealed.hasObject, hcore⟩, rfl⟩, _, ⟨hcore, rfl⟩, (stored, tag), ?_, hseals.lengths.1, ?_⟩
    · rw [drop_recordFields]
      exact hsealed.sealedBy
    · rw [sealedBytes, append_assoc]

variable {stored tag : Bytes}

section

variable (h : SealedRecord provider manifest policyHash plaintext stored tag)
include h

theorem SealedRecord.lengths :
    stored.length = (manifest.objects 0).storedSize.toNat ∧ tag.length = authTagSize := by
  obtain ⟨-, -, key, -, hseals⟩ := cryptoRecordSeal_eq_ok.mp h.sealedBy
  refine ⟨?_, hseals.lengths.2⟩
  rw [hseals.lengths.1, h.sizes.length_eq, h.sizes.stored_eq]

/-- The record parses against its descriptor. -/
theorem SealedRecord.headerParse :
    fileObjectRecordHeaderParse (sealedBytes manifest stored tag) (manifest.objects 0) = .ok () := by
  refine recordHeaderParse_append h.sizes.coreValid ?_
  rw [length_append, h.lengths.1, h.lengths.2]

/-- The nonce, the payload and the tag of a record are where they were put. -/
theorem SealedRecord.parts :
    ((sealedBytes manifest stored tag).drop 28).take 12 =
        recordNonce (manifest.objects 0).recordId (manifest.objects 0).generation ∧
      ((sealedBytes manifest stored tag).drop recordHeaderSize).take
        (manifest.objects 0).storedSize.toNat = stored ∧
      ((sealedBytes manifest stored tag).drop
        (recordHeaderSize + (manifest.objects 0).storedSize.toNat)).take authTagSize = tag := by
  have hheader := length_recordFields (manifest.objects 0)
  refine ⟨?_, ?_, ?_⟩
  · rw [sealedBytes, drop_append_of_le_length (by rw [hheader]; decide), drop_recordFields,
      take_left' (length_recordNonce _ _)]
  · rw [sealedBytes, drop_left' hheader, take_left' h.lengths.1]
  · rw [← drop_drop, sealedBytes, drop_left' hheader, drop_left' h.lengths.1,
      take_of_length_le h.lengths.2.le]

end

/-- What has to be so for a record to be unsealed. -/
theorem recordUnsealBy_eq_ok {protector : FileObjectRecordProtectorOps} :
    fileObjectRecordUnsealBy protector manifest policyHash record capacity = .ok p ↔
      (manifest.hasObject = true ∧ (manifest.objects 0).logicalSize.toNat ≤ capacity ∧
        (manifest.objects 0).logicalSize = (manifest.objects 0).storedSize) ∧
      fileObjectRecordHeaderParse record (manifest.objects 0) = .ok () ∧
      (manifest.objects 0).coreValid = true ∧
      protector.unsealRecord (manifest.identity policyHash) ((record.drop 28).take 12)
        (manifest.identity policyHash).aad
        ((record.drop recordHeaderSize).take (manifest.objects 0).storedSize.toNat)
        ((record.drop (recordHeaderSize + (manifest.objects 0).storedSize.toNat)).take authTagSize)
        capacity = .ok p ∧
      p.length = (manifest.objects 0).logicalSize.toNat := by
  unfold fileObjectRecordUnsealBy fileObjectRecordIdentityBuild
  simp only [throw_eq_error, error_bind, ite_error_eq_ok, except_bind_eq_ok, not_or, not_not,
    not_lt, Bool.or_eq_true, Bool.not_eq_true', Bool.not_eq_false, pure_eq_ok, Except.ok.injEq]
  constructor
  · rintro ⟨hguard, ⟨⟩, hparse, ⟨identity, aad⟩, ⟨⟨-, hcore⟩, hid⟩, q, hunseal, hlength, rfl⟩
    obtain ⟨rfl, rfl⟩ := Prod.mk.inj hid
    exact ⟨hguard, hparse, hcore, hunseal, hlength⟩
  · rintro ⟨hguard, hparse, hcore, hunseal, hlength⟩
    exact ⟨hguard, (), hparse, _, ⟨⟨hguard.1, hcore⟩, rfl⟩, p, hunseal, hlength, rfl⟩

/-- **A sealed record unseals to its payload.** -/
theorem SealedRecord.unseal (h : SealedRecord provider manifest policyHash plaintext stored tag)
    (hcapacity : plaintext.length ≤ capacity) :
    fileObjectRecordUnsealBy provider.recordProtector manifest policyHash
      (sealedBytes manifest stored tag) capacity = .ok plaintext := by
  obtain ⟨hnonce, hstored, htag⟩ := h.parts
  refine recordUnsealBy_eq_ok.mpr ⟨⟨h.hasObject, h.sizes.length_eq ▸ hcapacity, h.sizes.stored_eq⟩,
    h.headerParse, h.sizes.coreValid, ?_, h.sizes.length_eq⟩
  rw [hnonce, hstored, htag]
  exact cryptoRecordUnseal_seal h.sealedBy hcapacity

/-- What a record's framing says of the descriptor it was parsed against. -/
theorem recordHeaderParse_fields {object : FileObjectDescriptor}
    (h : fileObjectRecordHeaderParse record object = .ok ()) :
    record.length = recordHeaderSize + object.storedSize.toNat + authTagSize ∧
      beField record 5 1 = object.protection.toNat ∧
      beField record 8 8 = object.recordId.toNat ∧
      beField record 16 4 = object.storedSize.toNat ∧
      beField record 20 4 = object.logicalSize.toNat ∧
      beField record 24 4 = object.generation.toNat := by
  unfold fileObjectRecordHeaderParse at h
  simp only [ite_error_eq_ok, not_or, not_not] at h
  obtain ⟨-, ⟨-, hlength⟩, ⟨-, -, h5, -, h8, h16, h20, h24, -⟩, -⟩ := h
  exact ⟨hlength, h5, h8, h16, h20, h24⟩

/-- The MAC or the AEAD is **ideal** for a record: no key has the tag for another message, or opens the
stored bytes under another nonce or other associated data. -/
def SealedIdeally (crypto : ObjectCryptoPrimitives) (protection : UInt8)
    (nonce aad stored tag : Bytes) : Prop :=
  if protection = protectionAuthenticatedPublic then
    ∀ key message full, crypto.hmac key message = some full → full.take authTagSize = tag →
      message = aad ++ nonce ++ stored
  else
    ∀ key nonce' aad' plaintext, crypto.gcmDecrypt key nonce' aad' stored tag = some plaintext →
      nonce' = nonce ∧ aad' = aad

/-- The provider unseals, under an ideal MAC or AEAD, only for the associated data it has sealed for. -/
theorem aad_eq_of_unseal {aad' : Bytes}
    (hideal : SealedIdeally provider.crypto identity.protection nonce aad stored tag)
    (hlen : aad.length = aad'.length)
    (h : fileObjectCryptoRecordUnseal provider identity nonce aad' stored tag capacity = .ok p) :
    aad' = aad := by
  unfold fileObjectCryptoRecordUnseal at h
  simp only [throw_eq_error, error_bind, ite_error_eq_ok, except_bind_eq_ok] at h
  obtain ⟨-, key, -, h⟩ := h
  rw [SealedIdeally] at hideal
  by_cases hpublic : identity.protection = protectionAuthenticatedPublic
  · rw [if_pos hpublic] at hideal h
    unfold fileObjectCryptoHmac at h
    simp only [ite_error_eq_ok, except_bind_eq_ok, orExecError_eq_ok, pure_eq_ok, Except.ok.injEq,
      not_not] at h
    obtain ⟨_, ⟨full, hfull, rfl⟩, htag, -⟩ := h
    have hmessage := hideal key _ full hfull htag
    rw [append_assoc, append_assoc] at hmessage
    exact (append_inj hmessage hlen.symm).1
  · rw [if_neg hpublic] at hideal h
    rw [ite_error_eq_ok] at h
    rcases hdecrypt : provider.crypto.gcmDecrypt key nonce aad' stored tag with - | q
    · rw [hdecrypt] at h
      cases h.2
    · exact (hideal key nonce aad' q hdecrypt).2

/-- **A sealed record is unsealed for no other identity.** -/
theorem SealedRecord.binds (h : SealedRecord provider manifest policyHash plaintext stored tag)
    (hideal : SealedIdeally provider.crypto (manifest.objects 0).protection
      (recordNonce (manifest.objects 0).recordId (manifest.objects 0).generation)
      (manifest.identity policyHash).aad stored tag)
    {manifest' : FileObjectManifestFull} {policyHash' : PolicyHash}
    (hunseal : fileObjectRecordUnsealBy provider.recordProtector manifest' policyHash'
      (sealedBytes manifest stored tag) capacity = .ok p) :
    manifest'.identity policyHash' = manifest.identity policyHash ∧
      (manifest'.objects 0).storedSize = (manifest.objects 0).storedSize := by
  obtain ⟨-, hparse, -, hopened, -⟩ := recordUnsealBy_eq_ok.mp hunseal
  obtain ⟨-, hprot', -, hstored', -⟩ := recordHeaderParse_fields hparse
  obtain ⟨-, hprot, -, hstored, -⟩ := recordHeaderParse_fields h.headerParse
  have hprotection : (manifest'.objects 0).protection = (manifest.objects 0).protection :=
    UInt8.toNat_inj.mp (hprot'.symm.trans hprot)
  have hsize : (manifest'.objects 0).storedSize = (manifest.objects 0).storedSize :=
    UInt32.toNat_inj.mp (hstored'.symm.trans hstored)
  have hideal' : SealedIdeally provider.crypto (manifest'.identity policyHash').protection
      (recordNonce (manifest.objects 0).recordId (manifest.objects 0).generation)
      (manifest.identity policyHash).aad stored tag := by
    show SealedIdeally provider.crypto (manifest'.objects 0).protection _ _ _ _
    rw [hprotection]
    exact hideal
  have hlen : (manifest.identity policyHash).aad.length =
      (manifest'.identity policyHash').aad.length := by
    rw [length_aad, length_aad]
  obtain ⟨hnonce, hpayload, htag⟩ := h.parts
  rw [hsize, hnonce, hpayload, htag] at hopened
  exact ⟨aad_injective (aad_eq_of_unseal hideal' hlen hopened), hsize⟩

end Codec

/-! ### The container store's protector -/

/-- A protector that takes no notice of the identity. -/
def FileObjectRecordProtector.ops (protector : FileObjectRecordProtector) :
    FileObjectRecordProtectorOps where
  sealRecord _ nonce aad plaintext _ := .ok (protector.sealRecord nonce aad plaintext)
  unsealRecord _ nonce aad stored tag _ := protector.unsealRecord nonce aad stored tag

section Store

variable (protector : FileObjectRecordProtector) {manifest : FileObjectManifestFull}
  (policyHash : PolicyHash) (hobject : manifest.hasObject = true)

include hobject

/-- With room for the record, sealing is what the container store does. -/
theorem fileObjectRecordSealBy_eq {plaintext : Bytes} {capacity : ℕ}
    (hcapacity : recordHeaderSize + plaintext.length + authTagSize ≤ capacity) :
    fileObjectRecordSealBy protector.ops manifest policyHash plaintext capacity =
      fileObjectRecordSeal manifest.listed (manifest.objects 0) policyHash protector plaintext := by
  unfold fileObjectRecordSealBy fileObjectRecordSeal fileObjectRecordIdentityBuild
    fileObjectRecordHeaderBuild
  simp only [throw_eq_error, error_bind, hobject, Bool.true_eq_false, false_or, Bool.not_true,
    Bool.false_or, if_neg (Nat.not_lt.mpr hcapacity)]
  split_ifs
  · rfl
  · rfl
  · simp only [ok_bind, FileObjectRecordProtector.ops, recordAad_eq]
    rw [if_neg (by simp [protector.length_stored])]

/-- And so is unsealing. -/
theorem fileObjectRecordUnsealBy_eq (record : Bytes) (capacity : ℕ) :
    fileObjectRecordUnsealBy protector.ops manifest policyHash record capacity =
      fileObjectRecordUnseal manifest.listed (manifest.objects 0) policyHash protector record
        capacity := by
  unfold fileObjectRecordUnsealBy fileObjectRecordUnseal fileObjectRecordIdentityBuild
  simp only [throw_eq_error, error_bind, hobject, Bool.true_eq_false, false_or, Bool.not_true,
    Bool.false_or]
  refine if_congr Iff.rfl rfl ?_
  rcases hparse : fileObjectRecordHeaderParse record (manifest.objects 0) with r | u
  · rfl
  have hcore : (manifest.objects 0).coreValid = true := by
    unfold fileObjectRecordHeaderParse at hparse
    by_contra hcore
    rw [if_pos (by simpa using hcore)] at hparse
    cases hparse
  simp only [hcore, Bool.not_true, Bool.false_eq_true, if_false, ok_bind,
    FileObjectRecordProtector.ops, recordAad_eq]

end Store

/-! ### The codec binds the identity -/

/-- What a record needs to be sealed: an object whose sizes agree with its payload, and a provider that
takes its identity and whose primitives do their work. -/
structure Sealable (provider : FileObjectCryptoProvider) (manifest : FileObjectManifestFull)
    (policyHash : PolicyHash) (plaintext : Bytes) : Prop where
  hasObject : manifest.hasObject = true
  sizes : RecordSizes (manifest.objects 0) plaintext
  namespaceId_eq : manifest.namespaceId = provider.namespaceId
  identityValid : provider.identityValid (manifest.identity policyHash) = true
  primitives : ∃ key stored tag,
    fileObjectCryptoDeriveRecordKey provider (manifest.identity policyHash)
      (manifest.identity policyHash).aad = .ok key ∧
    CryptoSeals provider.crypto (manifest.objects 0).protection key
      (recordNonce (manifest.objects 0).recordId (manifest.objects 0).generation)
      (manifest.identity policyHash).aad plaintext stored tag

theorem sealable_iff {provider : FileObjectCryptoProvider} {manifest : FileObjectManifestFull}
    {policyHash : PolicyHash} {plaintext : Bytes} :
    Sealable provider manifest policyHash plaintext ↔
      ∃ stored tag, SealedRecord provider manifest policyHash plaintext stored tag := by
  constructor
  · rintro ⟨hobject, hsizes, hns, hvalid, key, stored, tag, hkey, hseals⟩
    refine ⟨stored, tag, hobject, hsizes, cryptoRecordSeal_eq_ok.mpr ⟨?_, le_rfl, key, hkey, hseals⟩⟩
    rw [cryptoIdentityValid_aad provider policyHash hsizes.coreValid, hns, hvalid]
    simp
  · rintro ⟨stored, tag, hsealed⟩
    obtain ⟨hvalid, -, key, hkey, hseals⟩ := cryptoRecordSeal_eq_ok.mp hsealed.sealedBy
    rw [cryptoIdentityValid_aad provider policyHash hsealed.sizes.coreValid, Bool.and_eq_true,
      beq_iff_eq] at hvalid
    exact ⟨hsealed.hasObject, hsealed.sizes, hvalid.1, hvalid.2, key, stored, tag, hkey, hseals⟩

/-- **The record codec binds identity.** The associated data is injective in all fields of the identity,
and the nonce in record id and generation; every record that can be sealed is sealed, if there is room;
a sealed record is unsealed under its own identity to its payload; and, with its MAC or AEAD ideal, it
is not unsealed with any other identity or stored size, nor is any record of another length. -/
theorem record_seal_binds_identity (provider : FileObjectCryptoProvider) :
    Function.Injective FileObjectRecordIdentity.aad ∧
    (∀ (recordId recordId' : UInt64) (generation generation' : UInt32),
      recordNonce recordId generation = recordNonce recordId' generation' →
        recordId = recordId' ∧ generation = generation') ∧
    ∀ (manifest : FileObjectManifestFull) (policyHash : PolicyHash) (plaintext : Bytes)
      (capacity : ℕ),
      ((∃ record, fileObjectRecordSealBy provider.recordProtector manifest policyHash plaintext
          capacity = .ok record) ↔
        Sealable provider manifest policyHash plaintext ∧
          recordHeaderSize + plaintext.length + authTagSize ≤ capacity) ∧
      ∀ record, fileObjectRecordSealBy provider.recordProtector manifest policyHash plaintext
          capacity = .ok record →
        (∀ capacity', plaintext.length ≤ capacity' →
          fileObjectRecordUnsealBy provider.recordProtector manifest policyHash record capacity' =
            .ok plaintext) ∧
        (∀ record' capacity', record'.length ≠ record.length →
          ∃ r, fileObjectRecordUnsealBy provider.recordProtector manifest policyHash record'
            capacity' = .error r) ∧
        (SealedIdeally provider.crypto (manifest.objects 0).protection
            (recordNonce (manifest.objects 0).recordId (manifest.objects 0).generation)
            (manifest.identity policyHash).aad
            ((record.drop recordHeaderSize).take plaintext.length)
            (record.drop (recordHeaderSize + plaintext.length)) →
          ∀ (manifest' : FileObjectManifestFull) (policyHash' : PolicyHash) (capacity' : ℕ),
            manifest'.identity policyHash' ≠ manifest.identity policyHash ∨
              (manifest'.objects 0).storedSize ≠ (manifest.objects 0).storedSize →
            ∃ r, fileObjectRecordUnsealBy provider.recordProtector manifest' policyHash' record
              capacity' = .error r) := by
  refine ⟨aad_injective, fun _ _ _ _ ↦ recordNonce_injective,
    fun manifest policyHash plaintext capacity ↦ ⟨?_, fun record hseal ↦ ?_⟩⟩
  · simp only [recordSealBy_eq_ok, sealable_iff]
    exact ⟨fun ⟨_, hcapacity, stored, tag, hsealed, _⟩ ↦ ⟨⟨stored, tag, hsealed⟩, hcapacity⟩,
      fun ⟨⟨stored, tag, hsealed⟩, hcapacity⟩ ↦ ⟨_, hcapacity, stored, tag, hsealed, rfl⟩⟩
  obtain ⟨-, stored, tag, hsealed, rfl⟩ := recordSealBy_eq_ok.mp hseal
  refine ⟨fun capacity' hcapacity ↦ hsealed.unseal hcapacity, fun record' capacity' hlength ↦ ?_,
    fun hideal manifest' policyHash' capacity' hother ↦ ?_⟩
  · rcases hunseal : fileObjectRecordUnsealBy provider.recordProtector manifest policyHash record'
      capacity' with r | p
    · exact ⟨r, rfl⟩
    · have hparse := (recordUnsealBy_eq_ok.mp hunseal).2.1
      exact absurd ((recordHeaderParse_fields hparse).1.trans
        (recordHeaderParse_fields hsealed.headerParse).1.symm) hlength
  · obtain ⟨-, hpayload, htag⟩ := hsealed.parts
    have hsize : (manifest.objects 0).storedSize.toNat = plaintext.length := by
      rw [hsealed.sizes.length_eq, hsealed.sizes.stored_eq]
    have hrest : (sealedBytes manifest stored tag).drop (recordHeaderSize + plaintext.length) =
        tag := by
      rw [← hsize, ← drop_drop, sealedBytes, drop_left' (length_recordFields _),
        drop_left' hsealed.lengths.1]
    rw [hrest, ← hsize, hpayload] at hideal
    rcases hunseal : fileObjectRecordUnsealBy provider.recordProtector manifest' policyHash'
      (sealedBytes manifest stored tag) capacity' with r | p
    · exact ⟨r, rfl⟩
    · obtain ⟨hidentity, hstored⟩ := hsealed.binds hideal hunseal
      exact absurd hother (by simp [hidentity, hstored])

/-- An object of three bytes in secret. -/
def exampleSealManifest : FileObjectManifestFull :=
  { exampleManifestFull with
    objectCount := 1
    hasObject := true
    objects := fun _ ↦ ⟨1, 2, 3, 3, 4, 3, 0, 0, protectionAeadSecret, 0, 0, 0, 0⟩ }

theorem length_examplePolicyHash : (List.replicate 16 (0 : UInt8)).length = 16 :=
  length_replicate

def examplePolicyHash : PolicyHash :=
  ⟨List.replicate 16 0, length_examplePolicyHash⟩

@[inherit_doc exampleSealManifest]
def exampleSealIdentity : FileObjectRecordIdentity :=
  exampleSealManifest.identity examplePolicyHash

/-- Primitives whose AEAD leaves the payload as it is, with a tag that tells the identity of
`exampleSealManifest` from all others. -/
def exampleSealCrypto : ObjectCryptoPrimitives where
  hkdf _ _ := some (List.replicate 32 0)
  hmac _ _ := some (List.replicate 32 0)
  gcmSetkey _ := true
  gcmEncrypt _ nonce aad plaintext :=
    some (plaintext, List.replicate 16
      (if nonce = recordNonce 4 3 ∧ aad = exampleSealIdentity.aad then 1 else 0))
  gcmDecrypt _ nonce aad stored tag :=
    if tag = List.replicate 16
        (if nonce = recordNonce 4 3 ∧ aad = exampleSealIdentity.aad then 1 else 0) then some stored
    else none
  length_hmac := by
    rintro key message full h
    rw [← Option.some.inj h, List.length_replicate]
  length_stored := by
    rintro key nonce aad plaintext stored tag h
    rw [(Prod.mk.inj (Option.some.inj h)).1]
  length_tag := by
    rintro key nonce aad plaintext stored tag h
    rw [← (Prod.mk.inj (Option.some.inj h)).2, List.length_replicate]
  gcmDecrypt_gcmEncrypt := by
    rintro key nonce aad plaintext stored tag h
    obtain ⟨rfl, rfl⟩ := Prod.mk.inj (Option.some.inj h)
    exact if_pos rfl

/-- A provider over `exampleSealCrypto`. -/
def exampleSealProvider : FileObjectCryptoProvider where
  crypto := exampleSealCrypto
  namespaceId := 1
  loadRoot := .ok (List.replicate 32 0)
  loadPublicRoot := none
  identityValid _ := true
  namespaceId_ne := by decide

/-- Three bytes are sealed and unsealed, and not for another container. -/
theorem record_seal_binds_container :
    ∃ record, fileObjectRecordSealBy exampleSealProvider.recordProtector exampleSealManifest
        examplePolicyHash [7, 8, 9] 59 = .ok record ∧
      fileObjectRecordUnsealBy exampleSealProvider.recordProtector exampleSealManifest
        examplePolicyHash record 3 = .ok [7, 8, 9] ∧
      ∃ r, fileObjectRecordUnsealBy exampleSealProvider.recordProtector
        { exampleSealManifest with containerId := 9 } examplePolicyHash record 3 =
          .error r := by
  have hseal : fileObjectRecordSealBy exampleSealProvider.recordProtector exampleSealManifest
      examplePolicyHash [7, 8, 9] 59 =
        .ok (sealedBytes exampleSealManifest [7, 8, 9] (List.replicate 16 1)) := by decide +kernel
  have hbinds := ((record_seal_binds_identity exampleSealProvider).2.2 exampleSealManifest
    examplePolicyHash [7, 8, 9] 59).2 _ hseal
  refine ⟨_, hseal, hbinds.1 3 le_rfl, hbinds.2.2 ?_ _ _ 3 (.inl (by decide))⟩
  intro key nonce' aad' plaintext hopen
  have htag : ((sealedBytes exampleSealManifest [7, 8, 9] (List.replicate 16 1)).drop
      (recordHeaderSize + 3)) = List.replicate 16 1 := by decide +kernel
  simp only [exampleSealProvider, exampleSealCrypto] at hopen
  split_ifs at hopen with hthis hmatch hmatch
  · exact hthis
  · have hbad := hmatch.symm.trans htag
    simp at hbad

end PicoAll
