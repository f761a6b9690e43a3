import PicoAll.Fs.ObjectStoreTxn

/-!
# Manifests and records

`object_container.c`: the byte formats an object container is made of. A *manifest* lists the
descriptors of the container's objects under a header and a MAC; a *record* holds the data of one
object under a header and an AEAD tag whose associated data binds it to the container and to its
descriptor.

Numbers are the source's fixed-width integers, so that a descriptor that fits the C struct is a
descriptor that fits its 36 bytes. The MAC and the AEAD are parameters. The store never writes an
extension, but it parses manifests that have some; the extension area is therefore modelled as the
source has it.
-/

namespace PicoAll

open FaultProgram BigEndian

/-- `file_object_descriptor_t`. -/
structure FileObjectDescriptor where
  objectType : UInt16
  objectTag : UInt16
  generation : UInt32
  logicalSize : UInt32
  recordId : UInt64
  storedSize : UInt32
  policyId : UInt16
  keyDomain : UInt8
  protection : UInt8
  flags : UInt16
  extensionOffset : UInt16
  extensionSize : UInt16
  transactionGroup : UInt16
  deriving DecidableEq, Repr

/-- `file_object_manifest_t`. The object count is the length of the list of objects; the offsets the
parser derives from it are not kept. -/
structure FileObjectManifest where
  flags : UInt16
  namespaceId : UInt16
  containerKind : UInt16
  containerId : UInt32
  generation : UInt32
  previousGeneration : UInt32
  extensionSize : UInt16
  objects : List FileObjectDescriptor
  deriving DecidableEq, Repr

/-- An AEAD provider: it seals a plaintext under a nonce and associated data into as many stored
bytes and a tag, and unseals what it has sealed. -/
structure FileObjectRecordProtector where
  /-- `seal`: the stored bytes and the tag. -/
  sealRecord : (nonce aad plaintext : Bytes) → Bytes × Bytes
  /-- `unseal`. -/
  unsealRecord : (nonce aad stored tag : Bytes) → Except Status Bytes
  /-- Stored bytes are as many as plaintext bytes. -/
  length_stored : ∀ nonce aad plaintext,
    (sealRecord nonce aad plaintext).1.length = plaintext.length
  /-- Tags are `FILE_OBJECT_AUTH_TAG_SIZE` bytes long. -/
  length_tag : ∀ nonce aad plaintext, (sealRecord nonce aad plaintext).2.length = 16
  /-- What was sealed is unsealed again. -/
  unseal_seal : ∀ nonce aad plaintext,
    unsealRecord nonce aad (sealRecord nonce aad plaintext).1 (sealRecord nonce aad plaintext).2 =
      .ok plaintext

/-! ### Constants -/

/-- `"PKOC"`. -/
abbrev manifestMagic : ℕ := 0x504b4f43

/-- `"PKOR"`. -/
abbrev recordMagic : ℕ := 0x504b4f52

/-- `FILE_OBJECT_MANIFEST_HEADER_SIZE`. -/
abbrev manifestHeaderSize : ℕ := 32

/-- `FILE_OBJECT_DESCRIPTOR_SIZE`. -/
abbrev descriptorSize : ℕ := 36

/-- `FILE_OBJECT_MANIFEST_MAX_OBJECTS`. -/
abbrev manifestMaxObjects : ℕ := 8

/-- `FILE_OBJECT_RECORD_HEADER_SIZE`. -/
abbrev recordHeaderSize : ℕ := 40

/-- `FILE_OBJECT_FLAG_INLINE`. -/
abbrev flagInline : UInt16 := 0x0001

/-- `FILE_OBJECT_FLAG_MUTABLE`. -/
abbrev flagMutable : UInt16 := 0x0002

/-- `FILE_OBJECT_FLAG_NON_EXPORTABLE`. -/
abbrev flagNonExportable : UInt16 := 0x0004

/-- `FILE_OBJECT_FLAG_GENERIC_READABLE`. -/
abbrev flagGenericReadable : UInt16 := 0x0008

/-- `FILE_OBJECT_FLAG_TRANSACTION_GROUP`. -/
abbrev flagTransactionGroup : UInt16 := 0x0010

/-- `FILE_OBJECT_FLAG_MASK`. -/
abbrev flagMask : UInt16 := 0x003f

/-- `FILE_OBJECT_PROTECTION_AUTHENTICATED_PUBLIC`. -/
abbrev protectionAuthenticatedPublic : UInt8 := 1

/-- `FILE_OBJECT_PROTECTION_AEAD_SECRET`. -/
abbrev protectionAeadSecret : UInt8 := 2

/-- `FILE_OBJECT_PROTECTION_FIRMWARE_INTERNAL`. -/
abbrev protectionFirmwareInternal : UInt8 := 3

/-! ### Descriptors -/

namespace FileObjectDescriptor

/-- What a container identifies an object by. -/
def key (object : FileObjectDescriptor) : UInt16 × UInt16 :=
  (object.objectType, object.objectTag)

/-- `file_object_descriptor_core_valid`. -/
def coreValid (object : FileObjectDescriptor) : Bool :=
  object.objectType != 0 && object.objectType != 0xffff && object.generation != 0 &&
    object.recordId != 0 && decide (protectionAuthenticatedPublic ≤ object.protection) &&
    decide (object.protection ≤ protectionFirmwareInternal) &&
    (object.flags &&& ~~~flagMask) == 0 && (object.flags &&& flagInline) == 0 &&
    ((object.flags &&& flagTransactionGroup) != 0) == (object.transactionGroup != 0) &&
    (object.extensionOffset == 0) == (object.extensionSize == 0)

/-- `file_object_descriptor_valid`. -/
def valid (object : FileObjectDescriptor) (extensionStart extensionEnd : ℕ) : Bool :=
  object.coreValid && (object.extensionSize == 0 ||
    (decide (extensionStart ≤ object.extensionOffset.toNat) &&
      decide (object.extensionOffset.toNat ≤ extensionEnd) &&
      decide (object.extensionSize.toNat ≤ extensionEnd - object.extensionOffset.toNat)))

/-- The 36 bytes of a descriptor, field by field. -/
def fields (object : FileObjectDescriptor) : Fields :=
  [(2, object.objectType.toNat), (2, object.objectTag.toNat), (4, object.generation.toNat),
    (4, object.logicalSize.toNat), (8, object.recordId.toNat), (4, object.storedSize.toNat),
    (2, object.policyId.toNat), (1, object.keyDomain.toNat), (1, object.protection.toNat),
    (2, object.flags.toNat), (2, object.extensionOffset.toNat), (2, object.extensionSize.toNat),
    (2, object.transactionGroup.toNat)]

/-- `file_object_descriptor_decode`. -/
def decode (data : Bytes) : FileObjectDescriptor where
  objectType := .ofNat (beField data 0 2)
  objectTag := .ofNat (beField data 2 2)
  generation := .ofNat (beField data 4 4)
  logicalSize := .ofNat (beField data 8 4)
  recordId := .ofNat (beField data 12 8)
  storedSize := .ofNat (beField data 20 4)
  policyId := .ofNat (beField data 24 2)
  keyDomain := .ofNat (beField data 26 1)
  protection := .ofNat (beField data 27 1)
  flags := .ofNat (beField data 28 2)
  extensionOffset := .ofNat (beField data 30 2)
  extensionSize := .ofNat (beField data 32 2)
  transactionGroup := .ofNat (beField data 34 2)

end FileObjectDescriptor

/-- The order of `file_object_container_descriptor_compare`, strictly. -/
def keyLt (a b : UInt16 × UInt16) : Bool :=
  decide (a.1 < b.1) || (a.1 == b.1 && decide (a.2 < b.2))

/-- The order loop of `file_object_descriptors_valid`: types, then tags, strictly increase. -/
def descriptorsSorted : List FileObjectDescriptor → Bool
  | a :: b :: rest => keyLt a.key b.key && descriptorsSorted (b :: rest)
  | _ => true

/-- `file_object_descriptors_valid`. -/
def descriptorsValid (objects : List FileObjectDescriptor) (extensionStart extensionEnd : ℕ) :
    Bool :=
  objects.all (·.valid extensionStart extensionEnd) && descriptorsSorted objects

/-! ### Extensions -/

/-- The loop of `file_object_extensions_validate`: a sequence of kind, flags, two-byte size and
value, with `supported` saying which kinds the reader knows. The fuel is the number of bytes. -/
def extensionsValidate (supported : UInt8 → Bool) : ℕ → Bytes → Bool
  | _, [] => true
  | 0, _ => false
  | fuel + 1, kind :: flags :: hi :: lo :: rest =>
    let valueSize := beNat [hi, lo]
    kind != 0 && (flags &&& ~~~(1 : UInt8)) == 0 && decide (valueSize ≤ rest.length) &&
      ((flags &&& 1) == 0 || supported kind) &&
      extensionsValidate supported fuel (rest.drop valueSize)
  | _ + 1, _ => false

def fileObjectExtensionsValidate (extensions : Bytes) (supported : UInt8 → Bool) :
    Except Status Unit :=
  if extensionsValidate supported extensions.length extensions then .ok () else .error .wrongData

/-- The extensions of one object, found through `bytesAt`, which takes an offset in the manifest to the
bytes from there on. -/
def objectExtensionsValidate (bytesAt : ℕ → Bytes) (supported : UInt8 → Bool)
    (object : FileObjectDescriptor) : Except Status Unit :=
  if object.extensionSize > 0 then
    fileObjectExtensionsValidate
      ((bytesAt object.extensionOffset.toNat).take object.extensionSize.toNat) supported
  else
    .ok ()

/-! ### Manifests -/

variable (manifest : FileObjectManifest) (object : FileObjectDescriptor)

/-- The header of a manifest: magic, version, header size, flags, namespace, kind, container id,
generation, previous generation, object count, descriptor size, a reserved byte, the size of the
extensions and the total size. -/
def manifestFields (extensionsSize totalSize : ℕ) : Fields :=
  [(4, manifestMagic), (1, 1), (1, manifestHeaderSize), (2, manifest.flags.toNat),
    (2, manifest.namespaceId.toNat), (2, manifest.containerKind.toNat),
    (4, manifest.containerId.toNat), (4, manifest.generation.toNat),
    (4, manifest.previousGeneration.toNat), (2, manifest.objects.length), (1, descriptorSize),
    (1, 0), (2, extensionsSize), (2, totalSize)]

/-- The bytes of a manifest under its tag. -/
def manifestBody (extensions : Bytes) (totalSize : ℕ) : Bytes :=
  (manifestFields manifest extensions.length totalSize).encode ++
    manifest.objects.flatMap (·.fields.encode) ++ extensions

/-- `file_object_manifest_build`. The output buffer of the container store holds every manifest of
at most `manifestMaxObjects` objects. -/
def fileObjectManifestBuild (extensions : Bytes) (auth : FileObjectAuthenticator) :
    Except Status Bytes := do
  if extensions.length > UINT16_MAX then
    throw .nullParam
  if manifest.objects.length > manifestMaxObjects then
    throw .wrongData
  let extensionStart := manifestHeaderSize + manifest.objects.length * descriptorSize
  let extensionEnd := extensionStart + extensions.length
  let totalSize := extensionEnd + authTagSize
  if manifest.generation = 0 ∨ manifest.previousGeneration ≥ manifest.generation then
    throw .wrongData
  if totalSize > UINT16_MAX then
    throw .wrongLength
  if !descriptorsValid manifest.objects extensionStart extensionEnd then
    throw .wrongData
  fileObjectExtensionsValidate extensions fun _ ↦ true
  manifest.objects.forM (objectExtensionsValidate
    (fun offset ↦ extensions.drop (offset - extensionStart)) fun _ ↦ true)
  let body := manifestBody manifest extensions totalSize
  return body ++ auth.tag body

/-- `file_object_manifest_parse`, with no extension kind supported, as the store calls it. -/
def fileObjectManifestParse (data : Bytes) (auth : FileObjectAuthenticator) :
    Except Status FileObjectManifest := do
  if data.length < manifestHeaderSize + authTagSize ∨ data.length > UINT16_MAX then
    throw .wrongLength
  let objectCount := beField data 24 2
  let extensionsSize := beField data 28 2
  if beField data 0 4 ≠ manifestMagic ∨ beField data 4 1 ≠ 1 ∨
      beField data 5 1 ≠ manifestHeaderSize ∨ objectCount > manifestMaxObjects ∨
      beField data 26 1 ≠ descriptorSize ∨ beField data 27 1 ≠ 0 ∨
      beField data 30 2 ≠ data.length then
    throw .wrongData
  let extensionStart := manifestHeaderSize + objectCount * descriptorSize
  let extensionEnd := extensionStart + extensionsSize
  if extensionEnd + authTagSize ≠ data.length then
    throw .wrongData
  if auth.tag (data.take (data.length - authTagSize)) ≠ data.drop (data.length - authTagSize) then
    throw .wrongSignature
  fileObjectExtensionsValidate ((data.drop extensionStart).take extensionsSize) fun _ ↦ false
  let parsed : FileObjectManifest :=
    { flags := .ofNat (beField data 6 2)
      namespaceId := .ofNat (beField data 8 2)
      containerKind := .ofNat (beField data 10 2)
      containerId := .ofNat (beField data 12 4)
      generation := .ofNat (beField data 16 4)
      previousGeneration := .ofNat (beField data 20 4)
      extensionSize := .ofNat extensionsSize
      objects := (List.range objectCount).map fun i ↦
        .decode (data.drop (manifestHeaderSize + i * descriptorSize)) }
  if parsed.generation = 0 ∨ parsed.previousGeneration ≥ parsed.generation then
    throw .wrongData
  if !descriptorsValid parsed.objects extensionStart extensionEnd then
    throw .wrongData
  parsed.objects.forM (objectExtensionsValidate data.drop fun _ ↦ false)
  return parsed

/-! ### Records -/

/-- The header of a record: magic, version, protection, header size, record id, stored size, logical
size and generation; its last twelve bytes, record id and generation again, are the nonce. -/
def recordFields : Fields :=
  [(4, recordMagic), (1, 1), (1, object.protection.toNat), (2, recordHeaderSize),
    (8, object.recordId.toNat), (4, object.storedSize.toNat), (4, object.logicalSize.toNat),
    (4, object.generation.toNat), (8, object.recordId.toNat), (4, object.generation.toNat)]

def fileObjectRecordHeaderBuild : Except Status Bytes :=
  if !object.coreValid then .error .wrongData else .ok (recordFields object).encode

/-- `file_object_record_header_parse`. It checks the framing of a record and that it is the record
of a descriptor, not its tag. -/
def fileObjectRecordHeaderParse (record : Bytes) (object : FileObjectDescriptor) :
    Except Status Unit :=
  if !object.coreValid then
    .error .wrongData
  else if record.length < recordHeaderSize + authTagSize ∨
      record.length ≠ recordHeaderSize + object.storedSize.toNat + authTagSize then
    .error .wrongLength
  else if beField record 0 4 ≠ recordMagic ∨ beField record 4 1 ≠ 1 ∨
      beField record 5 1 ≠ object.protection.toNat ∨ beField record 6 2 ≠ recordHeaderSize ∨
      beField record 8 8 ≠ object.recordId.toNat ∨
      beField record 16 4 ≠ object.storedSize.toNat ∨
      beField record 20 4 ≠ object.logicalSize.toNat ∨
      beField record 24 4 ≠ object.generation.toNat ∨
      beField record 28 8 ≠ object.recordId.toNat ∨
      beField record 36 4 ≠ object.generation.toNat then
    .error .wrongData
  else
    .ok ()

/-- The associated data `file_object_record_identity_build` lays out: everything that identifies the
container and the object, and the hash of the object's policy. -/
def recordAad (policyHash : Bytes) :
    Bytes :=
  Fields.encode [(4, recordMagic), (1, 1), (2, manifest.namespaceId.toNat),
    (2, manifest.containerKind.toNat), (4, manifest.containerId.toNat), (2, object.objectType.toNat),
    (2, object.objectTag.toNat), (4, object.generation.toNat), (4, object.logicalSize.toNat),
    (2, object.policyId.toNat)] ++ policyHash ++
  Fields.encode [(1, object.keyDomain.toNat), (1, object.protection.toNat),
    (2, object.flags.toNat), (8, object.recordId.toNat)]

/-- `file_object_record_seal`, of an object of a container. -/
def fileObjectRecordSeal (policyHash : Bytes) (protector : FileObjectRecordProtector)
    (plaintext : Bytes) :
    Except Status Bytes := do
  if plaintext.length ≠ object.logicalSize.toNat ∨ plaintext.length ≠ object.storedSize.toNat then
    throw .wrongLength
  let header ← fileObjectRecordHeaderBuild object
  let (stored, tag) := protector.sealRecord (header.drop 28)
    (recordAad manifest object policyHash) plaintext
  return header ++ stored ++ tag

/-- `file_object_record_unseal`, into a buffer with room for `capacity` bytes. -/
def fileObjectRecordUnseal (policyHash : Bytes) (protector : FileObjectRecordProtector)
    (record : Bytes) (capacity : ℕ) :
    Except Status Bytes := do
  if capacity < object.logicalSize.toNat ∨ object.logicalSize ≠ object.storedSize then
    throw .wrongLength
  fileObjectRecordHeaderParse record object
  let plaintext ← protector.unsealRecord ((record.drop 28).take 12) (recordAad manifest object policyHash)
    ((record.drop recordHeaderSize).take object.storedSize.toNat)
    ((record.drop (recordHeaderSize + object.storedSize.toNat)).take authTagSize)
  if plaintext.length ≠ object.logicalSize.toNat then
    throw .wrongLength
  return plaintext

end PicoAll
