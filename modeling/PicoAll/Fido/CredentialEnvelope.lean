import PicoAll.Lib.BoundedRead
import PicoAll.Lib.Cbor

/-!
# Credential ids as envelopes

The credential ids of `credential.c`: a marker of the format, a nonce, a CBOR map under an AEAD whose
associated data is the hash of the relying party's id, its tag, and, in the formats that have one, a
tag that is checked without decrypting. `credential_create` writes one, `credential_verify` checks it
and `credential_load` reads the fields back.

The CBOR library and the cryptography are parameters. What is handed in as a credential id is any
byte string, and a read outside it, or a length of a ciphertext below zero, is `none`.
-/

namespace PicoAll

open ByteBuffer

/-- `CRED_PROTO_22_S`. -/
abbrev credProto22 : Bytes := [0xF1, 0xD0, 0x02, 0x02]

/-- `CRED_PROTO_25_S`. -/
abbrev credProto25 : Bytes := [0xF1, 0xD0, 0x02, 0x05]

/-- `CRED_PROTO`, the format that is written. -/
abbrev credProto : Bytes := credProto25

abbrev credProtoLen : ℕ := 4

abbrev credIvLen : ℕ := 12

abbrev credTagLen : ℕ := 16

/-- `CRED_SILENT_TAG_LEN`. -/
abbrev credSilentLen : ℕ := 16

abbrev credCiphertextOffset : ℕ := credProtoLen + credIvLen

abbrev credEnvelopeOverhead : ℕ := credCiphertextOffset + credTagLen

abbrev credSilentEnvelopeOverhead : ℕ := credEnvelopeOverhead + credSilentLen

abbrev maxCredIdLength : ℕ := 1024

abbrev maxCredBlobLength : ℕ := 128

abbrev keyHandleLen : ℕ := 64

abbrev fido2AlgEs256 : ℤ := -7

abbrev fido2CurveP256 : ℤ := 1

/-- `"credBlob"`. -/
abbrev keyCredBlob : Bytes := [0x63, 0x72, 0x65, 0x64, 0x42, 0x6C, 0x6F, 0x62]

/-- `"credProtect"`. -/
abbrev keyCredProtect : Bytes :=
  [0x63, 0x72, 0x65, 0x64, 0x50, 0x72, 0x6F, 0x74, 0x65, 0x63, 0x74]

/-- `"hmac-secret"`. -/
abbrev keyHmacSecret : Bytes :=
  [0x68, 0x6D, 0x61, 0x63, 0x2D, 0x73, 0x65, 0x63, 0x72, 0x65, 0x74]

/-- `"largeBlobKey"`. -/
abbrev keyLargeBlobKey : Bytes :=
  [0x6C, 0x61, 0x72, 0x67, 0x65, 0x42, 0x6C, 0x6F, 0x62, 0x4B, 0x65, 0x79]

/-- `"thirdPartyPayment"`. -/
abbrev keyThirdPartyPayment : Bytes :=
  [0x74, 0x68, 0x69, 0x72, 0x64, 0x50, 0x61, 0x72, 0x74, 0x79, 0x50, 0x61, 0x79, 0x6D, 0x65, 0x6E,
    0x74]

/-- `"rk"`. -/
abbrev keyRk : Bytes := [0x72, 0x6B]

/-- `CredOptions`: a null pointer, `ptrue` or `pfalse` each. -/
structure CredOptions where
  rk : Option Bool
  up : Option Bool
  uv : Option Bool
  present : Bool
  deriving DecidableEq, Repr

/-- The extensions of a credential. -/
structure CredExtensions where
  hmacSecret : Option Bool
  credProtect : ℕ
  minPinLength : Option Bool
  credBlob : Option Bytes
  largeBlobKey : Option Bool
  thirdPartyPayment : Option Bool
  present : Bool
  deriving DecidableEq, Repr

/-- The arguments of `credential_create`, and what it reads of the device: the clocks and the nonce.
A string that is absent has no data. -/
structure CredentialRequest where
  rpId : Option Bytes
  userId : Option Bytes
  userName : Option Bytes
  userDisplayName : Option Bytes
  opts : CredOptions
  extensions : CredExtensions
  useSignCount : Bool
  alg : Int32
  curve : Int32
  /-- `board_millis`. -/
  millis : UInt32
  /-- `has_set_rtc` and `get_rtc_time`. -/
  rtc : Option UInt64
  /-- `random_fill_buffer`. -/
  iv : Vector UInt8 12
  /-- `credProtect` is a number of 64 bits. -/
  credProtect_lt : extensions.credProtect < 2 ^ 64

/-- A credential as it is loaded. -/
structure Credential where
  rpId : Option Bytes
  rpIdHash : Option Bytes
  userId : Option Bytes
  userName : Option Bytes
  userDisplayName : Option Bytes
  boardCreation : ℕ
  extensions : CredExtensions
  useSignCount : Option Bool
  alg : ℤ
  curve : ℤ
  id : Option Bytes
  residentId : Option Bytes
  privateKey : Option Bytes
  opts : CredOptions
  u2f : Bool
  imported : Bool
  requireButton : Bool
  present : Bool
  rtcCreation : ℕ
  deriving DecidableEq, Repr

/-- What the functions return instead of a value. -/
inductive EnvelopeError where
  /-- `CTAP2_ERR_CBOR_UNEXPECTED_TYPE`. -/
  | unexpectedType
  /-- `CTAP2_ERR_INVALID_CREDENTIAL`. -/
  | invalidCredential
  /-- `CTAP1_ERR_OTHER`. -/
  | other
  /-- An error of the CBOR library. -/
  | cbor (e : CborError)
  deriving DecidableEq, Repr

/-- An error of the CBOR library, as it is returned. -/
def ofCbor {α : Type} (r : Except CborError α) : Except EnvelopeError α :=
  r.mapError fun e ↦ if e = .improperValue then .unexpectedType else .cbor e

/-- The cryptography, and the secrets of the device. -/
structure EnvelopeCrypto where
  cbor : CborCodec
  sha256 : Bytes → Vector UInt8 32
  hmacSha256 : Vector UInt8 32 → Bytes → Vector UInt8 32
  /-- `mbedtls_chachapoly_encrypt_and_tag`, by the key, the nonce and the associated data. -/
  encryptAndTag : Bytes → Bytes → Bytes → Bytes → Option (Bytes × Bytes)
  /-- `mbedtls_chachapoly_auth_decrypt`, with the tag and the ciphertext. -/
  authDecrypt : Bytes → Bytes → Bytes → Bytes → Bytes → Option Bytes
  /-- `credential_derive_chacha_key`, by the marker of a format. -/
  chachaKey : Bytes → Bytes
  otpKey1 : Option Bytes
  /-- `pico_serial.id`. -/
  serialId : Bytes
  certdevSha256 : Bytes
  u2fLoadKey : Vector UInt8 32 → Bytes → Bool

variable (E : EnvelopeCrypto)

/-! ### Creating -/

/-- A text up to its first NUL, which is where a C string ends. -/
def cText (text : Bytes) : Bytes :=
  text.takeWhile (· != 0)

/-- `CBOR_APPEND_KEY_UINT_VAL_STRING`. -/
def appendString (key : ℕ) : Option Bytes → List CborToken
  | some text => if text.length > 0 then [.uint key, .text (cText text)] else []
  | none => []

/-- `CBOR_APPEND_KEY_UINT_VAL_BYTES`. -/
def appendBytes (key : ℕ) : Option Bytes → List CborToken
  | some data => if data.length > 0 then [.uint key, .bytes data] else []
  | none => []

/-- The `credBlob` of a credential, which is left out if it is too long. -/
def credBlobTokens : Option Bytes → List CborToken
  | some data =>
    if data.length < maxCredBlobLength then [.text keyCredBlob, .bytes data] else []
  | none => []

/-- A flag that is written only if it is set. -/
def flagTokens (key : Bytes) (flag : Option Bool) : List CborToken :=
  if flag = some true then [.text key, .bool true] else []

/-- The entries of the map of extensions. -/
def extensionTokens (e : CredExtensions) : List CborToken :=
  credBlobTokens e.credBlob ++
  (if e.credProtect ≠ 0 then [.text keyCredProtect, .uint e.credProtect] else []) ++
  (match e.hmacSecret with
    | some b => [.text keyHmacSecret, .bool b]
    | none => []) ++
  flagTokens keyLargeBlobKey e.largeBlobKey ++
  flagTokens keyThirdPartyPayment e.thirdPartyPayment

/-- The entries of the map of options. -/
def optionTokens (o : CredOptions) : List CborToken :=
  match o.rk with
  | some b => [.text keyRk, .bool b]
  | none => []

/-- The map of a credential, without its ends. -/
def credentialEntries (r : CredentialRequest) (rpIdHash : Vector UInt8 32) : List CborToken :=
  appendString 0x01 r.rpId ++
  [.uint 0x02, .bytes rpIdHash.toList] ++
  appendBytes 0x03 r.userId ++
  appendString 0x04 r.userName ++
  appendString 0x05 r.userDisplayName ++
  [.uint 0x06, .uint r.millis.toNat] ++
  (if r.extensions.present then
    .uint 0x07 :: (.map none :: extensionTokens r.extensions ++ [.stop]) else []) ++
  [.uint 0x08, .bool r.useSignCount] ++
  (if r.alg.toInt ≠ fido2AlgEs256 ∨ r.curve.toInt ≠ fido2CurveP256 then
    [cborInt 0x09, cborInt r.alg.toInt] ++ [cborInt 0x0A, cborInt r.curve.toInt] else []) ++
  (if r.opts.present then .uint 0x0B :: (.map none :: optionTokens r.opts ++ [.stop]) else []) ++
  (match r.rtc with
    | some time => [.uint 0x0C, .uint time.toNat]
    | none => [])

/-- The map of a credential. -/
def credentialTokens (r : CredentialRequest) (rpIdHash : Vector UInt8 32) : List CborToken :=
  .map none :: credentialEntries r rpIdHash ++ [.stop]

/-- The key of the silent tag. -/
def silentKey (proto : Bytes) (rpIdHash : Vector UInt8 32) : Vector UInt8 32 :=
  E.sha256 (E.otpKey1.getD E.serialId ++ (if proto = credProto25 then E.certdevSha256 else []) ++
    rpIdHash.toList)

/-- `credential_silent_tag`, of a credential id without the tag. -/
def credentialSilentTag (credId : Bytes) (rpIdHash : Vector UInt8 32) : Bytes :=
  (E.hmacSha256 (silentKey E (credId.take credProtoLen) rpIdHash) credId).toList.take credSilentLen

/-- The hash of a relying party's id. -/
def CredentialRequest.rpIdHash (r : CredentialRequest) : Vector UInt8 32 :=
  E.sha256 (r.rpId.getD [])

/-- `credential_create`: the credential id. -/
def credentialCreate (r : CredentialRequest) : Except EnvelopeError Bytes := do
  let rpIdHash := r.rpIdHash E
  let payload ← ofCbor (E.cbor.write (maxCredIdLength - credSilentEnvelopeOverhead)
    (credentialTokens r rpIdHash))
  match E.encryptAndTag (E.chachaKey credProto) r.iv.toList rpIdHash.toList payload with
  | none => .error .other
  | some (cipher, tag) =>
    let credId := credProto ++ r.iv.toList ++ cipher ++ tag
    .ok (credId ++ credentialSilentTag E credId rpIdHash)

/-! ### Verifying -/

/-- A length that is a difference; below zero it is no length. -/
def lengthLess (len overhead : ℕ) : BoundedRead ℕ :=
  if overhead ≤ len then some (len - overhead) else none

/-- `credential_verify` without decrypting: whether the silent tag is the right one. -/
def credentialVerifySilent (credId : Bytes) (rpIdHash : Vector UInt8 32) : BoundedRead Bool :=
  if credId.length < credEnvelopeOverhead then some false
  else do
    let proto ← BoundedRead.bytes credId 0 credProtoLen
    if proto = credProto22 ∨ proto = credProto25 then do
      let signedLen ← lengthLess credId.length credSilentLen
      let signed ← BoundedRead.bytes credId 0 signedLen
      let tag ← BoundedRead.bytes credId signedLen credSilentLen
      some (credentialSilentTag E signed rpIdHash == tag)
    else some false

/-- `credential_verify` with decryption: the credential id with the plaintext in it, if the tag is
the right one. -/
def credentialVerify (credId : Bytes) (rpIdHash : Vector UInt8 32) : BoundedRead (Option Bytes) :=
  if credId.length < credEnvelopeOverhead then some none
  else do
    let proto ← BoundedRead.bytes credId 0 credProtoLen
    -- The newer formats have the silent tag behind the tag of the AEAD.
    let silentLen := if proto = credProto22 ∨ proto = credProto25 then credSilentLen else 0
    let iv ← BoundedRead.bytes credId credProtoLen credIvLen
    let tagOffset ← lengthLess credId.length (silentLen + credTagLen)
    let tag ← BoundedRead.bytes credId tagOffset credTagLen
    let cipherLen ← lengthLess credId.length (credEnvelopeOverhead + silentLen)
    let cipher ← BoundedRead.bytes credId credCiphertextOffset cipherLen
    some ((E.authDecrypt (E.chachaKey proto) iv rpIdHash.toList tag cipher).map
      (patch credId credCiphertextOffset))

/-! ### Loading -/

/-- `NULL` for every option. -/
def noOptions : CredOptions :=
  ⟨none, none, none, false⟩

def noExtensions : CredExtensions :=
  ⟨none, 0, none, none, none, none, false⟩

/-- A credential before its fields are read. -/
def blankCredential : Credential where
  rpId := none
  rpIdHash := none
  userId := none
  userName := none
  userDisplayName := none
  boardCreation := 0
  extensions := noExtensions
  useSignCount := none
  alg := fido2AlgEs256
  curve := fido2CurveP256
  id := none
  residentId := none
  privateKey := none
  opts := noOptions
  u2f := false
  imported := false
  requireButton := false
  present := false
  rtcCreation := 0

variable (C : CborCodec)

/-- An entry of the map of extensions. -/
def extensionField (e : CredExtensions) (c : CborCursor) :
    Except CborError (CredExtensions × CborCursor) := do
  let (key, c) ← C.getKeyText c
  if key = keyHmacSecret then do
    let (b, c) ← C.getBool c
    .ok ({ e with hmacSecret := some b }, c)
  else if key = keyCredProtect then do
    let (n, c) ← C.getUint c
    .ok ({ e with credProtect := n }, c)
  else if key = keyCredBlob then do
    let (data, c) ← C.getBytes c
    .ok ({ e with credBlob := some data }, c)
  else if key = keyLargeBlobKey then do
    let (b, c) ← C.getBool c
    .ok ({ e with largeBlobKey := some b }, c)
  else if key = keyThirdPartyPayment then do
    let (b, c) ← C.getBool c
    .ok ({ e with thirdPartyPayment := some b }, c)
  else do
    let c ← C.skip c
    .ok (e, c)

/-- An entry of the map of options. -/
def optionField (o : CredOptions) (c : CborCursor) :
    Except CborError (CredOptions × CborCursor) := do
  let (key, c) ← C.getKeyText c
  if key = keyRk then do
    let (b, c) ← C.getBool c
    .ok ({ o with rk := some b }, c)
  else do
    let c ← C.skip c
    .ok (o, c)

/-- An entry of the map of a credential. -/
def credentialField (cred : Credential) (c : CborCursor) :
    Except CborError (Credential × CborCursor) := do
  let (key, c) ← C.getUint c
  match key with
  | 0x01 => do
    let (text, c) ← C.getText c
    .ok ({ cred with rpId := some text }, c)
  | 0x03 => do
    let (data, c) ← C.getBytes c
    .ok ({ cred with userId := some data }, c)
  | 0x04 => do
    let (text, c) ← C.getText c
    .ok ({ cred with userName := some text }, c)
  | 0x05 => do
    let (text, c) ← C.getText c
    .ok ({ cred with userDisplayName := some text }, c)
  | 0x06 => do
    let (n, c) ← C.getUint c
    .ok ({ cred with boardCreation := n }, c)
  | 0x07 => do
    let (e, c) ← C.readMap (extensionField C) { cred.extensions with present := true } c
    .ok ({ cred with extensions := e }, c)
  | 0x08 => do
    let (b, c) ← C.getBool c
    .ok ({ cred with useSignCount := some b }, c)
  | 0x09 => do
    let (i, c) ← C.getInt c
    .ok ({ cred with alg := i }, c)
  | 0x0A => do
    let (i, c) ← C.getInt c
    .ok ({ cred with curve := i }, c)
  | 0x0B => do
    let (o, c) ← C.readMap (optionField C) { cred.opts with present := true } c
    .ok ({ cred with opts := o }, c)
  | 0x0C => do
    let (n, c) ← C.getUint c
    .ok ({ cred with rtcCreation := n }, c)
  | _ => do
    let c ← C.skip c
    .ok (cred, c)

/-- The map of a credential, at the start of a buffer; what stands behind it is not looked at. -/
def credentialParse (data : Bytes) : Except CborError Credential := do
  let (cred, _) ← C.enterMap (credentialField C) blankCredential ⟨data, none⟩
  .ok cred

/-- `credential_load`. What does not verify may be a key handle of U2F. -/
def credentialLoad (credId : Bytes) (rpIdHash : Vector UInt8 32) :
    BoundedRead (Except EnvelopeError Credential) := do
  match ← credentialVerify E credId rpIdHash with
  | none =>
    if credId.length ≠ keyHandleLen then some (.error .invalidCredential)
    else do
      let handle ← BoundedRead.bytes credId 0 keyHandleLen
      if E.u2fLoadKey rpIdHash handle then
        some (.ok { blankCredential with
          u2f := true, requireButton := true, id := some credId, present := true })
      else some (.error .invalidCredential)
  | some copy => do
    let dataLen ← lengthLess credId.length credEnvelopeOverhead
    let data ← BoundedRead.bytes copy credCiphertextOffset dataLen
    some ((ofCbor (credentialParse E.cbor data)).map fun cred ↦
      { cred with id := some credId, present := true })

end PicoAll
