import PicoAll.Lib.Hpke

/-!
# The enrollment ceremony of the vault

A ceremony is started by a fresh X448 key and a challenge; the packet that answers it carries a
certificate, an encapsulated key and a ciphertext. `picokeys_vault_enrollment_decode` ends the
ceremony whatever it is given. The lengths in the packet come from outside: reads of the packet go
through `packetSlice`, which stops with `outside` where the code would read past its end.

The primitives are parameters; extraction, expansion and the key schedule are modelled from the
source, with the sizes of its buffers.
-/

namespace PicoAll.Vault

open BigEndian

/-- What an enrollment fails with. -/
inductive VaultError where
  | nullParam
  | wrongLength
  | wrongData
  | execError
  | verificationFailed
  | noMemory
  deriving DecidableEq, Repr

/-- Why the decoding of a packet stopped. -/
inductive VaultStop where
  | refused (e : VaultError)
  /-- A read past the end of the packet. -/
  | outside
  deriving DecidableEq, Repr

def vaultKeySize : ℕ :=
  32

def vaultX448Bytes : ℕ :=
  56

def vaultEnrollChallengeBytes : ℕ :=
  32

def vaultEnrollCertMax : ℕ :=
  1900

/-- The most that a label has. -/
def vaultLabelMax : ℕ :=
  64

def vaultEnrollPlainMax : ℕ :=
  vaultKeySize + 1 + vaultLabelMax

def vaultEnrollMinPacketLen : ℕ :=
  2 + vaultX448Bytes + vaultKeySize + 16

/-- "PicoKeys Vault enrollment v2". -/
def vaultEnrollmentHpkeInfo : Bytes :=
  [0x50, 0x69, 0x63, 0x6f, 0x4b, 0x65, 0x79, 0x73, 0x20, 0x56, 0x61, 0x75, 0x6c, 0x74, 0x20,
    0x65, 0x6e, 0x72, 0x6f, 0x6c, 0x6c, 0x6d, 0x65, 0x6e, 0x74, 0x20, 0x76, 0x32]

/-! ### What is not part of the code -/

/-- An entry of the subject's alternative names. -/
inductive AltName where
  | dns (name : Bytes)
  | uri (name : Bytes)
  | other
  deriving DecidableEq, Repr

/-- What the code asks of a certificate that was parsed. -/
structure Certificate where
  /-- It verifies against the built-in authority, without flags. -/
  chains : Bool
  altNames : List AltName
  /-- The point of a key on Curve448, in what may be any number of bytes. -/
  curve448Point : Option Bytes
  deriving DecidableEq, Repr

/-- The cryptography and the certificates, and the serial number. -/
structure VaultParams where
  /-- The serial number of the device. -/
  serial : Bytes
  parse : Bytes → Option Certificate
  /-- HMAC with SHA-512. -/
  hmac : Bytes → Bytes → Bytes
  /-- The X448 function, from a private and a public key. -/
  ecdh : Bytes → Bytes → Option Bytes
  /-- AES-256-GCM, from key, nonce, associated data, ciphertext and tag. -/
  gcmDecrypt : Bytes → Bytes → Bytes → Bytes → Bytes → Option Bytes
  length_hmac : ∀ key message, (hmac key message).length = 64
  length_gcmDecrypt : ∀ key nonce aad ciphertext tag plain,
    gcmDecrypt key nonce aad ciphertext tag = some plain → plain.length = ciphertext.length

variable (V : VaultParams)

/-! ### Opening a ciphertext -/

def vaultX448Shared (privateKey peerPublic : Bytes) : Except VaultError Bytes :=
  match V.ecdh privateKey peerPublic with
  | none => .error .execError
  | some shared =>
    if shared.length ≠ vaultX448Bytes then .error .wrongLength
    else if ∀ byte ∈ shared, byte = 0 then .error .verificationFailed
    else .ok shared

def vaultHpkeNh : ℕ :=
  64

def vaultHpkeNk : ℕ :=
  32

def vaultHpkeNn : ℕ :=
  12

def vaultHpkeNt : ℕ :=
  16

def vaultHpkeExpandInfoMax : ℕ :=
  256

def vaultHpkeLabeledInputMax : ℕ :=
  256

/-- "KEM", X448 with HKDF-SHA512. -/
def kemSuiteId : Bytes :=
  [0x4b, 0x45, 0x4d, 0x00, 0x21]

/-- "HPKE", with AES-256-GCM. -/
def hpkeSuiteId : Bytes :=
  [0x48, 0x50, 0x4b, 0x45, 0x00, 0x21, 0x00, 0x03, 0x00, 0x02]

def vaultHpkeHkdfExtract (salt ikm : Bytes) : Except VaultError Bytes :=
  if salt.length > vaultHpkeNh then .error .wrongData
  else
    let salt := if salt.length = 0 then List.replicate vaultHpkeNh 0 else salt
    .ok (V.hmac salt ikm)

/-- The loop of the expansion: what has been written, the block before, the counter. -/
def hkdfExpandLoop (prk info : Bytes) (outputLen : ℕ) : ℕ → Bytes → Bytes → ℕ → Bytes
  | 0, written, _, _ => written
  | rounds + 1, written, previous, counter =>
    if written.length < outputLen then
      let input := (if counter > 1 then previous else []) ++ info ++ [UInt8.ofNat counter]
      let block := V.hmac prk input
      let copyLen := min (outputLen - written.length) vaultHpkeNh
      hkdfExpandLoop prk info outputLen rounds (written ++ block.take copyLen) block (counter + 1)
    else written

/-- The counter has one byte: there are at most 255 rounds. -/
def vaultHpkeHkdfExpand (prk info : Bytes) (outputLen : ℕ) : Except VaultError Bytes :=
  if info.length > vaultHpkeExpandInfoMax ∨ outputLen > 255 * vaultHpkeNh then .error .wrongData
  else .ok (hkdfExpandLoop V prk info outputLen 255 [] (List.replicate vaultHpkeNh 0) 1)

def vaultHpkeLabeledExtract (suiteId salt label ikm : Bytes) : Except VaultError Bytes :=
  let labeledLen := Hpke.version.length + suiteId.length + label.length + ikm.length
  if suiteId.length = 0 ∨ labeledLen > vaultHpkeLabeledInputMax then .error .wrongData
  else vaultHpkeHkdfExtract V salt (Hpke.version ++ suiteId ++ label ++ ikm)

/-- `vault_hpke_labeled_expand`. -/
def vaultHpkeLabeledExpand (suiteId prk label info : Bytes) (outputLen : ℕ) :
    Except VaultError Bytes :=
  let labeledLen := 2 + Hpke.version.length + suiteId.length + label.length + info.length
  if suiteId.length = 0 ∨ outputLen > 0xffff ∨ labeledLen > vaultHpkeExpandInfoMax then
    .error .wrongData
  else
    vaultHpkeHkdfExpand V prk
      ([UInt8.ofNat (outputLen >>> 8), UInt8.ofNat outputLen] ++ Hpke.version ++ suiteId ++ label ++
        info) outputLen

/-- The secret shared through the encapsulated key and with the sender. -/
def vaultHpkeSharedSecret (enc recipientPrivate recipientPublic senderPublic : Bytes) :
    Except VaultError Bytes := do
  let ephemeral ← vaultX448Shared V recipientPrivate enc
  let static ← vaultX448Shared V recipientPrivate senderPublic
  let eaePrk ← vaultHpkeLabeledExtract V kemSuiteId [] Hpke.eaePrkLabel (ephemeral ++ static)
  vaultHpkeLabeledExpand V kemSuiteId eaePrk Hpke.sharedSecretLabel
    (enc ++ recipientPublic ++ senderPublic) vaultHpkeNh

/-- Key and nonce. -/
def vaultHpkeKeySchedule (sharedSecret info : Bytes) : Except VaultError (Bytes × Bytes) := do
  let pskIdHash ← vaultHpkeLabeledExtract V hpkeSuiteId [] Hpke.pskIdHashLabel []
  let infoHash ← vaultHpkeLabeledExtract V hpkeSuiteId [] Hpke.infoHashLabel info
  let keyScheduleContext := 0x02 :: (pskIdHash ++ infoHash)
  let secret ← vaultHpkeLabeledExtract V hpkeSuiteId sharedSecret Hpke.secretLabel []
  let key ← vaultHpkeLabeledExpand V hpkeSuiteId secret Hpke.keyLabel keyScheduleContext vaultHpkeNk
  let nonce ← vaultHpkeLabeledExpand V hpkeSuiteId secret Hpke.baseNonceLabel keyScheduleContext
    vaultHpkeNn
  return (key, nonce)

def vaultHpkeGcmOpen (key nonce aad ciphertext : Bytes) : Except VaultError Bytes :=
  match V.gcmDecrypt key nonce aad (ciphertext.take (ciphertext.length - vaultHpkeNt))
      (ciphertext.drop (ciphertext.length - vaultHpkeNt)) with
  | none => .error .verificationFailed
  | some plain => .ok plain

/-- The derivation and the opening. What goes wrong in them is all the same to the caller. -/
def vaultHpkeAuthSteps (enc recipientPrivate recipientPublic senderPublic info aad
    ciphertext : Bytes) : Except VaultError Bytes := do
  let sharedSecret ← vaultHpkeSharedSecret V enc recipientPrivate recipientPublic senderPublic
  let schedule ← vaultHpkeKeySchedule V sharedSecret info
  vaultHpkeGcmOpen V schedule.1 schedule.2 aad ciphertext

def vaultHpkeAuthDecap (enc recipientPrivate recipientPublic senderPublic info aad
    ciphertext : Bytes) : Except VaultError Bytes :=
  if ciphertext.length < vaultHpkeNt then .error .nullParam
  else
    (vaultHpkeAuthSteps V enc recipientPrivate recipientPublic senderPublic info aad
      ciphertext).mapError fun _ ↦ .verificationFailed

/-! ### The ceremony -/

/-- The ceremony, as it is kept between commands. -/
structure Enrollment where
  active : Bool
  privateKey : Bytes
  publicKey : Bytes
  challenge : Bytes
  length_publicKey : publicKey.length = vaultX448Bytes
  length_challenge : challenge.length = vaultEnrollChallengeBytes
  deriving DecidableEq

def picokeysVaultEnrollmentClear : Enrollment where
  active := false
  privateKey := List.replicate vaultX448Bytes 0
  publicKey := List.replicate vaultX448Bytes 0
  challenge := List.replicate vaultEnrollChallengeBytes 0
  length_publicKey := List.length_replicate
  length_challenge := List.length_replicate

/-- What the generation of a key gives: the bytes in the place of the private key, and the public
key, unless it failed. -/
structure KeyPair where
  privateKey : Bytes
  publicKey : Option Bytes
  deriving DecidableEq, Repr

/-- 32 random bytes. -/
abbrev Challenge :=
  { bytes : Bytes // bytes.length = vaultEnrollChallengeBytes }

/-- `picokeys_vault_enrollment_start`, given the key pair and the challenge that are drawn. -/
def picokeysVaultEnrollmentStart (generated : KeyPair) (challenge : Challenge) :
    Except VaultError (Bytes × Bytes) × Enrollment :=
  let failed := { picokeysVaultEnrollmentClear with privateKey := generated.privateKey }
  match generated.publicKey with
  | none => (.error .execError, failed)
  | some publicKey =>
    if h : generated.privateKey.length = vaultX448Bytes ∧ publicKey.length = vaultX448Bytes then
      (.ok (publicKey, challenge), ⟨true, generated.privateKey, publicKey, challenge, h.2, challenge.2⟩)
    else (.error .wrongLength, failed)

/-! ### Decoding a packet -/

/-- Some bytes of the packet. -/
def packetSlice (packet : Bytes) (offset length : ℕ) : Except VaultStop Bytes :=
  if offset + length ≤ packet.length then .ok ((packet.drop offset).take length)
  else .error .outside

/-- The parts of a packet. -/
structure Packet where
  certificate : Bytes
  encapsulated : Bytes
  ciphertext : Bytes
  deriving DecidableEq, Repr

/-- Find the parts of a packet that is long enough to have a header. -/
def parsePacket (packet : Bytes) : Except VaultStop Packet := do
  let header ← packetSlice packet 0 2
  let certificateLen := beNat header
  let certificateOffset := 2
  let encapsulatedOffset := certificateOffset + certificateLen
  let ciphertextOffset := encapsulatedOffset + vaultX448Bytes
  if certificateLen = 0 ∨ certificateLen > vaultEnrollCertMax ∨ ciphertextOffset > packet.length ∨
      packet.length < ciphertextOffset + 16 + vaultKeySize then
    .error (.refused .wrongLength)
  else
    let ciphertextLen := packet.length - ciphertextOffset
    if ciphertextLen < vaultKeySize + 16 ∨ ciphertextLen > vaultEnrollPlainMax + 16 then
      .error (.refused .wrongLength)
    else do
      let certificate ← packetSlice packet certificateOffset certificateLen
      let encapsulated ← packetSlice packet encapsulatedOffset vaultX448Bytes
      let ciphertext ← packetSlice packet ciphertextOffset ciphertextLen
      return ⟨certificate, encapsulated, ciphertext⟩

def AltName.names (serial : Bytes) : AltName → Bool
  | .dns name => name = serial
  | .uri name => name = serial
  | .other => false

def vaultEnrollmentCertificatePublic (certificate : Certificate) : Except VaultError Bytes :=
  match certificate.curve448Point with
  | none => .error .wrongData
  | some point => if point.length = vaultX448Bytes then .ok point else .error .wrongData

/-- The key of a certificate that is of this device and of the built-in authority. -/
def vaultEnrollmentCertificate (certificate : Bytes) : Except VaultError Bytes :=
  match V.parse certificate with
  | none => .error .execError
  | some certificate =>
    if !certificate.chains then .error .verificationFailed
    else if !certificate.altNames.any (AltName.names V.serial) then .error .verificationFailed
    else vaultEnrollmentCertificatePublic certificate

/-- What the caller gets: the buffers of key and label, and the length of the label. -/
structure VaultOutputs where
  kvault : Bytes
  metadata : Bytes
  metadataLen : ℕ
  deriving DecidableEq, Repr

/-- Take key and label out of the plaintext. -/
def vaultEnrollmentUnpack (plain : Bytes) (out : VaultOutputs) :
    Except VaultError Unit × VaultOutputs :=
  if plain.length = vaultKeySize then (.ok (), { out with kvault := plain, metadataLen := 0 })
  else
    let metadataLen := (plain.getD vaultKeySize 0).toNat
    if plain.length ≥ vaultKeySize + 1 ∧ metadataLen ≤ vaultLabelMax ∧
        plain.length = vaultKeySize + 1 + metadataLen then
      if metadataLen > out.metadata.length then
        (.error .noMemory, { out with kvault := plain.take vaultKeySize })
      else
        (.ok (), ⟨plain.take vaultKeySize,
          (plain.drop (vaultKeySize + 1)).take metadataLen ++ out.metadata.drop metadataLen,
          metadataLen⟩)
    else (.error .wrongLength, out)

/-- What is returned, the outputs, and the ceremony afterwards. -/
def picokeysVaultEnrollmentDecode (enrollment : Enrollment) (packet : Bytes) (out : VaultOutputs) :
    Except VaultStop Unit × VaultOutputs × Enrollment :=
  let reset := picokeysVaultEnrollmentClear
  if !enrollment.active ∨ packet.length < vaultEnrollMinPacketLen then
    (.error (.refused .wrongLength), out, reset)
  else
    let out := { out with metadataLen := 0 }
    match parsePacket packet with
    | .error stop => (.error stop, out, reset)
    | .ok parts =>
      match vaultEnrollmentCertificate V parts.certificate with
      | .error _ => (.error (.refused .verificationFailed), out, reset)
      | .ok certificatePublic =>
        let info := vaultEnrollmentHpkeInfo ++ enrollment.challenge
        match vaultHpkeAuthDecap V parts.encapsulated enrollment.privateKey enrollment.publicKey
            certificatePublic info parts.certificate parts.ciphertext with
        | .error e => (.error (.refused e), out, reset)
        | .ok plain =>
          let (result, out) := vaultEnrollmentUnpack plain out
          (result.mapError .refused, out, reset)

/-! ### Runs -/

/-- What is asked of the ceremony, by whichever application. -/
inductive VaultEvent where
  | start (generated : KeyPair) (challenge : Challenge)
  | clear
  /-- A packet, with the caller's buffers. -/
  | decode (packet : Bytes) (out : VaultOutputs)

/-- A step of a run. -/
structure VaultStep where
  before : Enrollment
  /-- How many ceremonies have been started. -/
  started : ℕ
  event : VaultEvent
  after : Enrollment

def VaultEvent.apply (enrollment : Enrollment) : VaultEvent → Enrollment
  | .start generated challenge => (picokeysVaultEnrollmentStart generated challenge).2
  | .clear => picokeysVaultEnrollmentClear
  | .decode packet out => (picokeysVaultEnrollmentDecode V enrollment packet out).2.2

def VaultEvent.count : VaultEvent → ℕ
  | .start _ _ => 1
  | _ => 0

/-- The steps of a run. -/
def vaultSteps : Enrollment → ℕ → List VaultEvent → List VaultStep
  | _, _, [] => []
  | enrollment, started, event :: events =>
    ⟨enrollment, started, event, event.apply V enrollment⟩ ::
      vaultSteps (event.apply V enrollment) (started + event.count) events

end PicoAll.Vault
