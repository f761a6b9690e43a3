import PicoAll.Fs.FileApi
import PicoAll.Fs.Tlv
import PicoAll.Lib.Padding
import PicoAll.Transport.ApduResponse

/-!
# Secure messaging

`eac.c`: when a session has been set up, a command whose class says so comes as a sequence of data
objects, of which `87` or `85` holds the data, encrypted, `97` the length of the response and `8E` a
MAC. `sm_unwrap` checks the MAC (`sm_verify`) and puts the plain data in place of the objects;
`sm_wrap` does the opposite to the response, with the status word in an object `99`. Both count a
send sequence counter up, which goes into the MAC and, encrypted, is the initialisation vector.

The ciphers are parameters, with the two laws that `sm_wrap` and `sm_unwrap` rely on. What a MAC is
taken over is put together byte by byte, as in the code; `SecureMessagingChannel` says what it is.
-/

namespace PicoAll

open BigEndian Padding

/-- CMAC and CBC over AES-128. -/
structure SmCipher where
  /-- `mbedtls_cipher_cmac`: of a key and an input. -/
  cmac : Bytes → Bytes → Bytes
  /-- `aes_encrypt`: of a key, an initialisation vector and the data. -/
  aesEncrypt : Bytes → Bytes → Bytes → Bytes
  aesDecrypt : Bytes → Bytes → Bytes → Bytes
  length_cmac : ∀ key input, (cmac key input).length = 16
  length_aesEncrypt : ∀ key iv data, (aesEncrypt key iv data).length = data.length
  aesDecrypt_aesEncrypt : ∀ key iv data, data.length % 16 = 0 →
    aesDecrypt key iv (aesEncrypt key iv data) = data

inductive MseProtocol where
  | none
  | aes
  | tripleDes
  deriving DecidableEq, Repr

/-- The state of `eac.c`. -/
structure SmSession where
  /-- `sm_protocol`. -/
  protocol : MseProtocol
  /-- `sm_kenc`. -/
  kenc : Bytes
  /-- `sm_kmac`. -/
  kmac : Bytes
  /-- `sm_mSSC`. -/
  ssc : ℕ
  /-- `sm_blocksize`. -/
  blocksize : ℕ
  /-- `sm_active`. -/
  active : Bool
  deriving DecidableEq, Repr

/-- `sm_set_protocol`. -/
def smSetProtocol (proto : MseProtocol) (s : SmSession) : SmSession :=
  { s with
    protocol := proto
    blocksize := match proto with
      | .aes => 16
      | .tripleDes => 8
      | .none => 0
    kenc := List.replicate 16 0
    kmac := List.replicate 16 0
    active := false }

/-- `sm_derive_all_keys`, with the keys it derives. -/
def smDeriveAllKeys (kenc kmac : Bytes) (s : SmSession) : SmSession :=
  { s with kenc := kenc, kmac := kmac, ssc := 0, active := true }

def smIndicator (header : ApduHeader) : UInt8 :=
  header.cla >>> 2 &&& 0x3

variable (C : SmCipher) (s : SmSession)

def smSign (input : Bytes) : Bytes :=
  C.cmac s.kmac input

/-- `sm_update_iv`: the counter, encrypted. -/
def smUpdateIv : Bytes :=
  C.aesEncrypt s.kenc (List.replicate 16 0) (beBytes 16 s.ssc)

/-- `sm_remove_padding`, which also gives up on a string of more than 16 bits of length. -/
def smRemovePadding (data : Bytes) : Bytes :=
  if data.length > UINT16_MAX then [] else (unpad data).getD []

/-! ### Commands -/

/-- What the loop of `sm_verify` has come to. -/
structure SmVerifyAcc where
  /-- `input` up to `input_len`. -/
  input : Bytes
  someAdded : Bool
  mac : Option Bytes
  deriving DecidableEq, Repr

/-- The body of the loop of `sm_verify`: none if the input is full. -/
def smVerifyItem (acc : SmVerifyAcc) (item : TlvItem) : Option SmVerifyAcc :=
  let mac := if item.tag = 0x8e then some item.value else acc.mac
  if item.tag % 2 = 1 then
    if 1 + (tlvFormatLen item.value.length).length + item.value.length >
        usbBufferSize - acc.input.length then
      none
    else
      some ⟨acc.input ++ encodeTlv (UInt8.ofNat item.tag) item.value, true, mac⟩
  else
    some { acc with mac := mac }

/-- The header of a command, in a block of its own. -/
def smHeaderBlock (blocksize : ℕ) (header : ApduHeader) : Bytes :=
  [header.cla, header.ins, header.p1, header.p2, 0x80] ++ List.replicate (blocksize - 5) 0

/-- `sm_verify`: the MAC of a command, over the counter, the header of some classes and the objects. -/
def smVerify (cmd : ApduCommand) : SmSession × Except Status Unit :=
  let addHeader := cmd.header.cla &&& 0xc = 0xc
  let dataLen := cmd.data.length / s.blocksize * s.blocksize
  let dataLen := if dataLen % s.blocksize ≠ 0 then dataLen + s.blocksize else dataLen
  if dataLen + (if addHeader then s.blocksize else 0) > usbBufferSize then
    (s, .error .wrongLength)
  else
    let s := { s with ssc := s.ssc + 1 }
    if s.ssc ≥ 256 ^ s.blocksize then
      (s, .error .execError)
    else
      let input := beBytes s.blocksize s.ssc ++
        if addHeader then smHeaderBlock s.blocksize cmd.header else []
      match (tlvItems cmd.data).foldlM smVerifyItem ⟨input, false, none⟩ with
      | none => (s, .error .wrongLength)
      | some ⟨input, someAdded, mac⟩ =>
        if (mac.map List.length).getD 0 ≠ 8 then
          (s, .error .wrongData)
        else
          let paddingLen := s.blocksize - input.length % s.blocksize
          if someAdded ∧ paddingLen > usbBufferSize - input.length then
            (s, .error .wrongLength)
          else
            let input := if someAdded then marked input (paddingLen - 1) else input
            if (smSign C s input).take 8 = mac.getD [] then (s, .ok ())
            else (s, .error .verificationFailed)

/-- `sm_get_le`, whose result is 16 bits wide. -/
def smGetLe (data : Bytes) : ℕ :=
  match (tlvItems data).find? fun item ↦ item.tag = 0x97 with
  | none => 0
  | some item => beNat item.value % 65536

/-- What the loop of `sm_unwrap` has come to. -/
structure SmBody where
  /-- `body`: the bytes from where it points to. -/
  body : Option Bytes
  /-- `body_size`. -/
  size : ℕ
  is87 : Bool
  deriving DecidableEq, Repr

/-- The body of the loop of `sm_unwrap`. -/
def smBodyItem (acc : SmBody) (item : TlvItem) : Except Status SmBody :=
  if item.tag = 0x87 then
    if item.value.length = 0 then .error .wrongLength
    else .ok ⟨some (item.value ++ item.rest), item.value.length - 1, true⟩
  else if item.tag = 0x85 then
    .ok ⟨some (item.value ++ item.rest), item.value.length, acc.is87⟩
  else
    .ok acc

/-- The encrypted data of a command, which `sm_unwrap` finds before it decrypts them. -/
def smCryptogram (blocksize : ℕ) (data : Bytes) : Except Status (Option Bytes) := do
  let acc ← (tlvItems data).foldlM smBodyItem ⟨none, 0, false⟩
  match acc.body with
  | none => pure none
  | some body =>
    -- An object `85` behind an `87` loses its first byte, and takes one from behind it.
    if acc.is87 ∧ body.head? ≠ some 0x1 then throw .wrongPadding
    else if acc.size = 0 ∨ acc.size % blocksize ≠ 0 then throw .wrongLength
    else pure (some ((if acc.is87 then body.tail else body).take acc.size))

/-- `sm_unwrap`: the session and the command it leaves, and whether the command is accepted. -/
def smUnwrap (cmd : ApduCommand) :
    SmSession × ApduCommand × Except Status Unit :=
  if smIndicator cmd.header = 0 then
    (s, cmd, .ok ())
  else if ¬s.active ∨ s.blocksize = 0 then
    (s, cmd, .error .execError)
  else
    match smVerify C s cmd with
    | (s, .error e) => (s, cmd, .error e)
    | (s, .ok _) =>
      let le := smGetLe cmd.data
      match smCryptogram s.blocksize cmd.data with
      | .error e => (s, { cmd with ne := le }, .error e)
      | .ok none => (s, { cmd with data := [], ne := le }, .ok ())
      | .ok (some body) =>
        let plain := smRemovePadding (C.aesDecrypt s.kenc (smUpdateIv C s) body)
        (s, { cmd with data := plain, ne := le }, .ok ())

/-! ### Responses -/

/-- A response. -/
structure SmResponse where
  /-- `res_APDU` up to `res_APDU_size`. -/
  data : Bytes
  /-- `apdu.sw`. -/
  sw : UInt16
  /-- `apdu.ne`. -/
  ne : ℕ
  deriving DecidableEq, Repr

/-- The data of a response, encrypted, as an object `87`. -/
def smDo87 (data : Bytes) : Bytes :=
  let padded := marked data (s.blocksize - (data.length + 1) % s.blocksize)
  let body := 0x1 :: C.aesEncrypt s.kenc (smUpdateIv C s) padded
  if body.length < 128 then
    0x87 :: UInt8.ofNat body.length :: body
  else if body.length < 256 then
    0x87 :: 0x81 :: UInt8.ofNat body.length :: body
  else
    0x87 :: 0x82 :: beBytes 2 body.length ++ body

/-- `response_size`. -/
def smResponseSize (blocksize size : ℕ) : ℕ :=
  let encryptedSize := size + 1
  let encryptedSize := encryptedSize + (blocksize - encryptedSize % blocksize)
  4 + 10 +
    if size > 0 then 1 + (tlvFormatLen (encryptedSize + 1)).length + encryptedSize + 1 else 0

/-- `mac_input_size`. -/
def smMacInputSize (blocksize size : ℕ) : ℕ :=
  let macInputSize := blocksize + smResponseSize blocksize size - 10
  macInputSize + (blocksize - macInputSize % blocksize)

/-- `sm_wrap`: the session and the response it leaves, and whether it has gone well. -/
def smWrap (header : ApduHeader) (res : SmResponse) :
    SmSession × SmResponse × Except Status Unit :=
  if smIndicator header = 0 then
    (s, res, .ok ())
  else if ¬s.active ∨ s.blocksize = 0 then
    (s, res, .error .execError)
  else if smResponseSize s.blocksize res.data.length > usbBufferSize - 20 then
    (s, res, .error .wrongLength)
  else if smMacInputSize s.blocksize res.data.length > usbBufferSize then
    (s, res, .error .wrongLength)
  else
    let s := { s with ssc := s.ssc + 1 }
    if s.ssc ≥ 256 ^ s.blocksize then
      (s, res, .error .execError)
    else
      let data := if res.data.length > 0 then smDo87 C s res.data else []
      let data := data ++ 0x99 :: 2 :: beBytes 2 res.sw.toNat
      let input := beBytes s.blocksize s.ssc ++ data
      let input := marked input (s.blocksize - (input.length + 1) % s.blocksize)
      let data := data ++ 0x8e :: 8 :: (smSign C s input).take 8
      (s, ⟨data, 0x9000, if res.ne > 0 then data.length else res.ne⟩, .ok ())

end PicoAll
