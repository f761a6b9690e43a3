import PicoAll.Fs.Tlv
import PicoAll.Transport.Apdu

/-!
# GENERAL AUTHENTICATE of the PIV applet

`cmd_piv_authenticate` uses the private key of a slot, or takes a step of one of two protocols with
the management key: in the mutual one the card shows the encryption of a challenge and is shown the
challenge, in the single one it shows the challenge and is shown its encryption. The challenge, its
kind and its algorithm are kept between the steps.

The block ciphers are parameters, and so is what becomes of an operation with a private key: the key
cannot be loaded, the operation fails, or it gives something.
-/

namespace PicoAll.Piv

/-! ### Key references, algorithms, policies -/

abbrev efPivKeyAuthentication : UInt8 := 0x9a

abbrev efPivKeyCardmgm : UInt8 := 0x9b

abbrev efPivKeySignature : UInt8 := 0x9c

abbrev efPivKeyKeymgm : UInt8 := 0x9d

abbrev efPivKeyCardauth : UInt8 := 0x9e

abbrev efPivKeyRetired1 : UInt8 := 0x82

/-- The file of the slot 0x93. -/
abbrev efPivKeyRetired18 : UInt8 := 0x96

abbrev efPivKeyRetired20 : UInt8 := 0x95

def isRetired (x : UInt8) : Bool :=
  efPivKeyRetired1 ≤ x ∧ x ≤ efPivKeyRetired20

abbrev pivAlgo3des : UInt8 := 0x03

abbrev pivAlgoAes128 : UInt8 := 0x08

abbrev pivAlgoAes192 : UInt8 := 0x0a

abbrev pivAlgoAes256 : UInt8 := 0x0c

abbrev pivAlgoRsa1024 : UInt8 := 0x06

abbrev pivAlgoRsa2048 : UInt8 := 0x07

abbrev pivAlgoRsa3072 : UInt8 := 0x05

abbrev pivAlgoRsa4096 : UInt8 := 0x16

abbrev pivAlgoEccp256 : UInt8 := 0x11

abbrev pivAlgoEccp384 : UInt8 := 0x14

abbrev pinpolicyDefault : UInt8 := 0

abbrev pinpolicyNever : UInt8 := 1

abbrev pinpolicyOnce : UInt8 := 2

abbrev pinpolicyAlways : UInt8 := 3

abbrev touchpolicyNever : UInt8 := 1

variable (keyRef : UInt8)

def pivDefaultPinPolicy : UInt8 :=
  if keyRef = efPivKeySignature then pinpolicyAlways
  else if keyRef = efPivKeyCardauth then pinpolicyNever
  else pinpolicyOnce

variable (C : PivCrypto) (env : AuthEnv) (algo : UInt8) (mgm : MgmFile) (ram : PivRam)

def pivRsaModulusSize : ℕ :=
  if algo = pivAlgoRsa1024 then 128
  else if algo = pivAlgoRsa2048 then 256
  else if algo = pivAlgoRsa3072 then 384
  else if algo = pivAlgoRsa4096 then 512
  else 0

/-! ### What is kept -/

/-- `mgm_challenge_kind_t`. -/
inductive MgmChallengeKind where
  | none
  | mutual
  | single
  deriving DecidableEq, Repr

/-- What the applet keeps in memory. -/
structure PivRam where
  hasPwpiv : Bool
  hasMgm : Bool
  mgmChallenge : Bytes
  mgmChallengeKind : MgmChallengeKind
  mgmChallengeAlgo : UInt8
  deriving DecidableEq, Repr

/-- The size of `mgm_challenge`. -/
def mgmChallengeSize : ℕ :=
  16

def clearMgmChallenge : PivRam :=
  { ram with
    mgmChallenge := List.replicate mgmChallengeSize 0
    mgmChallengeKind := .none
    mgmChallengeAlgo := 0 }

/-- What init and unload leave. -/
def pivRamClosed : PivRam where
  hasPwpiv := false
  hasMgm := false
  mgmChallenge := List.replicate mgmChallengeSize 0
  mgmChallengeKind := .none
  mgmChallengeAlgo := 0

/-- The file of the management key. -/
inductive MgmFile where
  /-- The key is in the container, unless it cannot be read. -/
  | marker (key : Option Bytes)
  /-- The file is the key. -/
  | plain (key : Bytes)
  deriving DecidableEq, Repr

/-- What the commands read of the files, with private keys of any kind. -/
structure PivStore (K : Type) where
  /-- The file of the management key, if it has data. -/
  mgm : Option MgmFile
  /-- The keys of the slots, by their files. -/
  keys : UInt8 → Option K
  /-- The metadata of the key references. None is empty. -/
  metadata : UInt8 → Bytes

/-- The block ciphers, from a key and a block. -/
structure PivCrypto where
  tdesEncrypt : Bytes → Bytes → Bytes
  tdesDecrypt : Bytes → Bytes → Bytes
  aesEncrypt : Bytes → Bytes → Bytes
  aesDecrypt : Bytes → Bytes → Bytes
  /-- The ciphers are permutations of the blocks. -/
  tdes_inv : ∀ key block, block.length = 8 → tdesDecrypt key (tdesEncrypt key block) = block
  tdes_inv' : ∀ key block, block.length = 8 → tdesEncrypt key (tdesDecrypt key block) = block
  aes_inv : ∀ key block, block.length = 16 → aesDecrypt key (aesEncrypt key block) = block
  aes_inv' : ∀ key block, block.length = 16 → aesEncrypt key (aesDecrypt key block) = block
  length_tdesEncrypt : ∀ key block, (tdesEncrypt key block).length = 8
  length_tdesDecrypt : ∀ key block, (tdesDecrypt key block).length = 8
  length_aesEncrypt : ∀ key block, (aesEncrypt key block).length = 16
  length_aesDecrypt : ∀ key block, (aesDecrypt key block).length = 16

/-- What becomes of an operation with a private key. -/
inductive PrivateOutcome where
  /-- The key cannot be loaded. -/
  | notLoaded
  /-- The key of the peer is refused, in ECDH. -/
  | peerRefused
  | failed
  | done (response : Bytes)
  deriving DecidableEq, Repr

/-- What the environment does in one command. -/
structure AuthEnv where
  /-- What the random source gives. -/
  random : Bytes
  length_random : random.length = mgmChallengeSize
  /-- The button is pressed in time. -/
  touched : Bool
  /-- A cipher cannot be set up. -/
  cryptFails : Bool
  outcome : PrivateOutcome

/-- What comes of a command: the answer, the memory, and whether a private key was operated. -/
structure AuthReply where
  sw : UInt16
  response : Bytes
  ram : PivRam
  operated : Bool
  deriving DecidableEq, Repr

/-- A refusal that changes nothing. -/
def AuthReply.refused (sw : UInt16) (ram : PivRam) : AuthReply :=
  ⟨sw, [], ram, false⟩

/-! ### The management key -/

/-- The key, where `mgm_crypt` finds one of 32 bytes at most. -/
def MgmFile.key : MgmFile → Option Bytes
  | marker key => key
  | plain key => if key.length ≤ 32 then some key else none

/-- The length of the key, as the command looks at it. -/
def MgmFile.keyLength : MgmFile → Option ℕ
  | marker key => key.map List.length
  | plain key => some (min key.length 32)

/-- The bytes of a challenge. -/
def challengeLength : ℕ :=
  if algo = pivAlgo3des then mgmChallengeSize / 2 else mgmChallengeSize

/-- `mgm_crypt`: a block under the management key, for a key whose length fits. -/
def mgmCrypt (input : Bytes) (encrypt : Bool) : Option Bytes :=
  match mgm.key with
  | none => none
  | some key =>
    if env.cryptFails then none
    else if algo = pivAlgo3des then
      if key.length = 24 then
        some (if encrypt then C.tdesEncrypt key (input.take 8) else C.tdesDecrypt key (input.take 8))
      else none
    else if key.length = 16 ∨ key.length = 24 ∨ key.length = 32 then
      some (if encrypt then C.aesEncrypt key (input.take 16) else C.aesDecrypt key (input.take 16))
    else none

/-- A fresh challenge of the kind. -/
def issueMgmChallenge (kind : MgmChallengeKind) (algo : UInt8) (ram : PivRam) :
    PivRam :=
  let chalLen := challengeLength algo
  { clearMgmChallenge ram with
    mgmChallenge := env.random.take chalLen ++ List.replicate (mgmChallengeSize - chalLen) 0
    mgmChallengeKind := kind
    mgmChallengeAlgo := algo }

/-- The dynamic authentication template with one element. -/
def authTemplate (tag : UInt8) (value : Bytes) : Bytes :=
  [0x7c, UInt8.ofNat (value.length + 2), tag, UInt8.ofNat value.length] ++ value

/-- The first branch: a witness is asked for. -/
def requestWitness :
    AuthReply :=
  let issued := issueMgmChallenge env .mutual algo ram
  match mgmCrypt C env algo mgm issued.mgmChallenge true with
  | none => .refused swExecError (clearMgmChallenge issued)
  | some witness => ⟨swOk, authTemplate 0x80 witness, { issued with hasMgm := false }, false⟩

/-- The second branch: a challenge is asked for. -/
def requestChallenge : AuthReply :=
  let issued := issueMgmChallenge env .single algo ram
  ⟨swOk, authTemplate 0x81 (issued.mgmChallenge.take (challengeLength algo)),
    { issued with hasMgm := false }, false⟩

/-- The third branch: the witness was decrypted. -/
def answerWitness (a80 : Bytes) (a81 a82 : Option Bytes) (ram : PivRam) : AuthReply :=
  let chalLen := challengeLength algo
  let hostChallenge := a81.getD []
  let validState := ram.mgmChallengeKind = .mutual ∧ ram.mgmChallengeAlgo = algo ∧
    a80.length = chalLen ∧ a81.isSome ∧ hostChallenge.length = chalLen ∧ a82 = none
  let witnessMatches := validState ∧ a80 = ram.mgmChallenge.take chalLen
  let ram := clearMgmChallenge ram
  if ¬ witnessMatches then .refused swDataInvalid ram
  else
    match mgmCrypt C env algo mgm hostChallenge true with
    | none => .refused swExecError ram
    | some response => ⟨swOk, authTemplate 0x82 response, { ram with hasMgm := true }, false⟩

/-- The fourth branch: the challenge was encrypted. -/
def answerChallenge (a80 a81 : Option Bytes) (a82 : Bytes) (ram : PivRam) : AuthReply :=
  let chalLen := challengeLength algo
  let validState := ram.mgmChallengeKind = .single ∧ ram.mgmChallengeAlgo = algo ∧
    a82.length = chalLen ∧ a80 = none ∧ a81 = none
  let challenge := ram.mgmChallenge.take chalLen
  let ram := clearMgmChallenge ram
  if ¬ validState then .refused swDataInvalid ram
  else
    match mgmCrypt C env algo mgm a82 false with
    | none => .refused swExecError ram
    | some response =>
      if response.take chalLen ≠ challenge then .refused swDataInvalid ram
      else ⟨swOk, [], { ram with hasMgm := true }, false⟩

def authenticateMgm (a80 a81 a82 : Option Bytes) (ram : PivRam) : AuthReply :=
  if a80 = some [] ∧ a81 = none ∧ a82 = none then requestWitness C env algo mgm ram
  else if a81 = some [] ∧ a80 = none ∧ a82 = none then requestChallenge env algo ram
  else if a80.isSome ∧ a80 ≠ some [] then answerWitness C env algo mgm (a80.getD []) a81 a82 ram
  else if a82.isSome ∧ a82 ≠ some [] then answerChallenge C env algo mgm a80 a81 (a82.getD []) ram
  else .refused swIncorrectParams (clearMgmChallenge ram)

/-! ### The checks -/

def pivFirstAuthOperation (template : Bytes) : Option (ℕ × Bytes) :=
  ((tlvItems template).find? fun item ↦
    ¬(item.tag = 0x82 ∧ item.value = []) ∧
      (item.tag = 0x80 ∨ item.tag = 0x81 ∨ item.tag = 0x82 ∨ item.tag = 0x85)).map
    fun item ↦ (item.tag, item.value)

/-- The algorithms of the management key, and the lengths of their keys. -/
def mgmKeyLength : Option ℕ :=
  if algo = pivAlgoAes128 then some 16
  else if algo = pivAlgoAes192 then some 24
  else if algo = pivAlgoAes256 then some 32
  else if algo = pivAlgo3des then some 24
  else none

/-- Why the management key is not used with the algorithm. -/
def mgmRefusal (algo : UInt8) : Option UInt16 :=
  match mgmKeyLength algo with
  | none => some swIncorrectParams
  | some expected =>
    match mgm.keyLength with
    | none => some swMemoryFailure
    | some len => if len ≠ expected then some swIncorrectParams else none

/-- The references that the PIN is asked for. -/
def pinGuarded : Bool :=
  keyRef = efPivKeyAuthentication ∨ keyRef = efPivKeySignature ∨ keyRef = efPivKeyKeymgm ∨
    keyRef = efPivKeyCardauth ∨ isRetired keyRef

/-- The policy of a reference, with its default. -/
def effectivePinPolicy (metadata : Bytes) : UInt8 :=
  if metadata.getD 1 0 = pinpolicyDefault then pivDefaultPinPolicy keyRef else metadata.getD 1 0

/-- What is asked for. -/
structure AuthRequest where
  template : Bytes
  tag : ℕ
  value : Bytes
  deriving DecidableEq, Repr

variable {K : Type}

/-- Up to the PIN. -/
def authPinChecks (store : PivStore K) (algo keyRef : UInt8) (data : Bytes) :
    Except UInt16 Unit :=
  if data.headD 0 ≠ 0x7c then .error swIncorrectParams
  else if keyRef = efPivKeyCardmgm ∧ store.mgm = none then .error swMemoryFailure
  else if (store.metadata keyRef).length < 3 then .error swReferenceNotFound
  else
    match if keyRef = efPivKeyCardmgm then store.mgm.bind (mgmRefusal · algo) else none with
    | some sw => .error sw
    | none =>
      if effectivePinPolicy keyRef (store.metadata keyRef) ≠ pinpolicyNever ∧ !ram.hasPwpiv ∧
          pinGuarded keyRef then
        .error swSecurityStatusNotSatisfied
      else .ok ()

/-- The template, the touch and the algorithm. -/
def authRequest (store : PivStore K) (algo keyRef : UInt8) (data : Bytes) :
    Except UInt16 AuthRequest :=
  let metadata := store.metadata keyRef
  let pendingMgmChallenge := keyRef = efPivKeyCardmgm ∧ ram.mgmChallengeKind ≠ .none
  let template := (tlvFindTag 0x7c data).getD []
  if template = [] then .error swIncorrectParams
  else
    match pivFirstAuthOperation template with
    | none => .error swIncorrectParams
    | some (tag, value) =>
      let challengeResponse := (tag = 0x80 ∨ tag = 0x82) ∧ value ≠ []
      let answering := pendingMgmChallenge ∧ challengeResponse
      let slotRsaModulusSize := pivRsaModulusSize (metadata.getD 0 0)
      let rsaFamilyMatch := slotRsaModulusSize > 0 ∧ pivRsaModulusSize algo > 0 ∧ tag = 0x81 ∧
        value.length = slotRsaModulusSize
      if metadata.getD 2 0 ≠ touchpolicyNever ∧ ¬ answering ∧ !env.touched then
        .error swSecurityStatusNotSatisfied
      else if keyRef = efPivKeyCardmgm ∧ metadata.getD 0 0 ≠ algo ∧ ¬ answering then
        .error swIncorrectParams
      else if algo ≠ metadata.getD 0 0 ∧ ¬ rsaFamilyMatch ∧ ¬ answering then .error swWrongData
      else .ok ⟨template, tag, value⟩

/-! ### The command -/

/-- The branch of the management key. -/
def authenticateManagement (request : AuthRequest) (ram : PivRam) : AuthReply :=
  if request.tag = 0x80 then
    authenticateMgm C env algo mgm (some request.value) (tlvFindTag 0x81 request.template) none ram
  else if request.tag = 0x81 ∧ request.value = [] then
    authenticateMgm C env algo mgm none (some request.value) none ram
  else if request.tag = 0x82 then
    authenticateMgm C env algo mgm none none (some request.value) ram
  else .refused swIncorrectParams ram

/-- The file of a key reference. -/
def keyFile : UInt8 :=
  if keyRef = 0x93 then efPivKeyRetired18 else keyRef

/-- A key that agrees a secret with the key of a peer. -/
def isEcdh (algo keyRef : UInt8) : Bool :=
  (keyRef = efPivKeyKeymgm ∨ isRetired keyRef) ∧ (algo = pivAlgoEccp256 ∨ algo = pivAlgoEccp384)

/-- Up to the private key. -/
def privateChecks (store : PivStore K) (algo keyRef : UInt8) (request : AuthRequest) :
    Except UInt16 Unit :=
  let keyManagementEcc := isEcdh algo keyRef
  let ecdh := keyManagementEcc ∧ request.tag = 0x85 ∧ request.value ≠ []
  if keyManagementEcc ∧ ¬ ecdh then .error swIncorrectParams
  else if ¬ keyManagementEcc ∧ request.tag ≠ 0x81 then .error swIncorrectParams
  else if algo ≠ pivAlgoRsa1024 ∧ algo ≠ pivAlgoRsa2048 ∧ algo ≠ pivAlgoRsa3072 ∧
      algo ≠ pivAlgoRsa4096 ∧ algo ≠ pivAlgoEccp256 ∧ algo ≠ pivAlgoEccp384 then
    .error swIncorrectParams
  else if (store.keys (keyFile keyRef)).isNone then .error swMemoryFailure
  else if ecdh ∧ (request.value.length ≠ (if algo = pivAlgoEccp256 then 65 else 97) ∨
      request.value.headD 0 ≠ 0x04) then
    .error swDataInvalid
  else .ok ()

/-- What a private key gives; a slot whose metadata say ALWAYS then asks for the PIN again. -/
def operatePrivate (outcome : PrivateOutcome) (ecdh : Bool) (metadata : Bytes) (ram : PivRam) :
    AuthReply :=
  match outcome with
  | .notLoaded => .refused swExecError ram
  | .peerRefused => ⟨if ecdh then swDataInvalid else swExecError, [], ram, true⟩
  | .failed => ⟨swExecError, [], ram, true⟩
  | .done response =>
    ⟨swOk, response, if metadata.getD 1 0 = pinpolicyAlways then { ram with hasPwpiv := false } else ram,
      true⟩

/-- The branch of the private keys. -/
def authenticatePrivate (store : PivStore K) (algo keyRef : UInt8) (request : AuthRequest)
    (ram : PivRam) : AuthReply :=
  match privateChecks store algo keyRef request with
  | .error sw => .refused sw ram
  | .ok () => operatePrivate env.outcome (isEcdh algo keyRef) (store.metadata keyRef) ram

/-- GENERAL AUTHENTICATE, with the references that the template may hold. -/
def cmdPivAuthenticate (store : PivStore K) (algo keyRef : UInt8) (data : Bytes) : AuthReply :=
  match authPinChecks ram store algo keyRef data with
  | .error sw => .refused sw ram
  | .ok () =>
    match authRequest env ram store algo keyRef data with
    | .error sw => .refused sw ram
    | .ok request =>
      if keyRef = efPivKeyCardmgm then
        match store.mgm with
        | none => .refused swMemoryFailure ram
        | some mgm => authenticateManagement C env algo mgm request ram
      else authenticatePrivate env store algo keyRef request ram

end PicoAll.Piv
