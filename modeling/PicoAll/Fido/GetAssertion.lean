import PicoAll.Fido.LargeBlobs
import PicoAll.Fido.ResidentStatus
import PicoAll.Lib.ExchangeSort

/-!
# authenticatorGetAssertion without an allow list

`cbor_get_assertion.c`, for requests whose allow list is empty: the resident credentials of the
relying party are collected, those that ask for a user verification that there was not are left out,
and the rest is sorted by the time of creation. The first answers the request. If there are more, they
stay in static variables, and `cbor_get_next_assertion` answers with one after the other.

A credential that is admitted behind one that is not is moved down in the list by a copy of its
pointers, and stays where it was. If the list is freed then, it is freed twice: what comes of that is
not known, and `none`.

The request is given as it was parsed. What the checks go by (the PIN file, the token, the options,
the touch) and the cryptography are parameters; what a command does to the token is left out.
-/

namespace PicoAll

open BigEndian ByteBuffer

abbrev credProtUvOptionalWithList : ℕ := 2

abbrev credProtUvRequired : ℕ := 3

abbrev fido2AutFlagUp : UInt8 := 0x01

abbrev fido2AutFlagUv : UInt8 := 0x04

abbrev fido2AutFlagEd : UInt8 := 0x80

abbrev ctapPermissionGa : UInt8 := 0x02

abbrev ctapMaxCborPayload : ℕ := 2048 - 64 - 7 - 1

/-- The size of the buffer for the outputs of the extensions. -/
abbrev assertionExtLen : ℕ := 512

/-- What an assertion ends with instead of a response. -/
inductive AssertionError where
  /-- `CTAP2_ERR_MISSING_PARAMETER`. -/
  | missingParameter
  /-- `CTAP1_ERR_INVALID_LEN`. -/
  | invalidLen
  /-- `CTAP1_ERR_INVALID_PARAMETER`. -/
  | invalidParameter
  /-- `CTAP1_ERR_OTHER`. -/
  | other
  /-- `CTAP2_ERR_OPERATION_DENIED`. -/
  | operationDenied
  /-- `CTAP2_ERR_PIN_NOT_SET`. -/
  | pinNotSet
  /-- `CTAP2_ERR_PIN_AUTH_INVALID`. -/
  | pinAuthInvalid
  /-- `CTAP2_ERR_PUAT_REQUIRED`. -/
  | puatRequired
  /-- `CTAP2_ERR_INVALID_OPTION`. -/
  | invalidOption
  /-- `CTAP2_ERR_UNSUPPORTED_OPTION`. -/
  | unsupportedOption
  /-- `CTAP2_ERR_NO_CREDENTIALS`. -/
  | noCredentials
  /-- `CTAP2_ERR_NOT_ALLOWED`. -/
  | notAllowed
  /-- `CTAP2_ERR_PROCESSING`. -/
  | processing
  /-- `CTAP2_ERR_CBOR_UNEXPECTED_TYPE`. -/
  | unexpectedType
  /-- An error of the CBOR library. -/
  | cbor (e : CborError)
  deriving DecidableEq, Repr

/-- An error of the CBOR library, as an assertion returns it. -/
def assertionCbor {α : Type} (r : Except CborError α) : Except AssertionError α :=
  r.mapError fun e ↦ if e = .improperValue then .unexpectedType else .cbor e

/-- The input of the extension `hmac-secret`. -/
structure HmacSecretInput where
  kax : Option Bytes
  kay : Option Bytes
  crv : ℤ
  alg : ℤ
  saltEnc : Option Bytes
  saltAuth : Option Bytes
  /-- `hmacSecretPinUvAuthProtocol`. -/
  pinUvAuthProtocol : ℕ
  deriving DecidableEq, Repr

/-- The extensions of a request. `hmac-secret` counts only if it is a map that has fields. -/
structure AssertionExtensions where
  hmacSecret : Option HmacSecretInput
  credBlob : Option Bool
  largeBlobKey : Option Bool
  thirdPartyPayment : Option Bool
  present : Bool
  deriving DecidableEq, Repr

/-- A request without an allow list that parses. -/
structure AssertionRequest where
  rpId : Bytes
  clientDataHash : Vector UInt8 32
  extensions : AssertionExtensions
  options : CredOptions
  pinUvAuthParam : Option Bytes
  pinUvAuthProtocol : Option ℕ
  rpId_ne_nil : rpId ≠ []
  pinUvAuthProtocol_mem : ∀ p ∈ pinUvAuthProtocol, p = 1 ∨ p = 2

/-- The cryptography of an assertion. -/
structure AssertionCrypto where
  cbor : CborCodec
  sha256 : Bytes → Vector UInt8 32
  /-- `credential_derive_large_blob_key`. -/
  deriveLargeBlobKey : Bytes → Option Bytes
  /-- `credential_derive_resident`. -/
  deriveResident : Bytes → Bytes
  /-- The output of `hmac-secret`, by whether the user is verified and by the seed of the key. -/
  hmacSecret : HmacSecretInput → Bool → Bytes → Except AssertionError Bytes

/-- What the device has at hand while it answers a request. -/
structure AssertionDevice where
  context : CredentialContext
  files : Files
  /-- `ctap_req->cid`. -/
  channel : UInt32
  /-- `board_millis` when the command comes. -/
  millis : UInt32
  /-- `board_millis` when `timerx` is set. -/
  millisTimer : UInt32
  checkUserPresence : Bool
  checkUserPresenceForCredential : Bool → Bool
  /-- `file_has_data(ef_pin)`. -/
  pinSet : Bool
  /-- `get_opts() & FIDO2_OPT_AUV`. -/
  alwaysUv : Bool
  keydevUnlocked : Bool
  /-- `verify`, with the token of the PIN protocol. -/
  verify : ℕ → Vector UInt8 32 → Bytes → Bool
  /-- `getUserVerifiedFlagValue`. -/
  userVerified : Bool
  /-- `getUserPresentFlagValue`. -/
  userPresent : Bool
  /-- `paut.permissions`. -/
  permissions : UInt8
  /-- `paut.rp_id_hash`, if the token is bound to a relying party. -/
  tokenRpIdHash : Option (Vector UInt8 32)
  bumpSignCounter : Option UInt32
  /-- The signature under the key of a credential, by the seed of the key and what is signed. -/
  sign : Vector UInt8 32 → Credential → Bytes → Bytes → Except AssertionError Bytes

/-! ### The checks -/

section Checks

variable (X : AssertionCrypto) (D : AssertionDevice) (request : AssertionRequest)

/-- An empty `pinUvAuthParam` asks only for a touch; any other comes with a protocol. -/
def assertionParamCheck : Except AssertionError Unit :=
  match request.pinUvAuthParam with
  | none => .ok ()
  | some [] =>
    if !D.checkUserPresence then .error .operationDenied
    else if !D.pinSet then .error .pinNotSet
    else .error .pinAuthInvalid
  | some (_ :: _) =>
    if request.pinUvAuthProtocol.isNone then .error .missingParameter else .ok ()

def assertionOptionsCheck : Except AssertionError Unit :=
  if request.options.present then
    if request.options.uv = some true then .error .invalidOption
    else if request.options.rk.isSome then .error .unsupportedOption
    else .ok ()
  else .ok ()

/-- The flags after the user verification: `FIDO2_AUT_FLAG_UV` if the request has a token that is
right. -/
def assertionVerification : Except AssertionError UInt8 :=
  match request.pinUvAuthParam with
  | none =>
    if D.alwaysUv then .error .puatRequired
    else if D.pinSet && !D.keydevUnlocked then .error .puatRequired
    else .ok 0
  | some param =>
    if !D.verify (request.pinUvAuthProtocol.getD 0) request.clientDataHash param then
      .error .pinAuthInvalid
    else if !D.userVerified then .error .pinAuthInvalid
    else if D.permissions &&& ctapPermissionGa = 0 then .error .pinAuthInvalid
    else if D.tokenRpIdHash.any (· != X.sha256 request.rpId) then .error .pinAuthInvalid
    else .ok fido2AutFlagUv

/-- The check of the input of `hmac-secret`. -/
def hmacSecretCheck (input : HmacSecretInput) : Except AssertionError Unit :=
  match input.kax, input.kay, input.saltEnc, input.saltAuth with
  | some _, some _, some saltEnc, some saltAuth =>
    if input.crv = 0 ∨ input.alg = 0 then .error .missingParameter
    else if input.pinUvAuthProtocol ≠ 1 ∧ input.pinUvAuthProtocol ≠ 2 then .error .invalidParameter
    else if saltEnc.length ∉ [32, 48, 64, 80] ∨ saltAuth.length ∉ [16, 32] then .error .invalidLen
    else .ok ()
  | _, _, _, _ => .error .missingParameter

def assertionExtensionsCheck : Except AssertionError Unit :=
  match request.extensions.hmacSecret with
  | none => .ok ()
  | some input => do
    hmacSecretCheck input
    if request.options.up = some false then .error .invalidOption

/-- The checks of `cbor_get_assertion` before it looks for credentials, and the flags they end
with. -/
def assertionChecks : Except AssertionError UInt8 := do
  assertionParamCheck D request
  assertionOptionsCheck request
  let flags ← assertionVerification X D request
  assertionExtensionsCheck request
  return flags

/-- The touch, unless the request does without. -/
def assertionPresence (flags : UInt8) (touched : Bool) : Except AssertionError UInt8 :=
  if request.options.up = some false then .ok flags
  else if request.pinUvAuthParam.isSome then
    if !D.userPresent && !touched then .error .operationDenied else .ok (flags ||| fido2AutFlagUp)
  else if flags &&& fido2AutFlagUp = 0 ∧ touched = false then .error .operationDenied
  else .ok (flags ||| fido2AutFlagUp)

end Checks

/-! ### The credentials -/

/-- Whether a credential may be used with these flags: its protection may ask for the user to be
verified, or for that unless there is an allow list. -/
def assertionAdmits (flags : UInt8) (cred : Credential) : Bool :=
  cred.present && !(cred.extensions.present && flags &&& fido2AutFlagUv == 0 &&
    (cred.extensions.credProtect == credProtUvRequired ||
      cred.extensions.credProtect == credProtUvOptionalWithList))

variable (X : AssertionCrypto) (D : AssertionDevice) (s : GnaState)

/-- The credentials that are loaded into `creds`, in the order of their slots. -/
def assertionLoaded [FileDeletion] (rpIdHash : Vector UInt8 32) : List Credential :=
  (discoverableCredentials D.context D.files rpIdHash).map (·.2)

/-- There is a credential that is admitted behind one that is not: it is in `creds` twice. -/
def assertionMoved (flags : UInt8) (creds : List Credential) : Bool :=
  (creds.dropWhile (assertionAdmits flags)).any (assertionAdmits flags)

/-- `credential_free` of what is in `creds`. -/
def freeCreds {α : Type} (moved : Bool) (answer : α) : Option α :=
  if moved then none else some answer

/-- The loops that sort them, by `board_creation`. -/
def assertionSort (creds : List Credential) : List Credential :=
  ExchangeSort.exchangeSort Credential.boardCreation creds

/-! ### The response -/

/-- The account in a response. -/
structure AssertionUser where
  id : Bytes
  name : Option Bytes
  displayName : Option Bytes
  deriving DecidableEq, Repr

/-- The response to a request. -/
structure AssertionResponse where
  credentialId : Bytes
  authData : Bytes
  signature : Bytes
  user : Option AssertionUser
  numberOfCredentials : Option ℕ
  largeBlobKey : Option Bytes
  deriving DecidableEq, Repr

def credentialResidentIdUsesStableKeys (residentId : Bytes) : Bool :=
  decide (residentId.length = credResidentLen) && (residentId.drop 4).take 4 == [0xf1, 0xd0, 0x02, 0x06]

/-- `key_seed`: the credential id, or the resident id of a credential with stable keys. -/
def assertionKeySeed (cred : Credential) : Bytes :=
  match cred.residentId with
  | some residentId =>
    if credentialResidentIdUsesStableKeys residentId then residentId else cred.id.getD []
  | none => cred.id.getD []

section Response

variable (X : AssertionCrypto) (D : AssertionDevice) (request : AssertionRequest)

/-- The large-blob key, if both the request and the credential have the extension. -/
def assertionLargeBlobKey (cred : Credential) : Except AssertionError (Option Bytes) :=
  if request.extensions.largeBlobKey = some true ∧ cred.extensions.largeBlobKey = some true then
    match X.deriveLargeBlobKey (assertionKeySeed cred) with
    | none => .error .processing
    | some key => .ok (some key)
  else .ok none

/-- The outputs of the extensions, and whether there is any. -/
def assertionExtensionOutputs (flags : UInt8) (cred : Credential) :
    Except AssertionError (Bytes × Bool) :=
  let hmacSecret := if request.options.up = some false then none else request.extensions.hmacSecret
  let entries := hmacSecret.toList.length +
    (if request.extensions.credBlob = some true then 1 else 0) +
    (if request.extensions.thirdPartyPayment = some true then 1 else 0)
  if request.extensions.present ∧ 0 < entries then do
    let head ← assertionCbor (X.cbor.writeFrom assertionExtLen [] (.map (some entries) ::
      if request.extensions.credBlob = some true then
        [.text keyCredBlob, .bytes (cred.extensions.credBlob.getD [])] else []))
    let body ← match hmacSecret with
      | none => pure head
      | some input => do
        let output ← X.hmacSecret input (flags &&& fido2AutFlagUv != 0) (assertionKeySeed cred)
        assertionCbor (X.cbor.writeFrom assertionExtLen head [.text keyHmacSecret, .bytes output])
    let ext ← assertionCbor (X.cbor.writeFrom assertionExtLen body
      (if request.extensions.thirdPartyPayment = some true then
        [.text keyThirdPartyPayment, .bool (cred.extensions.thirdPartyPayment == some true)] else []))
    return (ext, true)
  else return ([], false)

/-- The items of a response. -/
def AssertionResponse.tokens (response : AssertionResponse) : List CborToken :=
  let lfields := 3 + response.user.toList.length + response.numberOfCredentials.toList.length +
    response.largeBlobKey.toList.length
  [.map (some lfields), .uint 0x01, .map (some 2), .text [0x69, 0x64], .bytes response.credentialId,
    .text [0x74, 0x79, 0x70, 0x65],
    .text [0x70, 0x75, 0x62, 0x6C, 0x69, 0x63, 0x2D, 0x6B, 0x65, 0x79],
    .uint 0x02, .bytes response.authData, .uint 0x03, .bytes response.signature] ++
  (match response.user with
    | none => []
    | some user =>
      [.uint 0x04, .map (some (1 + user.name.toList.length + user.displayName.toList.length)),
        .text [0x69, 0x64], .bytes user.id] ++
      (user.name.toList.flatMap fun name ↦ [.text [0x6E, 0x61, 0x6D, 0x65], .text (cText name)]) ++
      (user.displayName.toList.flatMap fun name ↦
        [.text [0x64, 0x69, 0x73, 0x70, 0x6C, 0x61, 0x79, 0x4E, 0x61, 0x6D, 0x65],
          .text (cText name)])) ++
  (response.numberOfCredentials.toList.flatMap fun n ↦ [.uint 0x05, .uint n]) ++
  (response.largeBlobKey.toList.flatMap fun key ↦ [.uint 0x07, .bytes key])

/-- The value of the signature counter, which an imported credential does without. -/
def assertionCounter (cred : Credential) : Except AssertionError UInt32 :=
  if cred.imported then .ok 0
  else match D.bumpSignCounter with
    | none => .error .processing
    | some ctr => .ok ctr

/-- The fields of a response. The names of the account are in it only if there are several accounts
and the user is verified. -/
def assertionResponse (flags : UInt8) (numberOfCredentials : ℕ) (next : Bool) (cred : Credential)
    (authData signature : Bytes) (largeBlobKey : Option Bytes) : AssertionResponse :=
  let named := decide (1 < numberOfCredentials) && flags &&& fido2AutFlagUv != 0
  { credentialId := cred.residentId.getD (X.deriveResident (cred.id.getD []))
    authData
    signature
    user := if cred.opts.present = true ∧ cred.opts.rk = some true then
        some ⟨cred.userId.getD [], if named then cred.userName else none,
          if named then cred.userDisplayName else none⟩
      else none
    numberOfCredentials := if 1 < numberOfCredentials ∧ next = false then some numberOfCredentials
      else none
    largeBlobKey }

/-- The rest of `cbor_get_assertion`, when the credential is chosen: the signature and the
response. -/
def assertionRespond (flags : UInt8) (numberOfCredentials : ℕ) (next : Bool) (cred : Credential) :
    Except AssertionError AssertionResponse := do
  let rpIdHash := X.sha256 request.rpId
  let largeBlobKey ← assertionLargeBlobKey X request cred
  let (ext, extended) ← assertionExtensionOutputs X request flags cred
  let flags := if extended then flags ||| fido2AutFlagEd else flags
  let ctr ← assertionCounter D cred
  let authData := rpIdHash.toList ++ [flags] ++ beBytes 4 ctr.toNat ++ ext
  let signature ← D.sign rpIdHash cred (assertionKeySeed cred)
    (authData ++ request.clientDataHash.toList)
  let response := assertionResponse X flags numberOfCredentials next cred authData signature
    largeBlobKey
  let _ ← assertionCbor (X.cbor.write ctapMaxCborPayload response.tokens)
  return response

end Response

/-! ### The commands -/

/-- The static variables of the walk. Of the array `credsx` only the credentials that are in use are
kept. -/
structure GnaState where
  /-- `credsx`. -/
  creds : List Credential
  /-- `credentialCounter`. -/
  counter : ℕ
  /-- `numberOfCredentialsx`. -/
  number : ℕ
  /-- `flagsx`. -/
  flags : UInt8
  /-- `timerx`. -/
  timer : UInt32
  /-- `channelx`. -/
  channel : UInt32
  /-- `datax`. -/
  data : Option AssertionRequest

/-- The variables at power-up. -/
def gnaPowerUp : GnaState :=
  ⟨[], 1, 0, 0, 0, 0, none⟩

def resetGnaState : GnaState :=
  ⟨[], 0, 0, 0, 0, 0, none⟩

/-- `cbor_get_assertion` behind the choice of the credentials: the touch, the response with the first
of them, and the static variables if there are several. These take the credentials over; otherwise
`creds` is freed. -/
def answerAssertion (request : AssertionRequest) (flags : UInt8) (moved : Bool) :
    List Credential → Option (Except AssertionError (AssertionResponse × GnaState))
  | [] => freeCreds moved do
    let _ ← assertionPresence D request flags D.checkUserPresence
    .error .noCredentials
  | cred :: creds =>
    match assertionPresence D request flags (D.checkUserPresenceForCredential cred.requireButton) with
    | .error e => freeCreds moved (.error e)
    | .ok flags =>
      if request.extensions.largeBlobKey = some false then freeCreds moved (.error .invalidOption)
      else
        let number := (cred :: creds).length
        let answer := (assertionRespond X D request flags number false cred).map (·,
          if 1 < number then
            { creds := cred :: creds, counter := 1, number, flags, timer := D.millisTimer,
              channel := D.channel, data := some request } else s)
        if 1 < number then some answer else freeCreds moved answer

/-- `cbor_get_assertion` for a request without an allow list. -/
def getAssertion [FileDeletion] (parsed : Except AssertionError AssertionRequest) :
    Option (Except AssertionError (AssertionResponse × GnaState)) :=
  match parsed with
  | .error e => some (.error e)
  | .ok request =>
    match assertionChecks X D request with
    | .error e => some (.error e)
    | .ok flags =>
      let creds := assertionLoaded D (X.sha256 request.rpId)
      answerAssertion X D s request flags (assertionMoved flags creds)
        (assertionSort (creds.filter (assertionAdmits flags)))

/-- `cbor_get_assertion`, with what it does when it fails. -/
def cborGetAssertion [FileDeletion] (parsed : Except AssertionError AssertionRequest) :
    Option (Except AssertionError AssertionResponse × GnaState) :=
  (getAssertion X D s parsed).map fun
    | .error e => (.error e, resetGnaState)
    | .ok (response, s) => (.ok response, s)

/-- `cbor_get_next_assertion`. -/
def cborGetNextAssertion :
    Except AssertionError AssertionResponse × GnaState :=
  if s.channel ≠ D.channel then
    (.error .notAllowed, resetGnaState)
  else if s.number ≤ s.counter then
    (.error .notAllowed, resetGnaState)
  else if statefulWalkIdleMs ≤ D.millis - s.timer then
    (.error .notAllowed, resetGnaState)
  else
    match s.data with
    -- The parser is given no data.
    | none => (.error (.cbor .unexpectedEof), resetGnaState)
    | some request =>
      match assertionRespond X D request s.flags s.number true
          (s.creds.getD s.counter blankCredential) with
      | .error e => (.error e, resetGnaState)
      | .ok response =>
        (.ok response, if s.counter + 1 = s.number then resetGnaState
          else { s with timer := D.millisTimer, counter := s.counter + 1 })

/-- What `cbor_parse` is given. -/
inductive FidoMessage where
  /-- `CTAP_GET_ASSERTION`, with the request as it is parsed. -/
  | getAssertion (parsed : Except AssertionError AssertionRequest)
  /-- `CTAP_GET_NEXT_ASSERTION`. -/
  | getNextAssertion
  /-- Any other command of `CTAPHID_CBOR`. -/
  | other
  /-- What is not a command of `CTAPHID_CBOR`, or is empty. -/
  | outside

/-- `cbor_parse`, with its answer if it is one of an assertion. -/
def cborParseAssertion [FileDeletion] :
    FidoMessage → Option (Option (Except AssertionError AssertionResponse) × GnaState)
  | .getAssertion parsed =>
    (cborGetAssertion X D resetGnaState parsed).map fun (answer, s) ↦ (some answer, s)
  | .getNextAssertion =>
    let (answer, s) := cborGetNextAssertion X D s
    some (some answer, s)
  | .other => some (none, resetGnaState)
  | .outside => some (none, s)

/-- Messages one after another, each with what the device has at hand. -/
def gnaRun [FileDeletion] (X : AssertionCrypto) : List (AssertionDevice × FidoMessage) → GnaState →
    Option (List (Option (Except AssertionError AssertionResponse)) × GnaState)
  | [], s => some ([], s)
  | (D, message) :: messages, s => do
    let step ← cborParseAssertion X D s message
    let rest ← gnaRun X messages step.2
    return (step.1 :: rest.1, rest.2)

end PicoAll
