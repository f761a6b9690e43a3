import PicoAll.Lib.ByteBuffer

/-!
# authenticatorLargeBlobs

`cbor_large_blobs.c`: the large-blob array is one file. It is read in fragments, and replaced by an
upload in fragments, each of which carries the offset it belongs at. The upload is in four static
variables and a buffer that all clients share: a set request at offset zero names the length and
starts it, whatever upload there was before; the next ones have to be at the offset that is expected.
The file is written when all of it is there and its last 16 bytes are the hash of the rest.

SHA-256 and HMAC-SHA-256 are parameters. What the request is checked against (the PIN file, the
options, the token and its permissions, the clock, whether the file can be written) is an input.
-/

namespace PicoAll

open BigEndian ByteBuffer

/-- The CTAP status codes that requests for large blobs end with. -/
inductive CtapError where
  | invalidParameter
  | invalidLen
  | invalidSeq
  | cborUnexpectedType
  | invalidCbor
  | missingParameter
  | largeBlobStorageFull
  | pinAuthInvalid
  | puatRequired
  | integrityFailure
  deriving DecidableEq, Repr

/-- An item of a CBOR map, as far as the parser looks at it. -/
inductive CborItem where
  /-- An unsigned integer. -/
  | uint (v : UInt64)
  /-- A byte string. -/
  | bytes (b : Bytes)
  /-- Anything else. -/
  | other
  deriving DecidableEq

abbrev maxFragmentLength : ℕ := 960

abbrev maxLargeBlobSize : ℕ := 2048

abbrev statefulWalkIdleMs : UInt32 := 30000

abbrev ctapPermissionLbw : UInt8 := 0x10

/-- The fields of a request that are there. -/
structure LargeBlobsRequest where
  get : Option UInt64
  set : Option Bytes
  /-- `offset`, whose absence is the greatest number. -/
  offset : UInt64
  length : Option UInt64
  pinUvAuthParam : Option Bytes
  pinUvAuthProtocol : Option UInt64
  deriving DecidableEq

/-- A request without fields. -/
def LargeBlobsRequest.empty : LargeBlobsRequest :=
  ⟨none, none, .ofNat (2 ^ 64 - 1), none, none, none⟩

/-- The loop over the map, whose items come one after another, keys and values; `valC` is the least
key that may come next. The value of a key that is not known is not skipped: it is taken for the next
key. -/
def largeBlobsParse (valC : UInt64) (request : LargeBlobsRequest) :
    List CborItem → Except CtapError LargeBlobsRequest
  | [] => .ok request
  | .uint valU :: rest =>
    if valC ≤ 0 ∧ valC ≠ valU then .error .missingParameter
    else if valU < valC then .error .invalidCbor
    else if valU = 1 then
      match rest with
      | .uint v :: rest => largeBlobsParse (valU + 1) { request with get := some v } rest
      | _ => .error .cborUnexpectedType
    else if valU = 2 then
      match rest with
      | .bytes b :: rest => largeBlobsParse (valU + 1) { request with set := some b } rest
      | _ => .error .cborUnexpectedType
    else if valU = 3 then
      match rest with
      | .uint v :: rest => largeBlobsParse (valU + 1) { request with offset := v } rest
      | _ => .error .cborUnexpectedType
    else if valU = 4 then
      match rest with
      | .uint v :: rest => largeBlobsParse (valU + 1) { request with length := some v } rest
      | _ => .error .cborUnexpectedType
    else if valU = 5 then
      match rest with
      | .bytes b :: rest => largeBlobsParse (valU + 1) { request with pinUvAuthParam := some b } rest
      | _ => .error .cborUnexpectedType
    else if valU = 6 then
      match rest with
      | .uint v :: rest =>
        largeBlobsParse (valU + 1) { request with pinUvAuthProtocol := some v } rest
      | _ => .error .cborUnexpectedType
    else largeBlobsParse (valU + 1) request rest
  | _ :: _ => .error .cborUnexpectedType

/-- The checks before anything is done: the protocol is known, there is an offset, and either a get
or a set. -/
def largeBlobsCheck (request : LargeBlobsRequest) : Except CtapError Unit :=
  if request.pinUvAuthProtocol.any fun protocol ↦ protocol ≠ 1 ∧ protocol ≠ 2 then
    .error .invalidParameter
  else if request.offset = .ofNat (2 ^ 64 - 1) then
    .error .invalidParameter
  else if request.get.isNone ∧ request.set.isNone then
    .error .invalidParameter
  else if request.get.isSome ∧ request.set.isSome then
    .error .invalidParameter
  else
    .ok ()

/-- The array and the upload in progress. -/
structure LargeBlobs where
  /-- The content of `ef_largeblob`. -/
  stored : Bytes
  expectedLength : ℕ
  expectedNextOffset : ℕ
  /-- `large_blob_timer`. -/
  timer : UInt32
  /-- `large_blob_active`. -/
  active : Bool
  tempLba : Bytes
  deriving DecidableEq

/-- After power-up. -/
def LargeBlobs.powerUp (stored : Bytes) : LargeBlobs :=
  ⟨stored, 0, 0, 0, false, List.replicate maxLargeBlobSize 0⟩

/-- What a request meets. -/
structure LargeBlobsEnv where
  /-- `board_millis()`. -/
  now : UInt32
  /-- `file_has_data(ef_pin) || (get_opts() & FIDO2_OPT_AUV)`. -/
  requirePinAuth : Bool
  /-- `paut.data`. -/
  token : Bytes
  /-- `paut.permissions`. -/
  permissions : UInt8
  /-- `file_put_data` succeeds. -/
  put : Bool

variable (s : LargeBlobs)

def cborLargeBlobsTick (now : UInt32) : LargeBlobs :=
  if s.active ∧ now - s.timer ≥ statefulWalkIdleMs then
    { s with expectedLength := 0, expectedNextOffset := 0, active := false }
  else
    s

/-- A get: the fragment. -/
def largeBlobsGet (request : LargeBlobsRequest) (get : UInt64) :
    Except CtapError Bytes :=
  if request.length.isSome ∨ request.pinUvAuthParam.isSome ∨ request.pinUvAuthProtocol.isSome then
    .error .invalidParameter
  else if get.toNat > maxFragmentLength then
    .error .invalidLen
  else if request.offset.toNat > s.stored.length then
    .error .invalidParameter
  else
    .ok (slice s.stored request.offset.toNat
      (min get.toNat (s.stored.length - request.offset.toNat)))

/-- At offset zero an upload begins, elsewhere it goes on. -/
def largeBlobsBegin (env : LargeBlobsEnv) (s : LargeBlobs) (request : LargeBlobsRequest) :
    Except CtapError LargeBlobs :=
  let length := (request.length.getD 0).toNat
  if request.offset = 0 then
    if length = 0 then .error .invalidParameter
    else if length > maxLargeBlobSize then .error .largeBlobStorageFull
    else if length < 17 then .error .invalidParameter
    else .ok { s with
      expectedLength := length, expectedNextOffset := 0, timer := env.now, active := true }
  else if length ≠ 0 then .error .invalidParameter
  else .ok s

/-- The buffer with a fragment added to it. -/
def LargeBlobs.appended (env : LargeBlobsEnv) (offset : ℕ) (set : Bytes) :
    LargeBlobs :=
  { s with
    tempLba := patch (if offset = 0 then List.replicate maxLargeBlobSize 0 else s.tempLba)
      s.expectedNextOffset set
    expectedNextOffset := (s.expectedNextOffset + set.length) % 2 ^ 64
    timer := env.now }

/-- The array in the buffer. -/
def LargeBlobs.array : Bytes :=
  slice s.tempLba 0 s.expectedLength

section Requests

variable (sha256 : Bytes → Bytes) (hmac : Bytes → Bytes → Bytes)

/-- `verify`. -/
def pinAuthVerify (protocol : UInt64) (key data sign : Bytes) : Bool :=
  if protocol = 1 then sign.take 16 == (hmac key data).take 16
  else if protocol = 2 then sign.take 32 == hmac key data
  else false

/-- `verify_data`: what the parameter of a set request is the MAC of. -/
def largeBlobsVerifyData (offset : UInt64) (set : Bytes) : Bytes :=
  List.replicate 32 0xff ++ [0x0c, 0x00] ++ leBytes 4 offset.toNat ++ sha256 set

/-- The authorisation of a set request. -/
def largeBlobsAuthorize (env : LargeBlobsEnv) (request : LargeBlobsRequest) (set : Bytes) :
    Except CtapError Unit :=
  if env.requirePinAuth ∨ request.pinUvAuthParam.isSome ∨ request.pinUvAuthProtocol.isSome then
    match request.pinUvAuthParam with
    | none => .error .puatRequired
    | some param =>
      match request.pinUvAuthProtocol with
      | none => .error .missingParameter
      | some protocol =>
        if param.length ≠ (if protocol = 1 then 16 else 32) then .error .pinAuthInvalid
        else if !pinAuthVerify hmac protocol env.token
            (largeBlobsVerifyData sha256 request.offset set) param then .error .pinAuthInvalid
        else if env.permissions &&& ctapPermissionLbw = 0 then .error .pinAuthInvalid
        else .ok ()
  else
    .ok ()

/-- The array is written if it is complete. -/
def largeBlobsComplete (env : LargeBlobsEnv) (s : LargeBlobs) : Except CtapError Unit × LargeBlobs :=
  if s.expectedNextOffset = s.expectedLength then
    if (sha256 (slice s.tempLba 0 (s.expectedLength - 16))).take 16 ≠
        slice s.tempLba (s.expectedLength - 16) 16 then
      (.error .integrityFailure, s)
    else
      (.ok (), { s with
        stored := if env.put then s.array else s.stored
        expectedLength := 0, expectedNextOffset := 0, active := false })
  else
    (.ok (), s)

/-- A fragment that fits is put where it belongs. -/
def largeBlobsAppend (env : LargeBlobsEnv) (s : LargeBlobs) (offset : ℕ) (set : Bytes) :
    Except CtapError Unit × LargeBlobs :=
  if (offset + set.length) % 2 ^ 64 > s.expectedLength then
    (.error .invalidParameter, s)
  else
    largeBlobsComplete sha256 env (s.appended env offset set)

/-- A fragment of an upload. The upload begins anew before the request is authorized. -/
def largeBlobsSet (env : LargeBlobsEnv) (s : LargeBlobs) (request : LargeBlobsRequest)
    (set : Bytes) : Except CtapError Unit × LargeBlobs :=
  if set.length > maxFragmentLength then
    (.error .invalidLen, s)
  else
    match largeBlobsBegin env s request with
    | .error e => (.error e, s)
    | .ok s =>
      if request.offset.toNat ≠ s.expectedNextOffset then
        (.error .invalidSeq, s)
      else
        match largeBlobsAuthorize sha256 hmac env request set with
        | .error e => (.error e, s)
        | .ok () => largeBlobsAppend sha256 env s request.offset.toNat set

/-- The request of a message, if it passes the first checks. -/
def largeBlobsRequest (items : List CborItem) : Except CtapError LargeBlobsRequest :=
  match largeBlobsParse 1 .empty items with
  | .error e => .error e
  | .ok request =>
    match largeBlobsCheck request with
    | .error e => .error e
    | .ok () => .ok request

/-- `cbor_large_blobs`: a get is answered with a fragment, a set with nothing. -/
def cborLargeBlobs (env : LargeBlobsEnv) (s : LargeBlobs) (items : List CborItem) :
    Except CtapError (Option Bytes) × LargeBlobs :=
  match largeBlobsRequest items with
  | .error e => (.error e, s)
  | .ok request =>
    match request.get, request.set with
    | some get, _ => ((largeBlobsGet s request get).map some, s)
    | none, some set =>
      let (result, s) := largeBlobsSet sha256 hmac env s request set
      (result.map fun () ↦ none, s)
    | none, none => (.error .invalidParameter, s)

end Requests

end PicoAll
