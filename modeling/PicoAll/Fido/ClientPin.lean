import PicoAll.Fs.FileApi

/-!
# Lengths in client PIN requests

`cbor_client_pin` of `cbor_client_pin.c`, as far as what the three subcommands with a PIN hand on to
`verify` and `decrypt`. The fields lie in one message, which is far shorter than 64 KiB. `verify` gets
no length for the parameter: it compares as many bytes as the protocol has. `decrypt` writes what is
behind the IV of its input, whatever the length of the buffer is.
-/

namespace PicoAll

/-- The fields of a request. The longest message has 7609 bytes. -/
structure ClientPinRequest where
  subcommand : ℕ
  pinUvAuthProtocol : ℕ
  alg : ℤ
  kax : Option Bytes
  kay : Option Bytes
  pinUvAuthParam : Option Bytes
  newPinEnc : Option Bytes
  pinHashEnc : Option Bytes
  permissions : ℕ
  rpId : Option Bytes
  newPinEnc_le : ∀ field ∈ newPinEnc, field.length ≤ 7609
  pinHashEnc_le : ∀ field ∈ pinHashEnc, field.length ≤ 7609

/-- The errors of `cbor_client_pin`. -/
inductive ClientPinError where
  | missingParameter
  | invalidParameter
  | notAllowed
  | pinNotSet
  | pinBlocked
  | pinAuthBlocked
  | pinAuthInvalid
  | unauthorizedPermission
  | invalidSubcommand
  | pinInvalid
  | pinPolicyViolation
  | processing
  deriving DecidableEq

/-- The device, and how the steps end that the lengths do not matter for. -/
structure ClientPinEnv where
  /-- `ef_pin`. -/
  pin : Option Bytes
  needsPowerCycle : Bool
  /-- A secret is agreed upon with the key of the platform. -/
  ecdh : Bytes → Bytes → Bool
  /-- The parameter is right, as far as it is compared. -/
  verified : Bool
  /-- The retry is counted and stored. -/
  counted : Except ClientPinError Unit
  /-- The hash of the PIN is decrypted and compared, and the device key opened. -/
  pinChecked : Except ClientPinError Unit
  /-- The rest of the command. -/
  rest : Except ClientPinError Unit

/-- What is done with the lengths. -/
inductive PinCall where
  /-- A length is narrowed to 16 bits. -/
  | narrow (len : ℕ) (len' : UInt16)
  /-- `verify` compares with a parameter of a length. -/
  | verify (protocol param : ℕ)
  /-- `decrypt` is called with an input of a length and a buffer. -/
  | decrypt (protocol len room : ℕ)
  deriving DecidableEq

/-! ### The functions of the source -/

/-- The length of the IV in front of an input. -/
def pinIvSize (protocol : ℕ) : ℕ :=
  if protocol = 2 then 16 else 0

/-- How many bytes `verify` compares. -/
def pinMacSize (protocol : ℕ) : ℕ :=
  if protocol = 2 then 32 else 16

/-- How a request ends, and the calls before. -/
abbrev ClientPinRun := Except ClientPinError Unit × List PinCall

namespace ClientPinRun

/-- A call, and what comes after it. -/
def calling (call : PinCall) (run : ClientPinRun) : ClientPinRun :=
  (run.1, call :: run.2)

/-- A step that may end the request. -/
def after (step : Except ClientPinError Unit) (run : ClientPinRun) : ClientPinRun :=
  match step with
  | .ok () => run
  | .error e => (.error e, [])

/-- A check. -/
def checking (e : ClientPinError) (b : Bool) (run : ClientPinRun) : ClientPinRun :=
  after (if b then .ok () else .error e) run

/-- `verify`, with a length for the data. -/
def verifying (protocol len param : ℕ) (run : ClientPinRun) : ClientPinRun :=
  calling (.narrow len (.ofNat len)) <| calling (.verify protocol param) run

/-- `decrypt`. -/
def decrypting (protocol len room : ℕ) (run : ClientPinRun) : ClientPinRun :=
  calling (.narrow len (.ofNat len)) <|
    calling (.decrypt protocol (UInt16.ofNat len).toNat room) run

end ClientPinRun

open ClientPinRun

section Requests

variable (env : ClientPinEnv) (req : ClientPinRequest)

/-- The checks of the length of `newPinEnc`. -/
def newPinEncOk (len : ℕ) : Bool :=
  decide (64 + pinIvSize req.pinUvAuthProtocol ≤ len) &&
    (len - pinIvSize req.pinUvAuthProtocol) % 16 == 0

/-- What SET PIN checks before it compares: the new PIN and the parameter. -/
def setPinChecks : Except ClientPinError (Bytes × Bytes) :=
  match req.kax, req.kay, req.newPinEnc, req.pinUvAuthParam with
  | some kax, some kay, some newPinEnc, some param =>
    if req.alg = 0 then .error .missingParameter
    else if fileHasData env.pin then .error .notAllowed
    else if !newPinEncOk req newPinEnc.length then .error .invalidParameter
    else if !env.ecdh kax kay then .error .invalidParameter
    else .ok (newPinEnc, param)
  | _, _, _, _ => .error .missingParameter

/-- The new PIN is decrypted, into a buffer of 272 bytes. -/
def newPinDecrypt (newPinEnc : Bytes) : ClientPinRun :=
  let plain := newPinEnc.length - pinIvSize req.pinUvAuthProtocol
  calling (.narrow plain (.ofNat plain)) <|
    checking .invalidParameter ((UInt16.ofNat plain).toNat ≤ 272) <|
    decrypting req.pinUvAuthProtocol newPinEnc.length 272 (env.rest, [])

/-- SET PIN. -/
def setPin : ClientPinRun :=
  match setPinChecks env req with
  | .error e => (.error e, [])
  | .ok (newPinEnc, param) =>
    verifying req.pinUvAuthProtocol newPinEnc.length param.length <|
      checking .pinAuthInvalid env.verified <| newPinDecrypt env req newPinEnc

/-- The retries of the PIN that are left. -/
def pinRetries : UInt8 :=
  (env.pin.bind List.head?).getD 0 &&& 0x7f

/-- What CHANGE PIN checks before it compares: the new PIN, the hash of the old one and the
parameter. -/
def changePinChecks : Except ClientPinError (Bytes × Bytes × Bytes) :=
  match req.kax, req.kay, req.newPinEnc, req.pinUvAuthParam, req.pinHashEnc with
  | some kax, some kay, some newPinEnc, some param, some pinHashEnc =>
    if req.alg = 0 then .error .missingParameter
    else if !fileHasData env.pin then .error .pinNotSet
    else if pinRetries env = 0 then .error .pinBlocked
    else if env.needsPowerCycle then .error .pinAuthBlocked
    else if !newPinEncOk req newPinEnc.length ||
        pinHashEnc.length != 16 + pinIvSize req.pinUvAuthProtocol then .error .invalidParameter
    else if newPinEnc.length > 256 + pinIvSize req.pinUvAuthProtocol then .error .invalidParameter
    else if !env.ecdh kax kay then .error .invalidParameter
    else .ok (newPinEnc, pinHashEnc, param)
  | _, _, _, _, _ => .error .missingParameter

/-- CHANGE PIN. -/
def changePin : ClientPinRun :=
  match changePinChecks env req with
  | .error e => (.error e, [])
  | .ok (newPinEnc, pinHashEnc, param) =>
    verifying req.pinUvAuthProtocol (newPinEnc.length + pinHashEnc.length) param.length <|
      checking .pinAuthInvalid env.verified <| after env.counted <|
      decrypting req.pinUvAuthProtocol pinHashEnc.length 272 <| after env.pinChecked <|
      newPinDecrypt env req newPinEnc

/-- What the requests for a token check before the retry is counted: the hash of the PIN. -/
def getPinTokenChecks : Except ClientPinError Bytes :=
  match req.kax, req.kay, req.pinHashEnc with
  | some kax, some kay, some pinHashEnc =>
    if req.alg = 0 then .error .missingParameter
    else if req.subcommand = 5 ∧ (req.permissions ≠ 0 ∨ req.rpId.isSome) then .error .invalidParameter
    else if req.subcommand = 9 ∧ req.permissions = 0 then .error .invalidParameter
    else if req.subcommand = 9 ∧ (req.permissions &&& 0x08 ≠ 0 ∨
        req.permissions &&& 0x40 ≠ 0 ∧ req.permissions ≠ 0x40) then .error .unauthorizedPermission
    else if !fileHasData env.pin then .error .pinNotSet
    else if pinRetries env = 0 then .error .pinBlocked
    else if !env.ecdh kax kay then .error .invalidParameter
    else .ok pinHashEnc
  | _, _, _ => .error .missingParameter

/-- The requests for a token. The hash is decrypted into a buffer of 64 bytes. -/
def getPinToken : ClientPinRun :=
  match getPinTokenChecks env req with
  | .error e => (.error e, [])
  | .ok pinHashEnc =>
    after env.counted <| decrypting req.pinUvAuthProtocol pinHashEnc.length 64 <|
      after env.pinChecked (env.rest, [])

/-- `cbor_client_pin`, after the parser. -/
def cborClientPin : ClientPinRun :=
  if req.pinUvAuthProtocol ≠ 1 ∧ req.pinUvAuthProtocol ≠ 2 then (.error .invalidParameter, [])
  else if req.subcommand = 0 then (.error .missingParameter, [])
  else if req.subcommand = 1 ∨ req.subcommand = 2 then (env.rest, [])
  else if req.subcommand = 3 then setPin env req
  else if req.subcommand = 4 then changePin env req
  else if req.subcommand = 5 ∨ req.subcommand = 9 then getPinToken env req
  else (.error .invalidSubcommand, [])

/-! ### What is asked of the lengths -/

/-- **A length that fits**: it is not changed by narrowing it, the parameter is as long as the MAC, and
an input has an IV and whole blocks, which there is room for. -/
def PinCall.Good : PinCall → Prop
  | narrow len len' => len'.toNat = len
  | verify protocol param => param = pinMacSize protocol
  | decrypt protocol len room =>
    pinIvSize protocol ≤ len ∧ 16 ∣ len ∧ len - pinIvSize protocol ≤ room

/-- The condition: a parameter that is compared is as long as the MAC, and the hash in a request for a
token, which is decrypted once the retry is counted, has an IV and up to four blocks. -/
def ClientPinLengths : Prop :=
  req.pinUvAuthProtocol = 1 ∨ req.pinUvAuthProtocol = 2 →
    (req.subcommand = 3 → ∀ newPinEnc param, setPinChecks env req = .ok (newPinEnc, param) →
      param.length = pinMacSize req.pinUvAuthProtocol) ∧
    (req.subcommand = 4 → ∀ newPinEnc pinHashEnc param,
      changePinChecks env req = .ok (newPinEnc, pinHashEnc, param) →
        param.length = pinMacSize req.pinUvAuthProtocol) ∧
    (req.subcommand = 5 ∨ req.subcommand = 9 → env.counted = .ok () →
      ∀ pinHashEnc, getPinTokenChecks env req = .ok pinHashEnc →
        pinIvSize req.pinUvAuthProtocol ≤ pinHashEnc.length ∧ 16 ∣ pinHashEnc.length ∧
          pinHashEnc.length - pinIvSize req.pinUvAuthProtocol ≤ 64)

end Requests

/-! ### The calls of a request -/

/-- All the lengths of a run fit. -/
def ClientPinRun.Good (run : ClientPinRun) : Prop :=
  ∀ call ∈ run.2, call.Good

section Laws

variable {env : ClientPinEnv} {req : ClientPinRequest} {run : ClientPinRun} {call : PinCall}
  {protocol len param room : ℕ} {step : Except ClientPinError Unit} {newPinEnc : Bytes}

theorem good_end : ClientPinRun.Good (step, []) :=
  List.forall_mem_nil _

theorem good_calling : (calling call run).Good ↔ call.Good ∧ run.Good :=
  List.forall_mem_cons

theorem good_after :
    (after step run).Good ↔ (step = .ok () → run.Good) := by
  rcases step with e | ⟨⟩
  · exact iff_of_true good_end fun h ↦ by cases h
  · simp [after]

theorem good_checking {e : ClientPinError} {b : Bool} :
    (checking e b run).Good ↔ (b = true → run.Good) := by
  rw [checking, good_after]
  cases b <;> simp

theorem toNat_narrowed (h : len < 2 ^ 16) : (UInt16.ofNat len).toNat = len :=
  UInt16.toNat_ofNat_of_lt h

theorem good_verifying (h : len < 2 ^ 16) :
    (verifying protocol len param run).Good ↔ param = pinMacSize protocol ∧ run.Good := by
  rw [verifying, good_calling, good_calling]
  exact and_iff_right (toNat_narrowed h)

theorem good_decrypting (h : len < 2 ^ 16) :
    (decrypting protocol len room run).Good ↔
      (pinIvSize protocol ≤ len ∧ 16 ∣ len ∧ len - pinIvSize protocol ≤ room) ∧ run.Good := by
  have hlen : (UInt16.ofNat len).toNat = len := toNat_narrowed (by omega)
  rw [decrypting, good_calling, good_calling, hlen]
  exact and_iff_right hlen

/-- The checks of a new PIN are enough. -/
theorem good_newPinDecrypt (hok : newPinEncOk req newPinEnc.length = true)
    (hlt : newPinEnc.length < 2 ^ 16) : (newPinDecrypt env req newPinEnc).Good := by
  have hiv : 16 ∣ pinIvSize req.pinUvAuthProtocol := by
    rw [pinIvSize]
    split_ifs <;> decide
  simp only [newPinEncOk, Bool.and_eq_true, decide_eq_true_eq, beq_iff_eq] at hok
  have hplain : (UInt16.ofNat (newPinEnc.length - pinIvSize req.pinUvAuthProtocol)).toNat =
      newPinEnc.length - pinIvSize req.pinUvAuthProtocol := toNat_narrowed (by omega)
  rw [newPinDecrypt, good_calling, good_checking, good_decrypting hlt, hplain, decide_eq_true_eq]
  exact ⟨hplain, fun hroom ↦ ⟨⟨by omega, by omega, hroom⟩, good_end⟩⟩

theorem setPinChecks_spec {param : Bytes} (h : setPinChecks env req = .ok (newPinEnc, param)) :
    req.newPinEnc = some newPinEnc ∧ newPinEncOk req newPinEnc.length = true := by
  rw [setPinChecks] at h
  split at h
  · split_ifs at h with _ _ hok
    cases h
    exact ⟨‹_›, by simpa using hok⟩
  · cases h

theorem good_setPin : (setPin env req).Good ↔ ∀ newPinEnc param,
    setPinChecks env req = .ok (newPinEnc, param) → param.length = pinMacSize req.pinUvAuthProtocol := by
  rcases hchecks : setPinChecks env req with e | ⟨newPinEnc, param⟩
  · simp [setPin, hchecks, good_end]
  · obtain ⟨hsome, hok⟩ := setPinChecks_spec hchecks
    have hle := req.newPinEnc_le newPinEnc hsome
    have hlt : newPinEnc.length < 2 ^ 16 := by omega
    simp only [setPin, hchecks, good_verifying hlt, good_checking, good_newPinDecrypt hok hlt,
      Except.ok.injEq, Prod.mk.injEq, implies_true, and_true]
    exact ⟨fun h _ _ heq ↦ heq.2 ▸ h, fun h ↦ h _ _ ⟨rfl, rfl⟩⟩

theorem changePinChecks_spec {pinHashEnc param : Bytes}
    (h : changePinChecks env req = .ok (newPinEnc, pinHashEnc, param)) :
    req.newPinEnc = some newPinEnc ∧ newPinEncOk req newPinEnc.length = true ∧
      pinHashEnc.length = 16 + pinIvSize req.pinUvAuthProtocol := by
  rw [changePinChecks] at h
  split at h
  · split_ifs at h with _ _ _ _ hok
    cases h
    simp only [Bool.or_eq_true, Bool.not_eq_true', not_or, bne_iff_ne, not_not, Bool.not_eq_false] at hok
    exact ⟨‹_›, hok⟩
  · cases h

theorem good_changePin : (changePin env req).Good ↔ ∀ newPinEnc pinHashEnc param,
    changePinChecks env req = .ok (newPinEnc, pinHashEnc, param) →
      param.length = pinMacSize req.pinUvAuthProtocol := by
  rcases hchecks : changePinChecks env req with e | ⟨newPinEnc, pinHashEnc, param⟩
  · simp [changePin, hchecks, good_end]
  · obtain ⟨hsome, hok, hhash⟩ := changePinChecks_spec hchecks
    have hle := req.newPinEnc_le newPinEnc hsome
    have hiv : pinIvSize req.pinUvAuthProtocol = 0 ∨ pinIvSize req.pinUvAuthProtocol = 16 := by
      rw [pinIvSize]
      split_ifs <;> simp
    have hfits : pinIvSize req.pinUvAuthProtocol ≤ pinHashEnc.length ∧ 16 ∣ pinHashEnc.length ∧
        pinHashEnc.length - pinIvSize req.pinUvAuthProtocol ≤ 272 := by omega
    have hlt : newPinEnc.length + pinHashEnc.length < 2 ^ 16 := by omega
    have hlt' : pinHashEnc.length < 2 ^ 16 := by omega
    simp only [changePin, hchecks, good_verifying hlt, good_checking, good_after,
      good_decrypting hlt', hfits,
      good_newPinDecrypt hok (by omega), Except.ok.injEq, Prod.mk.injEq, implies_true, and_true]
    exact ⟨fun h _ _ _ heq ↦ heq.2.2 ▸ h, fun h ↦ h _ _ _ ⟨rfl, rfl, rfl⟩⟩

theorem good_getPinToken : (getPinToken env req).Good ↔ env.counted = .ok () →
    ∀ pinHashEnc, getPinTokenChecks env req = .ok pinHashEnc →
      pinIvSize req.pinUvAuthProtocol ≤ pinHashEnc.length ∧ 16 ∣ pinHashEnc.length ∧
        pinHashEnc.length - pinIvSize req.pinUvAuthProtocol ≤ 64 := by
  rcases hchecks : getPinTokenChecks env req with e | pinHashEnc
  · simp [getPinToken, hchecks, good_end]
  · have hlt : pinHashEnc.length < 2 ^ 16 := by
      have hle := req.pinHashEnc_le pinHashEnc
      rw [getPinTokenChecks] at hchecks
      split at hchecks
      · split_ifs at hchecks
        cases hchecks
        have := hle ‹_›
        omega
      · cases hchecks
    simp only [getPinToken, hchecks, good_after, good_decrypting hlt, Except.ok.injEq]
    simp [good_end]

end Laws

/-- **The lengths of a request fit** exactly if those fit that are not checked. -/
theorem client_pin_lengths_iff (env : ClientPinEnv) (req : ClientPinRequest) :
    (cborClientPin env req).Good ↔ ClientPinLengths env req := by
  rw [cborClientPin]
  by_cases hprotocol : req.pinUvAuthProtocol ≠ 1 ∧ req.pinUvAuthProtocol ≠ 2
  · rw [if_pos hprotocol]
    exact iff_of_true good_end fun h ↦ by omega
  rw [if_neg hprotocol, ClientPinLengths, imp_iff_right (by omega)]
  split_ifs with hzero hinfo hset hchange htoken
  · exact iff_of_true good_end ⟨by omega, by omega, by omega⟩
  · exact iff_of_true good_end ⟨by omega, by omega, by omega⟩
  · exact good_setPin.trans ⟨fun h ↦ ⟨fun _ ↦ h, by omega, by omega⟩, fun h ↦ h.1 hset⟩
  · exact good_changePin.trans ⟨fun h ↦ ⟨by omega, fun _ ↦ h, by omega⟩, fun h ↦ h.2.1 hchange⟩
  · exact good_getPinToken.trans ⟨fun h ↦ ⟨by omega, by omega, fun _ ↦ h⟩, fun h ↦ h.2.2 htoken⟩
  · exact iff_of_true good_end ⟨by omega, by omega, fun h ↦ absurd h htoken⟩

/-! Requests that read or write too much -/

/-- A device with a PIN or without. -/
def plainPinEnv (pin : Option Bytes) : ClientPinEnv :=
  ⟨pin, false, fun _ _ ↦ true, true, .ok (), .ok (), .ok ()⟩

/-- A request of the second protocol. -/
def pinRequest (subcommand : ℕ) (pinHashEnc : Option Bytes) : ClientPinRequest where
  subcommand := subcommand
  pinUvAuthProtocol := 2
  alg := -25
  kax := some []
  kay := some []
  pinUvAuthParam := some []
  newPinEnc := some (List.replicate 80 0)
  pinHashEnc := pinHashEnc.filter (·.length ≤ 7609)
  permissions := 0
  rpId := none
  newPinEnc_le := by simp
  pinHashEnc_le := by simp

/-- An empty parameter is compared with 32 bytes, and of an empty hash what is behind an IV is
decrypted. -/
theorem client_pin_lengths_exceeded :
    ¬ (cborClientPin (plainPinEnv none) (pinRequest 3 none)).Good ∧
      ¬ (cborClientPin (plainPinEnv (some [8])) (pinRequest 5 (some []))).Good := by
  refine ⟨fun h ↦ ?_, fun h ↦ ?_⟩
  · exact absurd (show 0 = 32 from h (.verify 2 0) (by decide)) (by decide)
  · exact absurd (show 16 ≤ 0 ∧ _ from h (.decrypt 2 0 64) (by decide)).1 (by decide)

end PicoAll
