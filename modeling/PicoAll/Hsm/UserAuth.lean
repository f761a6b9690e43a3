import PicoAll.Hsm.PinRetry

/-!
# User access to the HSM

`hsm_update_user_auth` and `hsm_check_pin` of `sc_hsm.c`, `cmd_challenge.c`, `cmd_mse.c`,
`cmd_external_authenticate.c`, `cmd_puk_auth.c`: the flag of user access, which a PIN sets, or, with
public key authentication, a quorum of keys that sign a challenge.

What the caller did in the session is kept beside what the source keeps; no function reads it.
-/

namespace PicoAll

open FaultProgram BigEndian

/-! ### State -/

/-- Cryptography beside that of the PINs. -/
structure HsmAuthCrypto where
  /-- `cvc_get_chr`, nothing if there is none. -/
  cvcGetChr : Bytes → Bytes
  /-- `puk_verify`: of a signature, a hash and a certificate. -/
  pukVerify : Bytes → Bytes → Bytes → Bool
  hash256 : Bytes → Bytes
  /-- `random_bytes_get`, of the number of the draw and a length. -/
  randomBytesGet : ℕ → ℕ → Option Bytes
  pukStoreSelectChr : Bytes → Bool
  devName : Bytes
  /-- The public key in a certificate: the part that `cvc_extract_pubkey` gives `puk_verify`. -/
  publicKey : Bytes → Bytes
  not_pukVerify_nil : ∀ signature hash, pukVerify signature hash [] = false

/-- What the caller did in the session. -/
inductive HsmAuthNote where
  /-- A PIN was presented. -/
  | presented (pin : HsmPin) (correct : Bool)
  /-- A challenge was drawn. -/
  | drawn (challenge : Bytes)
  /-- A signature was accepted, for a slot and the certificate in it. -/
  | accepted (slot : Fin maxPuk) (key signature : Bytes)
  deriving DecidableEq

/-- The device, with what public key authentication keeps in memory. -/
structure HsmAuth where
  /-- The files and the memory. -/
  device : HsmDevice
  /-- `challenge` while `challenge_pending`, with the number of its draw. -/
  challenge : Option (ℕ × Bytes)
  efPukAut : Option (Fin maxPuk)
  /-- How many challenges have been drawn. -/
  draws : ℕ
  /-- What the caller did in the session, the latest first. -/
  session : List HsmAuthNote
  /-- The challenges with which a quorum was reached. -/
  spent : List ℕ

namespace HsmAuth

/-- Change the memory of the device. -/
def setRam (s : HsmAuth) (g : HsmRam → HsmRam) : HsmAuth :=
  { s with device := s.device.setRam g }

/-- Note something. -/
def note (s : HsmAuth) (notes : List HsmAuthNote) : HsmAuth :=
  { s with session := notes ++ s.session }

end HsmAuth

abbrev hsmOptReplacePka : ℕ := 0x0008

variable (P : HsmPinCrypto) (C : HsmAuthCrypto) (s : HsmAuth) (d : HsmDevice)

/-- The threshold of the quorum: `puk_data[2]`. -/
def pkaThreshold : UInt8 :=
  (fileData d .pukaut).getD 2 0

/-- How many slots there are: `puk_data[0]`. -/
def pkaSlots : UInt8 :=
  (fileData d .pukaut).headD 0

/-! ### Commands -/

/-- GET CHALLENGE, which starts the collection of signatures again. -/
def hsmCmdChallenge (ne : ℕ) (s : HsmAuth) : UInt16 × HsmAuth :=
  if ne = 0 then
    (swWrongLength, s)
  else
    match C.randomBytesGet s.draws ne with
    | none => (swWrongLength, s)
    | some rb =>
      let cleared := s.setRam fun ram ↦ { ram with pukStatus := .replicate maxPuk 0 }
      -- a challenge that does not fit is not kept
      let kept := if ne ≤ 256 then some (s.draws, rb) else none
      (swOk, { cleared with challenge := kept, draws := s.draws + 1 }.note [.drawn rb])

/-- The loop of `hsm_cmd_mse` over the slots. What is compared is as long as the reference of the slot,
whatever follows the item. -/
def mseFindSlot (C : HsmAuthCrypto) (d : HsmDevice) (reference : Bytes) :
    List (Fin maxPuk) → Option (Fin maxPuk)
  | [] => none
  | i :: slots =>
    if !hsmFileHasData d (.puk i) then none
    else if (C.cvcGetChr (fileData d (.puk i))).isPrefixOf reference then some i
    else mseFindSlot C d reference slots

/-- The loop of `hsm_cmd_mse` over the items. Secure messaging is left out. -/
def mseItems (C : HsmAuthCrypto) (p2 : UInt8) (s : HsmAuth) : List TlvItem → UInt16 × HsmAuth
  | [] => (swOk, s)
  | item :: items =>
    if item.tag = 0x83 ∧ item.value.length ≠ 1 then
      let reference := item.value ++ item.rest
      if p2 = 0xb6 ∧ C.pukStoreSelectChr reference then
        (swOk, s)
      else if p2 = 0xa4 then
        match mseFindSlot C s.device reference (List.finRange maxPuk) with
        | none => (swReferenceNotFound, s)
        | some i =>
          let sw := if s.device.ram.pukStatus.getD i 0 = 1 then swConditionsNotSatisfied else swOk
          (sw, { s with efPukAut := some i })
      else
        (swReferenceNotFound, s)
    else
      mseItems C p2 s items

/-- MANAGE SECURITY ENVIRONMENT. -/
def hsmCmdMse (p1 p2 : UInt8) (data : Bytes) (s : HsmAuth) :
    UInt16 × HsmAuth :=
  if p2 ≠ 0xa4 ∧ p2 ≠ 0xa6 ∧ p2 ≠ 0xaa ∧ p2 ≠ 0xb4 ∧ p2 ≠ 0xb6 ∧ p2 ≠ 0xb8 then
    (swIncorrectP1P2, s)
  else if p1 &&& 1 = 0 then
    (swIncorrectP1P2, s)
  else
    mseItems C p2 s (tlvItems data)

/-- What is signed. -/
def pkaHash (challenge : Bytes) : Bytes :=
  C.hash256 (C.devName ++ challenge)

/-- A signature of the key of a slot was accepted. -/
def acceptSlot (i : Fin maxPuk) (draw : ℕ) (signature : Bytes) : HsmAuth :=
  let marked := s.setRam fun ram ↦ { ram with pukStatus := ram.pukStatus.set i 1 }
  let quorum := (marked.device.ram.pukStatus.take (pkaSlots s.device).toNat).sum ≥
    pkaThreshold s.device
  { marked with
    device := runHsm hsmUpdateUserAuth marked.device
    challenge := if quorum then none else s.challenge
    spent := if quorum then draw :: s.spent else s.spent }.note
      [.accepted i (fileData s.device (.puk i)) signature]

/-- EXTERNAL AUTHENTICATE: the signature of a challenge by the key of a slot. -/
def cmdExternalAuthenticate (p1 p2 : UInt8) (data : Bytes) (s : HsmAuth) :
    UInt16 × HsmAuth :=
  if p1 ≠ 0 ∨ p2 ≠ 0 then
    (swIncorrectP1P2, s)
  else
    match s.efPukAut with
    | none => (swReferenceNotFound, s)
    | some i =>
      if data = [] then
        (swWrongLength, s)
      else
        match s.challenge with
        | none => (swConditionsNotSatisfied, s)
        | some (draw, challenge) =>
          if !hsmFileHasData s.device .pukaut then
            (swFileNotFound, s)
          else if !C.pukVerify data (pkaHash C challenge) (fileData s.device (.puk i)) then
            (swConditionsNotSatisfied,
              s.setRam fun ram ↦ { ram with pukStatus := ram.pukStatus.set i 0 })
          else
            (swOk, acceptSlot s i draw data)

/-- The first of some slots without a key, or the status word. -/
def freeSlot (d : HsmDevice) : List ℕ → Except UInt16 ℕ
  | [] => .error swFileFull
  | i :: slots =>
    if (d.read (.puk i)).isNone then .error swMemoryFailure
    else if !hsmFileHasData d (.puk i) then .ok i
    else freeSlot d slots

/-- `cmd_puk_auth`, when it is given a key: the slot that the key is for. -/
def pukAuthSlot (p1 p2 : UInt8) : Except UInt16 ℕ :=
  if p1 ≠ 0 ∧ p1 ≠ 1 then
    .error swIncorrectP1P2
  else if !d.ram.hasSessionPin && !d.ram.hasSessionSopin then
    .error swSecurityStatusNotSatisfied
  else if p1 = 0 then
    if p2 ≠ 0 then .error swIncorrectP1P2 else freeSlot d (List.range (pkaSlots d).toNat)
  else if !hsmOption d hsmOptReplacePka then
    .error swConditionsNotSatisfied
  else if p2 ≥ pkaSlots d then
    .error swIncorrectP1P2
  else if (d.read (.puk p2.toNat)).isNone then
    .error swMemoryFailure
  else
    .ok p2.toNat

/-- `cmd_puk_auth`, when it is given a key: what is written. -/
def pukAuthStore (p1 : UInt8) (i : ℕ) (key : Bytes) : HsmProg Unit := do
  let d ← getState
  (if p1 = 0 then
    let record := fileData d .pukaut
    hsmFilePutDataIgnoring .pukaut (record.set 1 (record.getD 1 0 - 1))
  else pure ())
  hsmFilePutDataIgnoring (.puk i) key

/-- The end of `cmd_puk_auth`: the status word, and what is answered. -/
def pukAuthAnswer (p1 p2 : UInt8) : UInt16 × Bytes :=
  if p1 = 2 then
    if p2 ≥ pkaSlots d ∨ (d.read (.puk p2.toNat)).isNone then (swIncorrectP1P2, [])
    else if !hsmFileHasData d (.puk p2.toNat) then (swReferenceNotFound, [])
    else (swOk + (d.ram.pukStatus.getD p2.toNat 0).toUInt16, C.cvcGetChr (fileData d (.puk p2.toNat)))
  else
    (swOk, (fileData d .pukaut).take 3 ++ [(d.ram.pukStatus.take (pkaSlots d).toNat).sum])

/-- `cmd_puk_auth`: a key for the authentication is stored, or the state of it asked for. -/
def cmdPukAuth (p1 p2 : UInt8) (data : Bytes) : HsmProg (UInt16 × Bytes) := do
  let d ← getState
  if !hsmFileHasData d .pukaut then
    return (if data ≠ [] then swFileNotFound else swIncorrectP1P2, [])
  else if data = [] then
    return pukAuthAnswer C d p1 p2
  else
    match pukAuthSlot d p1 p2 with
    | .error sw => return (sw, [])
    | .ok i => do
      pukAuthStore p1 i data
      return pukAuthAnswer C (← getState) p1 p2

/-- `init_sc_hsm`, which a selection of the application calls. -/
def initScHsm : HsmAuth :=
  { (s.setRam fun ram ↦
      { ram with
        hasSessionPin := false
        hasSessionSopin := false
        isUserAuthenticated := false
        pukStatus := .replicate maxPuk 0
        mkekMask := none }) with
    challenge := none
    efPukAut := none
    session := [] }

/-! ### Runs -/

def HsmPinCommand.ChecksPin : HsmPinCommand → Prop
  | initializeHsm _ => False
  | _ => True

/-- What happens. `faults` is what the environment does to the writes of each file. -/
inductive HsmAuthEvent where
  /-- VERIFY, CHANGE REFERENCE DATA or RESET RETRY COUNTER. -/
  | pin (c : HsmPinCommand) (h : c.ChecksPin) (faults : HsmFile → List Outcome)
  /-- GET CHALLENGE. -/
  | challenge (ne : ℕ)
  /-- MANAGE SECURITY ENVIRONMENT. -/
  | mse (p1 p2 : UInt8) (data : Bytes)
  | externalAuthenticate (p1 p2 : UInt8) (data : Bytes)
  /-- The registration and the replacement of keys. -/
  | pukAuth (p1 p2 : UInt8) (data : Bytes) (faults : HsmFile → List Outcome)
  /-- A selection of the application. -/
  | select (faults : HsmFile → List Outcome)
  /-- A file reaches the flash. -/
  | flush (f : HsmFile)
  /-- The power is lost, unless it is already, and comes back: of each file what was `keep` contents
  back is found. -/
  | reboot (keep : HsmFile → ℕ) (faults : HsmFile → List Outcome)

/-- What is noted of a command that checks a PIN. -/
def pinNotes (c : HsmPinCommand) : List HsmAuthNote :=
  match c.submission d with
  | none => []
  | some (pin, value) =>
    if hsmFileHasData d pin.file then
      [.presented pin (pinMatches P (fileData d pin.file) value = some true)]
    else
      []

/-- What happens to the device while there is power. -/
def HsmAuthEvent.perform :
    HsmAuthEvent → HsmAuth
  | pin c _ faults =>
    { s with device := runHsm (c.run P) { s.device with faults := faults } }.note
      (pinNotes P s.device c)
  | challenge ne => (hsmCmdChallenge C ne s).2
  | mse p1 p2 data => (hsmCmdMse C p1 p2 data s).2
  | externalAuthenticate p1 p2 data => (cmdExternalAuthenticate C p1 p2 data s).2
  | pukAuth p1 p2 data faults =>
    { s with device := runHsm (cmdPukAuth C p1 p2 data) { s.device with faults := faults } }
  | select faults =>
    initScHsm { s with device := runHsm scanFiles { s.device with faults := faults } }
  | flush f => { s with device := { s.device with files := s.device.files.flush f } }
  | reboot .. => s

/-- What happens to the device. While the power is lost nothing does but that it comes back. -/
def HsmAuthEvent.step (event : HsmAuthEvent) :
    HsmAuth :=
  match event with
  | reboot keep faults => initScHsm { s with
      device := runHsm scanFiles ⟨s.device.files.powerCut keep, faults, s.device.ram.reboot⟩ }
  | event => if s.device.ram.off then s else event.perform P C s

/-- The device after a run. -/
def hsmAuthRun (events : List HsmAuthEvent) :
    HsmAuth :=
  events.foldl (HsmAuthEvent.step P C) s

end PicoAll
