import PicoAll.Lib.Outcomes
import PicoAll.Piv.PinPolicy

/-!
# The management key

The management key and its metadata are two files, and each of SET MANAGEMENT KEY, MOVE KEY, RESET and
the first set-up writes both, one after the other. Here are these commands as programs whose writes
can fail or be cut short, and the runs of the applet with what it means to the management status: which
challenge was issued last in the session, and whether it was accepted.
-/

namespace PicoAll.Piv

open FaultProgram

/-! ### The files -/

/-- The management key, its metadata, and whether the applet has been set up. -/
structure MgmDisk where
  mgm : Option MgmFile
  metadata : Bytes
  /-- `EF_DEK_PWPIV` has data. -/
  dekPwpiv : Bool
  deriving DecidableEq, Repr

abbrev MgmProg := Prog MgmDisk UInt16

/-- The container takes the new key or keeps the one it has. -/
def putManagementKey (key : Bytes) : MgmProg Unit :=
  perform swMemoryFailure fun disk ↦ { disk with mgm := some (.marker (some key)) }

def putMgmMetadata (metadata : Bytes) : MgmProg Unit :=
  perform swMemoryFailure fun disk ↦ { disk with metadata := metadata }

def deleteMgmMetadata : MgmProg Unit :=
  perform swMemoryFailure fun disk ↦ { disk with metadata := [] }

/-- Writes of other files. -/
def writeOthers (sw : UInt16) : MgmProg Unit :=
  perform sw id

/-! ### SET MANAGEMENT KEY -/

/-- What is set. -/
structure SetMgmkeyRequest where
  algo : UInt8
  touch : UInt8
  key : Bytes
  deriving DecidableEq, Repr

abbrev touchpolicyAlways : UInt8 := 2

variable (ram : PivRam)

/-- The checks of the command. -/
def setMgmkeyRequest (p1 p2 : UInt8) (data : Bytes) :
    Except UInt16 SetMgmkeyRequest :=
  let pinlen := data.getD 2 0
  if p1 ≠ 0xff then .error swIncorrectP1P2
  else if data.length < 5 then .error swWrongLength
  else if !ram.hasMgm then .error swSecurityStatusNotSatisfied
  else if p2 ≠ 0xff ∧ p2 ≠ 0xfe then .error swIncorrectP1P2
  else if data.getD 1 0 ≠ efPivKeyCardmgm ∨ mgmKeyLength (data.getD 0 0) ≠ some pinlen.toNat then
    .error swWrongData
  else if data.length ≠ pinlen.toNat + 3 then .error swWrongLength
  else
    .ok ⟨data.getD 0 0, if p2 = 0xff then touchpolicyNever else touchpolicyAlways, data.drop 3⟩

/-- The new metadata; the last byte is the one that was there, or the one behind it in the flash. -/
def SetMgmkeyRequest.metadata (request : SetMgmkeyRequest) (old : Bytes) (behind : UInt8) : Bytes :=
  [request.algo, pinpolicyDefault, request.touch, old.getD 3 behind]

def cmdSetMgmkey (p1 p2 : UInt8) (data : Bytes) (behind : UInt8) : MgmProg Unit := do
  let request ← liftExcept (setMgmkeyRequest ram p1 p2 data)
  putManagementKey request.key
  let disk ← getState
  if disk.metadata = [] then fail swReferenceNotFound
  else putMgmMetadata (request.metadata disk.metadata behind)

/-! ### MOVE KEY -/

def isKey (x : UInt8) : Bool :=
  (efPivKeyAuthentication ≤ x ∧ x ≤ efPivKeyCardauth) ∨ isRetired x

/-- The key, where a move finds it. -/
def MgmFile.movable : MgmFile → Option Bytes
  | marker key => key
  | plain key => if key.length ≤ 512 then some key else none

/-- The management key goes to another slot, or nowhere. -/
def copyManagementKey (target : UInt8) : MgmProg Unit :=
  if target = 0xff then pure ()
  else do
    let disk ← getState
    if disk.mgm.bind MgmFile.movable = none then fail swExecError else writeOthers swMemoryFailure

/-- The container loses its content before its marker. -/
def deleteManagementKey : MgmProg Unit := do
  let disk ← getState
  match disk.mgm with
  | some (.marker _) => do
    perform swExecError fun disk ↦ { disk with mgm := some (.marker none) }
    perform swExecError fun disk ↦ { disk with mgm := none }
  | _ => perform swExecError fun disk ↦ { disk with mgm := none }

/-- `cmd_move_key` from the management key. -/
def cmdMoveManagementKey (target : UInt8) : MgmProg Unit :=
  if !ram.hasMgm then fail swSecurityStatusNotSatisfied
  else if (!isKey target ∧ target ≠ 0xff) ∨ target = efPivKeyCardmgm then fail swIncorrectP1P2
  else do
    copyManagementKey target
    deleteMgmMetadata
    deleteManagementKey

/-! ### RESET and the first set-up -/

/-- `cmd_reset`, up to `init_piv`: of each file the metadata go first. -/
def cmdPivReset (blocked : Bool) : MgmProg Unit :=
  if !blocked then fail swIncorrectParams
  else do
    writeOthers swExecError
    let kept ← onError (do deleteMgmMetadata; pure false) fun _ ↦ pure true
    perform swExecError fun disk ↦ { disk with mgm := none }
    if kept then fail swExecError
    else do
      writeOthers swExecError
      perform swExecError fun disk ↦ { disk with dekPwpiv := false }
      writeOthers swExecError

def pivManagementKeyDefault : Bytes :=
  [1, 2, 3, 4, 5, 6, 7, 8, 1, 2, 3, 4, 5, 6, 7, 8, 1, 2, 3, 4, 5, 6, 7, 8]

/-- `scan_files_piv`, which looks at no result. -/
def scanFilesPiv : MgmProg Unit := do
  let disk ← getState
  if disk.dekPwpiv then pure ()
  else do
    onError (perform swMemoryFailure fun disk ↦ { disk with dekPwpiv := true }) fun _ ↦ pure ()
    onError (putManagementKey pivManagementKeyDefault) fun _ ↦ pure ()
    onError (putMgmMetadata [pivAlgoAes192, pinpolicyDefault, touchpolicyNever]) fun _ ↦ pure ()

/-! ### Runs -/

/-- A challenge that was issued. -/
structure MgmIssue where
  kind : MgmChallengeKind
  algo : UInt8
  challenge : Bytes
  deriving DecidableEq, Repr

structure MgmState (K : Type) where
  ram : PivRam
  disk : MgmDisk
  keys : UInt8 → Option K
  slotMetadata : UInt8 → Bytes
  /-- The last challenge of the session, unless it was accepted. -/
  issued : Option MgmIssue

variable {K : Type} (s : MgmState K)

/-- What GENERAL AUTHENTICATE reads. -/
def MgmState.store : PivStore K where
  mgm := s.disk.mgm
  keys := s.keys
  metadata keyRef := if keyRef = efPivKeyCardmgm then s.disk.metadata else s.slotMetadata keyRef

/-- What happens to the management key. -/
inductive MgmEvent (K : Type) where
  | authenticate (env : AuthEnv) (p1 p2 : UInt8) (data : Bytes)
  /-- SET MANAGEMENT KEY, with the byte behind the metadata. -/
  | setMgmkey (p1 p2 : UInt8) (data : Bytes) (behind : UInt8) (os : List Outcome)
  /-- MOVE KEY of the management key. -/
  | move (target : UInt8) (keys : UInt8 → Option K) (slotMetadata : UInt8 → Bytes) (os : List Outcome)
  /-- RESET; the second outcomes are those of the set-up that follows where it succeeds. -/
  | reset (blocked : Bool) (keys : UInt8 → Option K) (slotMetadata : UInt8 → Bytes)
      (os os' : List Outcome)
  /-- Another command, which may fail: the other slots may be anything afterwards. All but SELECT and
  GET METADATA of the management key end a challenge. -/
  | other (ends hasPwpiv : Bool) (keys : UInt8 → Option K) (slotMetadata : UInt8 → Bytes)
  /-- The applet is selected or left, or the device is reset. -/
  | session (os : List Outcome)

/-- The last challenge after GENERAL AUTHENTICATE: one is issued, or it is accepted. -/
def MgmState.issuedAfter (keyRef : UInt8) (reply : AuthReply) : Option MgmIssue :=
  if keyRef = efPivKeyCardmgm ∧ reply.sw = swOk then
    if reply.ram.mgmChallengeKind = .none then none
    else some ⟨reply.ram.mgmChallengeKind, reply.ram.mgmChallengeAlgo,
      reply.ram.mgmChallenge.take (challengeLength reply.ram.mgmChallengeAlgo)⟩
  else s.issued

/-- The applet starts. -/
def MgmState.init (os : List Outcome) : MgmState K :=
  { s with ram := pivRamClosed, disk := scanFilesPiv.final s.disk os, issued := none }

/-- A command that writes: it ends a challenge, and the session where the power is lost. -/
def MgmState.run (m : MgmProg Unit) (os : List Outcome) : MgmState K :=
  match m.result s.disk os with
  | .error .cut => { s with ram := pivRamClosed, disk := m.final s.disk os, issued := none }
  | _ => { s with ram := clearMgmChallenge s.ram, disk := m.final s.disk os }

/-- What an event does. -/
def MgmEvent.apply (C : PivCrypto) (s : MgmState K) : MgmEvent K → MgmState K
  | .authenticate env p1 p2 data =>
    let reply := cmdPivAuthenticate C env s.ram s.store p1 p2 data
    { s with ram := reply.ram, issued := s.issuedAfter p2 reply }
  | .setMgmkey p1 p2 data behind os => s.run (cmdSetMgmkey s.ram p1 p2 data behind) os
  | .move target keys slotMetadata os =>
    { s.run (cmdMoveManagementKey s.ram target) os with keys := keys, slotMetadata := slotMetadata }
  | .reset blocked keys slotMetadata os os' =>
    let s' := { s.run (cmdPivReset blocked) os with keys := keys, slotMetadata := slotMetadata }
    match (cmdPivReset blocked).result s.disk os with
    | .ok () => s'.init os'
    | .error _ => s'
  | .other ends hasPwpiv keys slotMetadata =>
    { s with
      ram := { if ends then clearMgmChallenge s.ram else s.ram with hasPwpiv := hasPwpiv }
      keys := keys
      slotMetadata := slotMetadata }
  | .session os => s.init os

/-- The states of a run, each with the event that comes next. -/
def mgmSteps (C : PivCrypto) : MgmState K → List (MgmEvent K) → List (MgmState K × MgmEvent K)
  | _, [] => []
  | s, event :: events => (s, event) :: mgmSteps C (event.apply C s) events

/-- A device on which the applet never started. -/
def mgmStateFresh (keys : UInt8 → Option K) (slotMetadata : UInt8 → Bytes) : MgmState K :=
  ⟨pivRamClosed, ⟨none, [], false⟩, keys, slotMetadata, none⟩

end PicoAll.Piv
