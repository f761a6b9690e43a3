import PicoAll.Fs.FileApi
import PicoAll.Hsm.Pin
import PicoAll.Lib.Machine

/-!
# Key domains

`cmd_key_domain.c`, and the DKEK of a key domain in `kek.c`. `EF_KEY_DOMAIN` has two bytes for each
domain, the number of shares that its DKEK is made of and the number of those that have been imported.
The file of the DKEK has the sum of the shares so far, which is 32 bytes, and at the end the DKEK sealed
under the master key. Without a session it cannot be sealed; then `hsm_check_pin` seals it, if it is
still the one that is pending.

`load_dkek` tells what is in the file from its length: 32 bytes are taken for an older record, which is
deciphered, and stored again if the domain has all its shares.
-/

namespace PicoAll

open FaultProgram

abbrev maxKeyDomains : ℕ := 16

/-! ### Files and memory -/

/-- The files. -/
inductive DkekFile where
  /-- `EF_KEY_DOMAIN`. -/
  | keyDomain
  /-- `EF_DKEK` and the files after it. -/
  | dkek (i : Fin maxKeyDomains)
  /-- `EF_XKEK` and the files after it. -/
  | xkek (i : Fin maxKeyDomains)
  deriving DecidableEq

/-- The memory. -/
structure DkekRam where
  isUserAuthenticated : Bool
  hasSessionPin : Bool
  hasSessionSopin : Bool
  /-- The copy of the master key that the session reads can be opened. -/
  mkekOpens : Bool
  pendingSaveDkek : Option (Fin maxKeyDomains)
  /-- The power has been lost. -/
  off : Bool
  deriving DecidableEq

abbrev DkekDevice := Device DkekFile (Option Bytes) DkekRam

/-- Why a command ends. -/
inductive DkekError where
  /-- A function returned an error. -/
  | status (s : Status)
  /-- A status word other than `SW_OK`. -/
  | sw (w : UInt16)
  deriving DecidableEq

/-- Programs over the device. -/
abbrev DkekProg (α : Type) := Prog DkekDevice DkekError α

/-- Cryptography. What is drawn at random in it makes no difference here. -/
structure DkekCrypto where
  /-- `encrypt_with_aad` under the master key. -/
  encrypt : Bytes → Bytes
  /-- `decrypt_with_aad`. -/
  decrypt : Bytes → Option Bytes
  /-- `aes_decrypt_cfb_256` under the master key. -/
  decryptCfb : Bytes → Bytes
  /-- The first bytes of a hash. -/
  kcv : Bytes → Bytes
  /-- The UID of the key domain that a membership is of, when it is signed for the domain. -/
  membershipUid : Bytes → Except UInt16 (Option Bytes)
  length_encrypt : ∀ key, (encrypt key).length = 12 + key.length + 16
  decrypt_encrypt : ∀ key, decrypt (encrypt key) = some key

/-! ### The master key -/

/-- `load_mkek`, as far as it says whether there is a master key. -/
def DkekRam.loadMkek (ram : DkekRam) : Except DkekError Unit :=
  if !ram.hasSessionPin && !ram.hasSessionSopin then .error (.status .noLogin)
  else if ram.mkekOpens then .ok ()
  else .error (.status .execError)

/-- `MKEK_OBJECT_FORMAT_VERSION` and `mkek_object_magic`. -/
def mkekObjectHeader : Bytes :=
  [0x01, 0xf0, 0x4d, 0x4b, 0x34]

variable (C : DkekCrypto)

/-- The record of `mkek_store_file`. -/
def mkekObject (key : Bytes) : Bytes :=
  mkekObjectHeader ++ C.encrypt key

/-- What `mkek_load_file` looks at. -/
def isMkekObject (record : Bytes) : Bool :=
  decide (5 + 12 + 16 < record.length) && decide (record.take 5 = mkekObjectHeader)

variable (d : DkekDevice)

def dkekFileData (f : DkekFile) : Bytes :=
  (d.read f).getD []

def storeDkekKey (i : Fin maxKeyDomains) (key : Bytes) : DkekProg Unit := do
  let d ← getState
  if (d.read (.dkek i)).isNone then FaultProgram.fail (.status .fileNotFound)
  else do
    FaultProgram.liftExcept d.ram.loadMkek
    put (.status .noMemory) (.dkek i) (some (mkekObject C key))

/-- `save_dkek_key`, of what there is in the file. -/
def saveDkekKey (i : Fin maxKeyDomains) : DkekProg Unit := do
  let d ← getState
  if (d.read (.dkek i)).isNone then FaultProgram.fail (.status .fileNotFound)
  else storeDkekKey C i ((dkekFileData d (.dkek i)).take 32)

/-- The state of a domain: how many shares there are to be, and how many there are. -/
def domainState (i : Fin maxKeyDomains) : Option (UInt8 × UInt8) :=
  match (dkekFileData d .keyDomain)[2 * i.val]?, (dkekFileData d .keyDomain)[2 * i.val + 1]? with
  | some dkeks, some current => some (dkeks, current)
  | _, _ => none

def dkekIsComplete (i : Fin maxKeyDomains) : Bool :=
  match domainState d i with
  | some (dkeks, current) =>
    decide (dkeks ≠ 0) && decide (dkeks ≠ 0xff) && decide (dkeks ≤ current)
  | none => false

/-- `mkek_load_file`, of a DKEK: an older record is stored again. -/
def mkekLoadDkek (i : Fin maxKeyDomains) (record : Bytes) : DkekProg Bytes := do
  let d ← getState
  if UINT16_MAX < record.length then FaultProgram.fail (.status .wrongLength)
  else if 32 < (if isMkekObject record then record.length - (5 + 12 + 16) else record.length) then
    FaultProgram.fail (.status .wrongLength)
  else do
    FaultProgram.liftExcept d.ram.loadMkek
    if isMkekObject record then
      match C.decrypt (record.drop 5) with
      | none => FaultProgram.fail (.status .execError)
      | some key => return key
    else do
      put (.status .noMemory) (.dkek i) (some (mkekObject C (C.decryptCfb record)))
      return C.decryptCfb record

/-- `load_dkek`, the formats being told apart by their length. -/
def loadDkek (i : Fin maxKeyDomains) : DkekProg Bytes := do
  let d ← getState
  let record := dkekFileData d (.dkek i)
  if record = [] then FaultProgram.fail (.status .fileNotFound)
  else if record.length = 32 then do
    FaultProgram.liftExcept d.ram.loadMkek
    (if dkekIsComplete d i then storeDkekKey C i (C.decryptCfb record) else pure ())
    return C.decryptCfb record
  else
    onError (do
        let key ← mkekLoadDkek C i record
        if key.length = 32 then return key else FaultProgram.fail (.status .wrongData))
      fun _ ↦ FaultProgram.fail (.status .wrongData)

def dkekKcv (i : Fin maxKeyDomains) : DkekProg Bytes := do
  match ← resultOf (loadDkek C i) with
  | .ok key => return C.kcv key
  | .error _ => return .replicate 8 0

/-! ### Shares -/

/-- The sum of two strings of bytes. -/
def xorBytes (a b : Bytes) : Bytes :=
  a.zipWith (· ^^^ ·) b

/-- What a share is added to: a file of another length counts for nothing. -/
def accumulatedShares (record : Bytes) : Bytes :=
  if record.length = 32 then record else .replicate 32 0

def importDkekShare (i : Fin maxKeyDomains) (share : Bytes) : DkekProg Unit := do
  let d ← getState
  if (d.read (.dkek i)).isNone then FaultProgram.fail (.status .fileNotFound)
  else
    putIgnoring (.status .noMemory) (.dkek i)
      (some (xorBytes (accumulatedShares (dkekFileData d (.dkek i))) (share.take 32)))

/-! ### The command -/

/-- What the command finds beside the key domains and their keys. -/
structure KeyDomainEnv where
  /-- There is a key in the domain. -/
  occupied : Bool
  /-- There is room for another file. -/
  room : Bool
  deriving DecidableEq

abbrev swFileExists : UInt16 := 0x6a89

/-- The end of `cmd_key_domain`. -/
def keyDomainResponse (i : Fin maxKeyDomains) (dkeks current : UInt8) :
    DkekProg Bytes := do
  let kcv ← dkekKcv C i
  let d ← getState
  return [dkeks, if current < dkeks then dkeks - current else 0] ++ kcv ++ dkekFileData d (.xkek i)

/-- `file_new`: a file that is not there gets an entry, without data. -/
def dkekFileNew (f : DkekFile) (room : Bool) : DkekProg Unit := do
  let d ← getState
  if (d.read f).isSome then return
  else if room then modifyState fun d ↦ { d with files := d.files.write f (some []) }
  else FaultProgram.fail (.sw swMemoryFailure)

/-- `file_search` and `file_delete`. -/
def dkekFileDelete (f : DkekFile) : DkekProg Unit := do
  let d ← getState
  if (d.read f).isSome then put (.sw swExecError) f none else return

/-- What `cmd_key_domain` does with all the shares: the DKEK is sealed, or it is pending, or the last
share is taken back. -/
def sealDkek (i : Fin maxKeyDomains) (share : Bytes) : DkekProg Unit := do
  match ← resultOf (saveDkekKey C i) with
  | .ok _ => return
  | .error e =>
    if e = .status .noLogin then
      modifyState (·.setRam fun ram ↦ { ram with pendingSaveDkek := some i })
    else do
      let _ ← resultOf (importDkekShare i share)
      FaultProgram.fail (.sw swFileNotFound)

/-- `cmd_key_domain` with `P1 = 0` and data. -/
def cmdImportShare (i : Fin maxKeyDomains) (dkeks current : UInt8) (share : Bytes)
    (env : KeyDomainEnv) : DkekProg Bytes := do
  dkekFileNew (.dkek i) env.room
  if share.length < 32 then FaultProgram.fail (.sw swWrongLength)
  else if current = dkeks then FaultProgram.fail (.sw swCommandNotAllowed)
  else do
    let _ ← resultOf (importDkekShare i share)
    (if dkeks ≤ current + 1 then sealDkek C i share else pure ())
    let d ← getState
    put (.sw swExecError) .keyDomain
      (some ((dkekFileData d .keyDomain).set (2 * i.val + 1) (current + 1)))
    keyDomainResponse C i dkeks (current + 1)

/-- `cmd_key_domain` with `P1 = 0` and no data. -/
def cmdDomainStatus (i : Fin maxKeyDomains) (dkeks current : UInt8) :
    DkekProg Bytes := do
  let d ← getState
  if current = 0xff ∧ dkekFileData d (.xkek i) = [] then FaultProgram.fail (.sw swReferenceNotFound)
  else keyDomainResponse C i dkeks current

/-- What setting up, deleting and setting back do to the state of a domain. -/
def changedDomain (p1 dkeks current : UInt8) (data : Bytes) (env : KeyDomainEnv) :
    Except DkekError (UInt8 × UInt8) :=
  if p1 = 1 then
    if data.length ≠ 1 then .error (.sw swWrongLength)
    else if dkeks ≠ 0xff ∨ current ≠ 0xff then .error (.sw swIncorrectP1P2)
    else .ok (data.headD 0, 0)
  else if p1 = 3 then
    if env.occupied then .error (.sw swFileExists)
    else if dkeks = 0xff ∧ current = 0xff then .error (.sw swIncorrectP1P2)
    else .ok (0xff, 0xff)
  else .ok (dkeks, 0)

/-- `cmd_key_domain` with `P1 = 1`, `3` and `4`. -/
def cmdChangeDomain (p1 : UInt8) (i : Fin maxKeyDomains) (dkeks current : UInt8) (data : Bytes)
    (env : KeyDomainEnv) : DkekProg Bytes := do
  let d ← getState
  let changed ← FaultProgram.liftExcept (changedDomain p1 dkeks current data env)
  put (.sw swExecError) .keyDomain
    (some (((dkekFileData d .keyDomain).set (2 * i.val) changed.1).set (2 * i.val + 1) changed.2))
  dkekFileDelete (.dkek i)
  (if p1 = 3 then do
    dkekFileDelete (.xkek i)
    FaultProgram.fail (.sw swReferenceNotFound)
  else keyDomainResponse C i changed.1 changed.2)

/-- `cmd_key_domain` with `P1 = 2`. -/
def cmdJoinDomain (i : Fin maxKeyDomains) (dkeks current : UInt8) (data : Bytes)
    (env : KeyDomainEnv) : DkekProg Bytes := do
  (if data = [] then pure ()
  else do
    let uid ← FaultProgram.liftExcept ((C.membershipUid data).mapError .sw)
    dkekFileNew (.xkek i) env.room
    (match uid with
    | some uid => putIgnoring (.status .noMemory) (.xkek i) (some uid)
    | none => pure ()))
  keyDomainResponse C i dkeks current

/-- `P1` asks for a change of the domain. -/
def mutatesDomain (p1 : UInt8) : Bool :=
  p1 = 1 || p1 = 3 || p1 = 4

/-- What is checked before, and the domain that the command is about, with its state. -/
def keyDomainTarget (p1 p2 : UInt8) :
    Except DkekError (Fin maxKeyDomains × UInt8 × UInt8) :=
  if mutatesDomain p1 && !(d.ram.hasSessionPin && d.ram.isUserAuthenticated) then
    .error (.sw swConditionsNotSatisfied)
  else if hp2 : p2.toNat < maxKeyDomains then
    match d.read .keyDomain with
    | none => .error (.sw swExecError)
    | some kdata =>
      if kdata = [] then .error (.sw swWrongP1P2)
      else if kdata.length ≤ 2 * p2.toNat then .error (.sw swIncorrectP1P2)
      else .ok (⟨p2.toNat, hp2⟩, kdata.getD (2 * p2.toNat) 0, kdata.getD (2 * p2.toNat + 1) 0)
  else .error (.sw swWrongP1P2)

/-- `cmd_key_domain`: shares are imported, domains set up, joined and deleted. -/
def cmdKeyDomain (p1 p2 : UInt8) (data : Bytes) (env : KeyDomainEnv) :
    DkekProg Bytes := do
  let d ← getState
  let target ← FaultProgram.liftExcept (keyDomainTarget d p1 p2)
  if p1 = 0 then
    if data ≠ [] then cmdImportShare C target.1 target.2.1 target.2.2 data env
    else cmdDomainStatus C target.1 target.2.1 target.2.2
  else if mutatesDomain p1 then cmdChangeDomain C p1 target.1 target.2.1 target.2.2 data env
  else if p1 = 2 then cmdJoinDomain C target.1 target.2.1 target.2.2 data env
  else FaultProgram.fail (.sw swIncorrectP1P2)

/-! ### Sessions -/

/-- `hsm_check_pin`, of a PIN that is right: it opens a session, and the DKEK that is pending is
sealed. -/
def loginDkek (pin : HsmPin) (isUserAuthenticated mkekOpens : Bool) :
    DkekProg Bytes := do
  modifyState (·.setRam fun ram ↦
    { ram with
      isUserAuthenticated := isUserAuthenticated
      hasSessionPin := pin = .user
      hasSessionSopin := pin = .so
      mkekOpens := mkekOpens })
  let d ← getState
  match d.ram.pendingSaveDkek with
  | none => return []
  | some i => do
    let _ ← resultOf (saveDkekKey C i)
    modifyState (·.setRam fun ram ↦ { ram with pendingSaveDkek := none })
    return []

/-- What the host asks for. -/
inductive DkekCommand where
  /-- `cmd_key_domain`. -/
  | keyDomain (p1 p2 : UInt8) (data : Bytes) (env : KeyDomainEnv)
  /-- A PIN that is right. -/
  | login (pin : HsmPin) (isUserAuthenticated mkekOpens : Bool)
  /-- The end of the sessions: a PIN that is wrong, or another application. -/
  | logout
  /-- A key is wrapped or unwrapped. -/
  | useDkek (i : Fin maxKeyDomains)

def DkekCommand.run : DkekCommand → DkekProg Bytes
  | keyDomain p1 p2 data env => cmdKeyDomain C p1 p2 data env
  | login pin isUserAuthenticated mkekOpens => loginDkek C pin isUserAuthenticated mkekOpens
  | logout => do
    modifyState (·.setRam fun ram ↦
      { ram with isUserAuthenticated := false, hasSessionPin := false, hasSessionSopin := false })
    return []
  | useDkek i => loadDkek C i

/-- The machine. When the power comes back there is no session, and nothing is pending. -/
def dkekMachine :
    Machine DkekFile (Option Bytes) DkekRam DkekError DkekCommand Bytes where
  command := DkekCommand.run C
  isOff := DkekRam.off
  powerDown ram := { ram with off := true }
  restart _ := ⟨false, false, false, false, none, false⟩

/-- What happens. -/
abbrev DkekEvent := MachineEvent DkekFile DkekCommand

/-! ### Results -/

/-- The answer is `SW_OK`. -/
def answeredOk : Option (Except DkekError Bytes) → Bool
  | some (.ok _) => true
  | _ => false

/-- The shares of a domain that have been accepted since it was last set back, when a command has been
answered. -/
def sharesAnswered (i : Fin maxKeyDomains) (shares : List Bytes) (p1 p2 : UInt8) (data : Bytes)
    (d : DkekDevice) (answer : Option (Except DkekError Bytes)) (after : DkekDevice) : List Bytes :=
  if p2.toNat ≠ i.val then shares
  else if p1 = 0 ∧ data ≠ [] then
    if answeredOk answer then shares ++ [data.take 32] else shares
  else if answer.isSome ∧ domainState after i ≠ domainState d i then []
  else shares

/-- The shares of a domain that have been accepted, after an event. -/
def sharesAfter (i : Fin maxKeyDomains) (shares : List Bytes) (d : DkekDevice) (event : DkekEvent) :
    List Bytes :=
  match event with
  | .command (.keyDomain p1 p2 data _) _ =>
    let after := (dkekMachine C).step d event
    sharesAnswered i shares p1 p2 data d after.1 after.2
  | _ => shares

/-- The shares of a domain that have been accepted, after a run. -/
def acceptedShares (C : DkekCrypto) (i : Fin maxKeyDomains) :
    List Bytes → DkekDevice → List DkekEvent → List Bytes
  | shares, _, [] => shares
  | shares, d, event :: events =>
    acceptedShares C i (sharesAfter C i shares d event) ((dkekMachine C).step d event).2 events

def sumShares (shares : List Bytes) : Bytes :=
  shares.foldl xorBytes (.replicate 32 0)

/-! ### What is to hold -/

/-- Every load gives this key, if there is a master key. -/
def DkekInForce (i : Fin maxKeyDomains) (key : Bytes) (d : DkekDevice) : Prop :=
  (d.ram.loadMkek = .ok () → (loadDkek C i).result d [] = .ok key) ∧
  (d.ram.loadMkek ≠ .ok () → ∀ key', (loadDkek C i).result d [] ≠ .ok key')

/-- The accumulated value and the number of the shares agree, and the DKEK is made of all of them. -/
def SharesAgree (i : Fin maxKeyDomains) (shares : List Bytes) (d : DkekDevice) :
    Prop :=
  ∃ dkeks current, domainState d i = some (dkeks, current) ∧
    if current < dkeks then
      current.toNat = shares.length ∧
        accumulatedShares (dkekFileData d (.dkek i)) = sumShares shares
    else
      current = dkeks ∧
        (shares ≠ [] → dkeks.toNat = shares.length ∧ DkekInForce C i (sumShares shares) d)

/-- An import that is refused leaves the accumulated value and the number of the shares, and any import
leaves a DKEK that is complete. -/
def ImportKept (i : Fin maxKeyDomains) (d : DkekDevice) (event : DkekEvent) : Prop :=
  ∀ p2 data env faults, event = .command (.keyDomain 0 p2 data env) faults → p2.toNat = i.val →
    data ≠ [] → d.ram.off = false →
    let after := (dkekMachine C).step d event
    (∀ e, after.1 = some (.error e) → domainState after.2 i = domainState d i ∧
      accumulatedShares (dkekFileData after.2 (.dkek i)) =
        accumulatedShares (dkekFileData d (.dkek i))) ∧
    ∀ dkeks, domainState d i = some (dkeks, dkeks) → domainState after.2 i = domainState d i ∧
      dkekFileData after.2 (.dkek i) = dkekFileData d (.dkek i)

/-! ### When it holds -/

/-- What is asked of the writes when the last share has been added: `sealing` and `undoing` are the next
writes of the DKEK, `counting` is that of the number of the shares. -/
def LastShareCareful (mkek : Except DkekError Unit) (sealing undoing counting : Outcome) : Prop :=
  match mkek with
  -- the DKEK is sealed and the share is counted, or it is not sealed and the share taken back
  | .ok _ => sealing = .ok ∧ counting = .ok ∨ sealing = .fail ∧ undoing ≠ .fail
  | .error (.status .noLogin) => counting = .ok
  | .error _ => sealing ≠ .fail

/-- What is asked of the writes when a share is imported into the domain `j`. -/
def ShareCareful (i j : Fin maxKeyDomains) (dkeks current : UInt8) (d : DkekDevice)
    (faults : DkekFile → List Outcome) : Prop :=
  let dkekOutcome (k : ℕ) := (faults (.dkek i)).getD k .ok
  let counting := (faults .keyDomain).getD 0 .ok
  if j = i then
    -- the share is added
    dkekOutcome 0 ≠ .fail ∧
    if dkeks ≤ current + 1 then
      LastShareCareful d.ram.loadMkek (dkekOutcome 1) (dkekOutcome 2) counting
    else counting = .ok
  else
    -- the DKEK of another domain does not become pending in the place of this one
    dkeks ≤ current + 1 → d.ram.loadMkek = .error (.status .noLogin) →
      d.ram.pendingSaveDkek ≠ some i

/-- What is asked of a command, about the domain `i`. -/
def DkekCommand.Careful (i : Fin maxKeyDomains) (d : DkekDevice)
    (faults : DkekFile → List Outcome) : DkekCommand → Prop
  | keyDomain p1 p2 data env =>
    ∀ j dkeks current, keyDomainTarget d p1 p2 = .ok (j, dkeks, current) →
      if p1 = 0 then
        data ≠ [] → ((d.read (.dkek j)).isSome ∨ env.room = true) → 32 ≤ data.length →
          current ≠ dkeks → ShareCareful i j dkeks current d faults
      else
        -- a domain that is set back loses the shares that it had
        mutatesDomain p1 → j = i →
          (∃ state, changedDomain p1 dkeks current data env = .ok state) →
          (faults .keyDomain).getD 0 .ok = .late ∨
            (faults .keyDomain).getD 0 .ok = .ok ∧ (faults (.dkek i)).getD 0 .ok = .fail →
          accumulatedShares (dkekFileData d (.dkek i)) = .replicate 32 0
  | login _ _ mkekOpens =>
    -- the DKEK that is pending is sealed
    d.ram.pendingSaveDkek = some i → mkekOpens = true ∧ (faults (.dkek i)).getD 0 .ok ≠ .fail
  | logout => True
  | useDkek _ => True

/-- What is asked of an event. `settled` is the device when the last command was answered. -/
def DkekCareful (i : Fin maxKeyDomains) (settled d : DkekDevice) :
    DkekEvent → Prop
  | .command c faults =>
    -- the power is lost in the middle of it
    ((dkekMachine C).step d (.command c faults)).1 = none ∨ c.Careful i d faults
  | .flush _ => True
  | .reboot keep =>
    -- both files are found as they were, and the DKEK was not pending
    let found : DkekDevice := { d with files := d.files.powerCut keep }
    domainState found i = domainState settled i ∧
      dkekFileData found (.dkek i) = dkekFileData settled (.dkek i) ∧
      settled.ram.pendingSaveDkek ≠ some i

/-- The device when the last command was answered, after an event. -/
def settledAfter (settled d : DkekDevice) (event : DkekEvent) : DkekDevice :=
  let after := (dkekMachine C).step d event
  match event with
  | .command .. => if after.1.isNone then settled else after.2
  | .flush _ => if d.ram.off then settled else after.2
  | .reboot _ => after.2

/-- What is asked of a run. -/
def CarefulDkekRun (C : DkekCrypto) (i : Fin maxKeyDomains) :
    DkekDevice → DkekDevice → List DkekEvent → Prop
  | _, _, [] => True
  | settled, d, event :: events => DkekCareful C i settled d event ∧
    CarefulDkekRun C i (settledAfter C settled d event) ((dkekMachine C).step d event).2 events

end PicoAll
