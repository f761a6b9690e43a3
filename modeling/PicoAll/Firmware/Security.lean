import PicoAll.Lib.Plan
import PicoAll.Otp.Root

/-!
# The provisioning of Secure Boot

`firmware.py security` programs the boot rows of a board in four stages: `load-key` registers a
signing key in one of four slots, `harden` and `enable` set the critical flags, `lock` revokes the
other slots and makes the boot pages read-only. Each stage is planned from the rows as they are, and
the plan is a list of writes; a write may leave part of its bits, and the stage ends there.

A read is taken not to fail but for a row that cannot be decoded; what else can keep a stage from
being applied (the check of the image, of the storage, the confirmations) is not modelled.
-/

namespace PicoAll.Firmware

open OneTime Otp

/-! ### The rows -/

def critRows : List ℕ :=
  List.range' 0x40 8

def flagsRows : List ℕ :=
  [0x4b, 0x4c, 0x4d]

def bootLocks : List ℕ :=
  [0xf83, 0xf85]

/-- Where the hardware access keys of the boot pages are chosen. -/
def keyLockRows : List ℕ :=
  [0xf82, 0xf84]

/-- Debug disabled, glitch detector enabled, sensitivity 3. -/
def hardenBits : Row :=
  0x74

/-- Read-only for all, three copies. -/
def bootLock : Row :=
  0x151515

/-- The row of a word of the fingerprint in a slot. -/
def slotRow (slot i : ℕ) : ℕ :=
  0x80 + 16 * slot + i

/-- `1 << bit`. -/
abbrev bitValue (bit : ℕ) : Row :=
  BitVec.twoPow 24 bit

/-- The bits that are in at least `threshold` of the values. -/
def vote (values : List Row) (threshold : ℕ) : Row :=
  BitVec.ofFnLE fun bit : Fin 24 ↦ decide (threshold ≤ values.countP fun value ↦ value.getLsbD bit)

/-- What the three copies in a lock say. -/
def effectiveLock (old : Row) : Row :=
  vote [old &&& 255, old >>> 8 &&& 255, old >>> 16 &&& 255] 2

/-! ### What is read -/

/-- The two bytes of a word, the low one first. -/
def wordBytes (word : BitVec 16) : Bytes :=
  [UInt8.ofNat word.toNat, UInt8.ofNat (word.toNat / 256)]

/-- The fingerprint from the words that can be decoded, if all can. -/
def readWords (E : Ecc 24) (rows : Rows) : List ℕ → Option Bytes
  | [] => some []
  | row :: rest => do
    let word ← E.decode (rows row)
    let bytes ← readWords E rows rest
    return wordBytes word ++ bytes

def slotRows (slot : ℕ) : List ℕ :=
  (List.range 16).map (slotRow slot)

/-- What the stages go by: the rows as they are read, and the votes. -/
structure BootState where
  critical : List Row
  flags : List Row
  locks : List Row
  keyLocks : List Row
  crit : Row
  valid : Row
  revoked : Row
  /-- No fingerprint for a slot that cannot be read. -/
  fps : List (Option Bytes)
  deriving DecidableEq

variable (E : Ecc 24) (rows : Rows) (state : BootState) (fp : Bytes)

/-- `boot_state`. -/
def bootState : BootState :=
  let critical := critRows.map rows
  let flags := flagsRows.map rows
  let flag := vote flags 2
  { critical := critical
    flags := flags
    locks := bootLocks.map rows
    keyLocks := keyLockRows.map rows
    crit := vote critical 3
    valid := flag &&& 15
    revoked := flag >>> 8 &&& 15
    fps := (List.range 4).map fun slot ↦ readWords E rows (slotRows slot) }

/-! ### The plan of a stage -/

inductive SecurityAction where
  | loadKey
  | harden
  | enable
  | lock
  deriving DecidableEq, Repr

/-- Why a stage refuses. -/
inductive FirmwareError where
  | invalidKeyOrSlot
  | existingPolicy
  | slotRevoked
  /-- A row that is programmed and cannot be decoded. -/
  | unreadableRow (row : ℕ)
  | slotTaken
  | noSingleMatch
  | notHardened
  | loadNotFinished
  | notEnabled
  | severalTrusted
  | incompatibleLocks
  | lockedPage
  deriving DecidableEq, Repr

/-- A row to be written, raw or with its error correction. -/
inductive PlannedWrite where
  | raw (row : ℕ) (value : Row)
  | ecc (row : ℕ) (value : BitVec 16)
  deriving DecidableEq, Repr

def PlannedWrite.row : PlannedWrite → ℕ
  | raw row _ => row
  | ecc row _ => row

/-- `raw`: a row that has the bits already is not written. -/
def programBits (row : ℕ) (old bits : Row) : List PlannedWrite :=
  if old ||| bits ≠ old then [.raw row (old ||| bits)] else []

/-- The same bits for each copy. -/
def programCopies (rows : List ℕ) (olds : List Row) (bits : Row) : List PlannedWrite :=
  (rows.zip olds).flatMap fun copy ↦ programBits copy.1 copy.2 bits

/-- The slots whose key is voted valid and not voted revoked. -/
def BootState.trusted : Row :=
  state.valid &&& ~~~state.revoked &&& 15

/-- The trusted slots that hold a fingerprint. -/
def BootState.matches : List ℕ :=
  (List.range 4).filter fun i ↦
    state.fps.getD i none = some fp ∧ state.trusted &&& bitValue i ≠ 0

/-- A word of the fingerprint that is to be loaded. -/
def wantedWord (i : ℕ) : BitVec 16 :=
  BitVec.ofNat 16 ((fp.getD (2 * i) 0).toNat + 256 * (fp.getD (2 * i + 1) 0).toNat)

def planWord (row : ℕ) (wanted : BitVec 16) :
    Except FirmwareError (List PlannedWrite) :=
  if rows row ≠ 0 then
    match E.decode (rows row) with
    | none => .error (.unreadableRow row)
    | some word => if word ≠ wanted then .error .slotTaken else .ok []
  else .ok (if wanted ≠ 0 then [.ecc row wanted] else [])

def planWords (E : Ecc 24) (rows : Rows) (fp : Bytes) (slot : ℕ) :
    List ℕ → Except FirmwareError (List PlannedWrite)
  | [] => .ok []
  | i :: is => do
    let write ← planWord E rows (slotRow slot i) (wantedWord fp i)
    let rest ← planWords E rows fp slot is
    return write ++ rest

/-- The slot is called valid after all words of the fingerprint. -/
def planLoadKey (slot : ℕ) :
    Except FirmwareError (List PlannedWrite) :=
  if state.flags.any fun value ↦ value &&& bitValue (slot + 8) ≠ 0 then .error .slotRevoked
  else do
    let words ← planWords E rows fp slot (List.range 16)
    return words ++ programCopies flagsRows state.flags (bitValue slot)

def planEnable (found : ℕ) : Except FirmwareError (List PlannedWrite) :=
  if state.critical.any fun value ↦ value &&& hardenBits ≠ hardenBits then .error .notHardened
  else if state.flags.any fun value ↦ value &&& bitValue found = 0 then .error .loadNotFinished
  else .ok (programCopies critRows state.critical 1)

/-- The locks of the boot pages. Two copies of three are enough. -/
def planLockRows : List (ℕ × Row) → Except FirmwareError (List PlannedWrite)
  | [] => .ok []
  | (row, old) :: rest =>
    if old &&& ~~~bootLock ≠ 0 then .error .incompatibleLocks
    else do
      let writes ← planLockRows rest
      return (if effectiveLock old ≠ 0x15 then programBits row old bootLock else []) ++ writes

def planLock (found : ℕ) : Except FirmwareError (List PlannedWrite) :=
  if state.critical.any fun value ↦ value &&& 0x75 ≠ 0x75 then .error .notEnabled
  else if state.trusted ≠ bitValue found then .error .severalTrusted
  else do
    let locks ← planLockRows (bootLocks.zip state.locks)
    return programCopies flagsRows state.flags ((15 ^^^ state.trusted) <<< 8) ++ locks

/-- The stages that need a key that was loaded. -/
def planMatched (stage : ℕ → Except FirmwareError (List PlannedWrite)) :
    Except FirmwareError (List PlannedWrite) :=
  match state.matches fp with
  | [found] => stage found
  | _ => .error .noSingleMatch

def planAction (action : SecurityAction) (fp : Bytes) (slot : ℕ) :
    Except FirmwareError (List PlannedWrite) :=
  match action with
  | .loadKey => planLoadKey E rows state fp slot
  | .harden => planMatched state fp fun _ ↦ .ok (programCopies critRows state.critical hardenBits)
  | .enable => planMatched state fp (planEnable state)
  | .lock => planMatched state fp (planLock state)

/-- The lock of the page of a row, among the two. -/
def lockIndex (row : ℕ) : ℕ :=
  if (0x80 ≤ row ∧ row < 0xc0) ∨ row = 0xf85 then 1 else 0

/-- A row that BOOTSEL cannot modify. -/
def BootState.pageLocked (row : ℕ) : Bool :=
  effectiveLock (state.locks.getD (lockIndex row) 0) &&& 0x30 ≠ 0

/-- `security_plan`: the writes of a stage, if it is not refused. -/
def securityPlan (action : SecurityAction) (fp : Bytes) (slot : ℕ) :
    Except FirmwareError (List PlannedWrite) :=
  let state := bootState E rows
  if ¬ slot < 4 ∨ fp.length ≠ 32 ∨ fp.all (· = 0) then .error .invalidKeyOrSlot
  else if state.keyLocks.any (· ≠ 0) then .error .existingPolicy
  else do
    let writes ← planAction E rows state action fp slot
    if writes.any fun write ↦ state.pageLocked write.row then .error .lockedPage
    else .ok writes

/-! ### Stages -/

/-- `write`, and whether what was written is read back. -/
def PlannedWrite.burn (E : Ecc 24) (rows : Rows) (write : PlannedWrite) (burn : Burn 24) :
    Rows × Bool :=
  match write with
  | .raw row value =>
    let new := burn.result (fun _ ↦ false) (rows row) value
    (Function.update rows row new, burn = .done ∧ new = value)
  | .ecc row value =>
    let new := burn.result E.spoils (rows row) (E.encode value)
    (Function.update rows row new, burn = .done ∧ E.decode new = some value)

/-- A stage that is applied, and what becomes of its writes. -/
structure SecurityStage where
  action : SecurityAction
  fp : Bytes
  slot : ℕ
  burns : List (Burn 24)
  deriving DecidableEq

def SecurityStage.plan (stage : SecurityStage) :
    Except FirmwareError (List PlannedWrite) :=
  securityPlan E rows stage.action stage.fp stage.slot

/-- The rows after the stage. -/
def SecurityStage.apply (stage : SecurityStage) : Rows :=
  match stage.plan E rows with
  | .error _ => rows
  | .ok writes => (Plan.run (PlannedWrite.burn E) rows writes stage.burns).1

def securityRun (stages : List SecurityStage) : Rows :=
  stages.foldl (SecurityStage.apply E) rows

end PicoAll.Firmware
