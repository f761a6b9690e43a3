import PicoAll.Lib.BigEndian
import PicoAll.Lib.OneTime

/-!
# The device root in one-time programmable memory

`otp_root_open` keeps 64 secret bytes in one of three pages of the one-time programmable memory. All
three are inspected before anything is written; the secret of an established root is taken, and on a
protected boot with blank storage a new one is made: the page is closed to the bootloader and to
non-secure code, the record is written and read back, and the page is made read-only.

The Boot ROM is a `RootHal`: for each call of a boot it says whether a read reports an error, what
the random source gives, and what becomes of a row that is programmed. Pages that were read-only at
the reset refuse to be programmed until the next one.
-/

namespace PicoAll.Otp

open FaultProgram OneTime

/-! ### Pages and rows -/

/-- A row of the memory: 24 bits. -/
abbrev Row := BitVec 24

/-- What the memory holds. -/
abbrev Rows := ℕ → Row

/-- `OTP_ROOT_FIRST_PAGE` to `OTP_ROOT_LAST_PAGE`. -/
def otpRootPages : List ℕ :=
  [56, 57, 58]

def otpRootBytes : ℕ :=
  100

def otpRootPrivate : Row :=
  0x3c3c3c

def otpRootReadOnly : Row :=
  0x3d3d3d

/-- The three copies of the bit that makes a page read-only for secure code. -/
def readOnlyBits : Row :=
  0x010101

def magic : Bytes :=
  [0x50, 0x41, 0x52, 1]

variable (P : RootParams) (page : ℕ)

def lockRow : ℕ :=
  0xf81 + 2 * page

/-- The first row of the data of a page. -/
def dataRow : ℕ :=
  page * 64

/-- The page that a row, or a lock, is of. -/
def pageFor (row : ℕ) : ℕ :=
  if 0xf80 ≤ row then (row - 0xf80) / 2 else row / 64

/-- What the three copies of a lock say. -/
def voted (lock : Row) : Row :=
  majority lock (lock >>> 8) (lock >>> 16) &&& 0xff

/-! ### The Boot ROM -/

/-- What the Boot ROM and the hash of the record are. -/
structure RootParams where
  /-- The code of the rows that are not raw. -/
  ecc : Ecc 24
  hash : Bytes → Bytes
  length_hash : ∀ message, (hash message).length = 32

/-- What the environment does in one boot. The calls of the boot are counted. -/
structure RootHal where
  /-- The raw read of a row reports an error. -/
  rawFails : ℕ → ℕ → Bool
  /-- The decoded read from a row on reports an error. -/
  eccFails : ℕ → ℕ → Bool
  /-- What the random source gives, unless it reports an error. -/
  random : Option { bytes : Bytes // bytes.length = 64 }
  /-- What becomes of a row that is programmed. -/
  burn : ℕ → ℕ → Burn 24

/-- A call of the Boot ROM. -/
inductive HalCall where
  /-- A row was read. -/
  | readRaw (row : ℕ) (value : Row)
  /-- A row was to be programmed. -/
  | burn (row : ℕ) (value : Row)
  deriving DecidableEq, Repr

/-- A board in the course of a boot. -/
structure OtpBoard where
  rows : Rows
  /-- The pages that have been read-only since the reset. -/
  latched : ℕ → Bool
  hal : RootHal
  calls : ℕ
  /-- The calls of this boot, the latest first. -/
  log : List HalCall

/-- The states of the root, all but `ready` being failures. -/
inductive OtpRootState where
  | off
  | ready
  | needsEmpty
  | io
  | foreign
  | exhausted
  | corrupt
  | unprotected
  deriving DecidableEq, Repr

abbrev RootProg := Prog OtpBoard OtpRootState

namespace OtpBoard

variable (b : OtpBoard)

/-- A call is over. -/
def called : OtpBoard :=
  { b with calls := b.calls + 1 }

/-- A call is over and has been noted. -/
def noted (call : HalCall) : OtpBoard :=
  { b with calls := b.calls + 1, log := call :: b.log }

def setRow (row : ℕ) (value : Row) : OtpBoard :=
  { b with rows := Function.update b.rows row value }

/-- The board after a reset. -/
def reset (rows : Rows) (hal : RootHal) : OtpBoard where
  rows := rows
  latched page := voted (rows (lockRow page)) &&& 3 ≠ 0
  hal := hal
  calls := 0
  log := []

end OtpBoard

/-- Read a row. Whatever goes wrong is reported as `io`. -/
def readRaw (row : ℕ) : RootProg Row := do
  let b ← getState
  if b.hal.rawFails b.calls row then fail .io
  else do
    modifyState fun b ↦ b.noted (.readRaw row (b.rows row))
    return b.rows row

/-- All bits that some of the rows has. -/
def readAll : List ℕ → RootProg Row
  | [] => pure 0
  | row :: rows => do
    let value ← readRaw row
    let rest ← readAll rows
    return value ||| rest

/-- Program a row. The Boot ROM refuses a page that is read-only, and a value that would clear a bit
of the row. Whatever goes wrong is reported as `io`. -/
def burnRow (spoils : Row → Bool) (row : ℕ) (value : Row) : RootProg Unit := do
  let b ← getState
  modifyState fun b ↦ b.noted (.burn row value)
  if b.latched (pageFor row) ∨ ¬Within (b.rows row) value then fail .io
  else do
    modifyState fun b' ↦
      b'.setRow row ((b.hal.burn b.calls row).result spoils (b.rows row) value)
    match b.hal.burn b.calls row with
    | .done => pure ()
    | .torn lost _ => if lost then powerLost else fail .io
    | .spoilt lost _ => if lost then powerLost else fail .io

/-! ### Records -/

/-- Two bytes as they are kept in a row, the low one first. -/
def packWord (low high : UInt8) : BitVec 16 :=
  high.toBitVec ++ low.toBitVec

def unpackWord (word : BitVec 16) : Bytes :=
  [⟨word.extractLsb' 0 8⟩, ⟨word.extractLsb' 8 8⟩]

def packBytes : Bytes → List (BitVec 16)
  | low :: high :: rest => packWord low high :: packBytes rest
  | _ => []

def unpackWords (words : List (BitVec 16)) : Bytes :=
  words.flatMap unpackWord

/-- The data of `n` rows, if all of them can be decoded. -/
def decodeWords (E : Ecc 24) (rows : Rows) : ℕ → ℕ → Option (List (BitVec 16))
  | _, 0 => some []
  | row, n + 1 => do
    let word ← E.decode (rows row)
    let words ← decodeWords E rows (row + 1) n
    return word :: words

/-- What the record of a page reads as. -/
def pageRecord (rows : Rows) (page : ℕ) : Option Bytes :=
  (decodeWords P.ecc rows (dataRow page) (otpRootBytes / 2)).map unpackWords

/-- A record of this format, with its digest. -/
def WellFormed (record : Bytes) : Prop :=
  record.take 4 = magic ∧ P.hash (record.take 68) = record.drop 68

instance (P : RootParams) (record : Bytes) : Decidable (WellFormed P record) :=
  inferInstanceAs (Decidable (_ ∧ _))

/-- Read the record of a page. -/
def readRecord : RootProg (Option Bytes) := do
  let b ← getState
  modifyState OtpBoard.called
  return if b.hal.eccFails b.calls (dataRow page) then none else pageRecord P b.rows page

/-- Write words into rows that follow one another. -/
def writeEcc (P : RootParams) : ℕ → List (BitVec 16) → RootProg Unit
  | _, [] => pure ()
  | row, word :: words => do
    burnRow P.ecc.spoils row (P.ecc.encode word)
    writeEcc P (row + 1) words

/-! ### Opening the root -/

/-- `lock_to`: the lock of a page is burnt, if that only adds bits. -/
def lockTo (target : Row) : RootProg Unit := do
  let now ← readRaw (lockRow page)
  if now = target then return ()
  -- A page whose second copy is read-only can no longer be repaired, and need not be.
  else if target = otpRootReadOnly ∧ voted now = 0x3d ∧ now &&& ~~~target = 0 then return ()
  else if now &&& ~~~target ≠ 0 then fail .foreign
  else do
    burnRow (fun _ ↦ false) (lockRow page) target
    let now ← readRaw (lockRow page)
    if now = target then return () else fail .io

/-- What the inspection of the pages has found. -/
structure Inspection where
  /-- The page of the root, and its record. -/
  active : Option (ℕ × Bytes) := none
  /-- The first page that is free. -/
  available : Option ℕ := none
  occupied : Bool := false
  incomplete : Bool := false

/-- What a record that was read, or could not be, says of a page with this lock. -/
def inspectRecord (found : Inspection) (lock : Row) (record : Option Bytes) : RootProg Inspection :=
  match record.filter (WellFormed P ·) with
  | some record =>
    if found.active.isSome then fail .corrupt
    else return { found with active := some (page, record), occupied := true }
  | none =>
    if lock &&& readOnlyBits ≠ 0 then fail .corrupt
    else return { found with occupied := true, incomplete := true }

/-- What `otp_root_open` finds in a page. -/
def inspectPage (found : Inspection) : RootProg Inspection := do
  let lock ← readRaw (lockRow page)
  let keyLock ← readRaw (lockRow page - 1)
  if keyLock ≠ 0 ∨ lock &&& ~~~otpRootReadOnly ≠ 0 then fail .foreign
  else do
    let rawOr ← readAll ((List.range 64).map (dataRow page + ·))
    if rawOr = 0 then
      return { found with
        available :=
          if lock &&& readOnlyBits = 0 ∧ found.available = none then some page else found.available
        occupied := found.occupied || lock ≠ 0 }
    else if lock &&& otpRootPrivate ≠ otpRootPrivate then fail .foreign
    else do
      let record ← readRecord P page
      inspectRecord P page found lock record

/-- Page after page. -/
def inspectPages (P : RootParams) : List ℕ → Inspection → RootProg Inspection
  | [], found => pure found
  | page :: pages, found => do
    let found ← inspectPage P page found
    inspectPages P pages found

/-- Make a new root in a free page. -/
def createRoot (found : Inspection) (blank : Bool) : RootProg (ℕ × Bytes) :=
  if !blank then fail (if found.incomplete then .corrupt else .needsEmpty)
  else
    match found.available with
    | none => fail .exhausted
    | some page => do
      lockTo page otpRootPrivate
      let b ← getState
      match b.hal.random with
      | none => fail .io
      | some secret => do
        let selected := magic ++ secret ++ P.hash (magic ++ secret)
        writeEcc P (dataRow page) (packBytes selected)
        let record ← readRecord P page
        if record ≠ some selected then fail .io
        else return (page, selected)

/-- The page of the root and its 64 bytes. -/
def otpRootOpen (protectedBoot blank : Bool) : RootProg (ℕ × Bytes) := do
  let found ← inspectPages P otpRootPages {}
  if !protectedBoot then fail (if found.occupied then .unprotected else .off)
  else do
    let root ← (match found.active with
      | some root => pure root
      | none => createRoot P found blank)
    lockTo root.1 otpRootReadOnly
    return (root.1, (root.2.drop 4).take 64)

/-! ### Boots -/

/-- What one boot is given. -/
structure RootBoot where
  /-- Secure Boot is latched and debugging is disabled. -/
  protectedBoot : Bool
  /-- The storage of the applications is blank. -/
  blank : Bool
  hal : RootHal

/-- What `otp_root_open` gives out. -/
structure RootOutput where
  state : OtpRootState
  keys : Bytes
  page : ℕ
  deriving DecidableEq, Repr

/-- What is given out without a root. Nothing is when the power is lost. -/
def RootOutput.failed : Exit OtpRootState → Option RootOutput
  | .code state => some ⟨state, List.replicate 64 0, 0xff⟩
  | .cut => none

/-- A boot of a run. -/
structure RootStep where
  before : Rows
  boot : RootBoot
  output : Option RootOutput
  /-- The calls of the boot, the latest first. -/
  log : List HalCall
  after : Rows

/-- What a boot does to the rows, and what it leaves. -/
def RootBoot.step (rows : Rows) (boot : RootBoot) : RootStep :=
  let m := otpRootOpen P boot.protectedBoot boot.blank
  let start := OtpBoard.reset rows boot.hal
  { before := rows
    boot := boot
    output :=
      match m.result start [] with
      | .ok (page, keys) => some ⟨.ready, keys, page⟩
      | .error e => RootOutput.failed e
    log := (m.final start []).log
    after := (m.final start []).rows }

/-- The boots of a run. -/
def rootSteps (P : RootParams) : Rows → List RootBoot → List RootStep
  | _, [] => []
  | rows, boot :: boots => boot.step P rows :: rootSteps P (boot.step P rows).after boots

end PicoAll.Otp
