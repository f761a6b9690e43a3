import PicoAll.Fs.FileApi
import PicoAll.Lib.ByteBuffer

/-!
# OTP slots

The application of `otp.c`: four slots, of which a button press types the one-time password. Here a
slot is what `otp_slot_load` reads and `otp_slot_store` writes, in one go, from a file or from the
container; each of these can report an error, and the power can go before it. A store that succeeds is
taken as durable at once, not only after `flash_commit`. What is lost with the power is in the two
variables `scanned` and `session_counter`.

A Yubico OTP carries a usage counter, kept behind the configuration in the slot, and a session
counter. `init_otp` counts the usage counter of every slot up, once after power-up, and a press does
so when the session counter wraps.
-/

namespace PicoAll

open BigEndian ByteBuffer FaultProgram

abbrev otpConfigSize : ℕ := 52

/-- Where a slot's data is: in a file, in an encrypted file, or in the container. -/
inductive OtpStorage where
  | plain
  | secure
  | container
  deriving DecidableEq, Repr

/-- The data of a slot: an `otp_config_t`, and eight bytes for a counter unless it is an old one. -/
structure OtpSlot where
  data : Bytes
  /-- Where it is. -/
  storage : OtpStorage
  deriving DecidableEq, Repr

/-- The slots, and the static variables of `otp.c` that go with them. -/
structure OtpDevice where
  /-- The slots that have data. -/
  slots : Fin 4 → Option OtpSlot
  /-- Whether the slots have been scanned since power-up. -/
  scanned : Bool
  sessionCounter : Fin 4 → UInt8

/-- A function of `otp.c`. Status words are among the error codes under the name of the error they
report. -/
abbrev OtpProg (α : Type) := Prog OtpDevice Status α

namespace OtpDevice

/-- Change one slot. -/
def setSlot (s : OtpDevice) (i : Fin 4) (slot : Option OtpSlot) : OtpDevice :=
  { s with slots := Function.update s.slots i slot }

/-- Power-up: the static variables are initialized. -/
def powerUp (s : OtpDevice) : OtpDevice :=
  { s with scanned := false, sessionCounter := fun _ ↦ 0 }

end OtpDevice

/-! ### The slots -/

variable (data : Bytes) (i : Fin 4)

/-- The data is as long as it is stored: with or without a counter. -/
def otpPlainLenValid : Bool :=
  data.length = otpConfigSize || data.length = otpConfigSize + 8

/-- The slot has a file with data that is not the marker of the container. -/
def OtpSlot.legacy (slot : OtpSlot) : Bool :=
  slot.storage != .container

/-- `otp_slot_has_data_status`. -/
def otpSlotHasDataStatus : OtpProg Bool := do
  match (← getState).slots i with
  | some slot =>
    if slot.legacy then
      return true
    else do
      perform .execError id
      return true
  | none => do
    perform .execError id
    return false

/-- `otp_slot_store`: a slot in a file stays in one, which is encrypted. -/
def OtpDevice.otpSlotStore (plain : Bytes) : OtpProg Unit := do
  if otpPlainLenValid plain then do
    let s ← getState
    let storage := if (s.slots i).any OtpSlot.legacy then OtpStorage.secure else .container
    perform .noMemory (·.setSlot i (some ⟨plain, storage⟩))
  else
    fail .wrongData

def OtpDevice.otpSlotDelete : OtpProg Unit := do
  if ← otpSlotHasDataStatus i then
    perform .execError (·.setSlot i none)
  else
    pure ()

/-- `uid`. -/
def otpUid : Bytes :=
  slice data 16 6

/-- `aes_key`. -/
def otpAesKey : Bytes :=
  slice data 22 16

/-- `tkt_flags`. -/
def otpTktFlags : UInt8 :=
  data.getD 46 0

/-- `cfg_flags`. -/
def otpCfgFlags : UInt8 :=
  data.getD 47 0

/-- `tkt_flags & OATH_HOTP`, or `& CHAL_RESP`, which is the same bit. -/
def otpIsHotp : Bool :=
  otpTktFlags data &&& 0x40 != 0

/-- `cfg_flags & SHORT_TICKET || cfg_flags & STATIC_TICKET`. -/
def otpIsStatic : Bool :=
  otpCfgFlags data &&& 0x02 != 0 || otpCfgFlags data &&& 0x20 != 0

/-- The usage counter, zero where there is none. -/
def otpUsageCounter : ℕ :=
  if data.length = otpConfigSize + 8 then beField data otpConfigSize 2 else 0

/-! ### Scanning -/

/-- The inner loop of `calculate_crc`. -/
def crcShift (crc : UInt16) : UInt16 :=
  if crc &&& 1 = 1 then (crc >>> 1) ^^^ 0x8408 else crc >>> 1

def calculateCrc : UInt16 :=
  data.foldl (fun crc b ↦ crcShift^[8] (crc ^^^ b.toUInt16)) 0xffff

def modhexTab : Bytes :=
  [0x63, 0x62, 0x64, 0x65, 0x66, 0x67, 0x68, 0x69, 0x6a, 0x6b, 0x6c, 0x6e, 0x72, 0x74, 0x75, 0x76]

def encodeModhex : Bytes :=
  data.flatMap fun (b : UInt8) ↦ [modhexTab.getD (b >>> 4).toNat 0, modhexTab.getD (b &&& 0xf).toNat 0]

/-- A one-time password. -/
structure OtpTicket where
  /-- The key of the slot. -/
  key : Bytes
  /-- What is encrypted. -/
  plain : Bytes
  /-- What is typed. -/
  text : Bytes
  deriving DecidableEq, Repr

/-- The usage counter in the password. -/
def OtpTicket.usage (ticket : OtpTicket) : ℕ :=
  leNat (slice ticket.plain 6 2)

/-- The session counter in the password. -/
def OtpTicket.session (ticket : OtpTicket) : ℕ :=
  (ticket.plain.getD 11 0).toNat

/-- What the keyboard types. -/
inductive OtpTyped where
  | ticket (ticket : OtpTicket)
  | number (number digits : ℕ)
  | bytes (text : Bytes)
  | enter
  deriving DecidableEq, Repr

/-- What a press depends on besides the slots. -/
structure OtpPress where
  /-- `mbedtls_aes_crypt_ecb`: the key, and the block to encrypt. -/
  aesCryptEcb : Bytes → Bytes → Bytes
  /-- `calculate_oath`: the key, and the moving factor. -/
  calculateOath : Bytes → ℕ → Option ℕ
  /-- `cap_supported(CAP_OTP)`. -/
  capSupported : Bool
  /-- `board_millis`. -/
  millis : UInt32
  /-- `random_fill_buffer`. -/
  random : UInt8 × UInt8

variable (press : OtpPress)

/-- The password of a configuration and a pair of counters. -/
def otpTicket (data : Bytes) (counter : ℕ) (session : UInt8) : OtpTicket :=
  let ts := press.millis.toNat / 1000 / 2
  let head := otpUid data ++ leBytes 2 counter ++ leBytes 3 ts ++ [session] ++
    [press.random.1, press.random.2]
  let plain := head ++ leBytes 2 (calculateCrc head ^^^ 0xffff).toNat
  { key := otpAesKey data
    plain
    text := encodeModhex (slice data 0 6 ++ press.aesCryptEcb (otpAesKey data) plain) }

end PicoAll
