import PicoAll.Fido.OathSlots
import PicoAll.Fido.Otp

/-!
# HOTP codes

The codes of RFC 4226 (`rfc4226`), the two places that compute them, CALCULATE for an OATH credential
and a press on a slot of the OTP application that is configured for HOTP (`otpPressOath`), and VERIFY
CODE, which compares one.

A file that has a moving factor, a credential or a slot, is looked at by itself: in a run it leaves a
trace of the codes that are computed from it, each with the moving factor it is computed with and the
one that is stored after it (`hotpTrace`). In an exact trace (`HotpExact`) no moving factor is used
twice. A store, of a slot too, is in the write-back cache until the file is flushed, and a loss of power
may take it back; the counters of Yubico OTPs are modelled with stores that are durable at once.
-/

namespace PicoAll

open FaultProgram BigEndian ByteBuffer

/-! ### Codes -/

/-- Dynamic truncation: the number of 31 bits that the low four bits of the last byte point to. -/
def dynamicTruncation (hmac : Bytes) : ℕ :=
  beField hmac ((hmac.getD (hmac.length - 1) 0).toNat % 16) 4 % 2 ^ 31

/-- What a code is computed from besides the moving factor. -/
structure HotpSecret where
  /-- The hash function. -/
  hash : OathHash
  /-- The secret. -/
  key : Bytes
  /-- How many digits a code has. -/
  digits : ℕ
  deriving DecidableEq

/-- A code: the number, and how many digits it is written with. -/
structure HotpCode where
  number : ℕ
  digits : ℕ
  deriving DecidableEq

variable (C : OathCrypto) (f : OathFile) (d : OathDevice) (data : Bytes)

/-- The number that the digits of a code are taken from. -/
def hotpTruncated (s : HotpSecret) (factor : ℕ) : ℕ :=
  dynamicTruncation (C.hmac s.hash s.key (beBytes 8 factor))

/-- The code of RFC 4226 for a moving factor. -/
def rfc4226 (s : HotpSecret) (factor : ℕ) : HotpCode :=
  ⟨hotpTruncated C s factor % 10 ^ s.digits, s.digits⟩

/-! ### Moving factors -/

/-- The secret and the moving factor of an OATH credential for HOTP. -/
def hotpOf (cred : OathCredential) : Option (HotpSecret × ℕ) := do
  let hash ← getOathMdInfo (cred.key.headD 0)
  let imf ← cred.item tagImf
  if oathIsHotp cred.key ∧ 8 ≤ imf.length then
    some (⟨hash, cred.key.drop 2, (cred.key.getD 1 0).toNat⟩, beNat (imf.take 8))
  else
    none

/-- `OATH_HOTP8`, or six digits. -/
def otpHotpDigits : ℕ :=
  if otpCfgFlags data &&& 0x02 != 0 then 8 else 6

/-- The moving factor of an OTP slot: the one that is stored, or the one of its configuration if that
is zero. -/
def otpHotpFactor : ℕ :=
  let stored := if data.length = otpConfigSize + 8 then beField data otpConfigSize 8 else 0
  if stored = 0 then beField data 20 2 else stored

/-- The slot is for HOTP, and not for a challenge. -/
def otpHotpSlot : Bool :=
  otpPlainLenValid data && otpIsHotp data && otpCfgFlags data &&& 0x20 == 0

/-- The secret and the moving factor of an OTP slot for HOTP. -/
def hotpOfSlot : Option (HotpSecret × ℕ) :=
  if otpHotpSlot data then some (⟨.sha1, otpAesKey data, otpHotpDigits data⟩, otpHotpFactor data)
  else none

/-- The secret and the moving factor of a file. -/
def hotpAt : OathFile → Option OathContent → Option (HotpSecret × ℕ)
  | .cred _, some content =>
    (contentOpen content .credential).bind fun record ↦ (oathCredential C record).bind hotpOf
  | .otpSlot _, some (.plain data) => hotpOfSlot data
  | _, _ => none

/-- The moving factor that is stored in a file. -/
def hotpCounter : Option ℕ :=
  (hotpAt C f (d.read f)).map (·.2)

/-! ### A press on an OTP slot -/

/-- `otp_button_pressed`, on a slot for HOTP: the code that is typed. The slot is what `otp_slot_load`
reads, and the key that may be pressed after the code is left out. -/
def otpPressOath (i : Fin 4) : OathProg (Option HotpCode) := do
  let d ← getState
  match d.read (.otpSlot i) with
  | some (.plain data) =>
    if otpHotpSlot data then do
      let imf := otpHotpFactor data
      -- the second byte of the key is not set, and is not looked at
      match calculateOath C 1 (1 :: 0 :: otpAesKey data) (beBytes 8 imf) 0 with
      | none => return none
      | some response => do
        putIgnoring .storage (.otpSlot i)
          (some (.plain (data.take otpConfigSize ++ beBytes 8 (imf + 1))))
        return some ⟨beField response 2 2 % 10 ^ otpHotpDigits data, otpHotpDigits data⟩
    else
      return none
  | _ => return none

/-- A press, in which the power may be lost. What is typed then is not. -/
def runPress (i : Fin 4) (d : OathDevice) : Option HotpCode × OathDevice :=
  let d' := (otpPressOath C i).final d []
  match (otpPressOath C i).result d [] with
  | .ok code => (code, d')
  | .error .cut => (none, d'.setRam fun ram ↦ { ram with off := true })
  | .error (.code _) => (none, d')

/-! ### Runs -/

/-- What happens. -/
inductive HotpEvent where
  /-- What happens to the OATH application and to the files. -/
  | oath (event : OathEvent)
  /-- A press on an OTP slot. -/
  | press (i : Fin 4) (faults : OathFile → List Outcome)

/-- What a press does. -/
def pressStep (i : Fin 4) (faults : OathFile → List Outcome) :
    Option HotpCode × OathDevice :=
  if d.ram.off then (none, d) else runPress C i { d with faults := faults }

/-- The device after an event. -/
def HotpEvent.step : HotpEvent → OathDevice
  | oath event => (event.step C d).2
  | press i faults => (pressStep C d i faults).2

/-- The device after a run. -/
def hotpRun (C : OathCrypto) : OathDevice → List HotpEvent → OathDevice
  | d, [] => d
  | d, event :: events => hotpRun C (event.step C d) events

/-- The file that CALCULATE and VERIFY CODE are about. -/
def hotpTarget : Option OathFile :=
  ((tlvFindTag tagName data).bind (findOathCred d)).map .cred

/-- The code in the response of CALCULATE, whether it is truncated or not. -/
def responseCode : HotpCode :=
  let digits := (data.getD 2 0).toNat
  let truncated := if data.headD 0 = 0x76 then beField data 3 4 else dynamicTruncation (data.drop 3)
  ⟨truncated % 10 ^ digits, digits⟩

/-- The code that is computed from a file. -/
def hotpEmitted : HotpEvent → Option HotpCode
  | .oath (.command (.calculate p2 data touched) faults) =>
    match (OathEvent.step C d (.command (.calculate p2 data touched) faults)).1 with
    | some reply =>
      if hotpTarget d data = some f ∧ reply.sw = swOk then some (responseCode reply.data) else none
    | none => none
  | .press i faults => if f = .otpSlot i then (pressStep C d i faults).1 else none
  | _ => none

/-- Something may be lost: a write of the file is disturbed, or a loss of power takes one back. -/
def HotpEvent.Loses : HotpEvent → Prop
  | oath (.command _ faults) | press _ faults => ∃ o ∈ faults f, o ≠ .ok
  | oath (.reboot keep) => (d.files.powerCut keep).view f ≠ d.files.view f
  | oath (.flush _) => False

instance (f : OathFile) (d : OathDevice) (event : HotpEvent) : Decidable (event.Loses f d) :=
  match event with
  | .oath (.command _ faults) => inferInstanceAs (Decidable (∃ o ∈ faults f, o ≠ .ok))
  | .press _ faults => inferInstanceAs (Decidable (∃ o ∈ faults f, o ≠ .ok))
  | .oath (.reboot keep) =>
    inferInstanceAs (Decidable ((d.files.powerCut keep).view f ≠ d.files.view f))
  | .oath (.flush _) => inferInstanceAs (Decidable False)

/-- What is noted of an event. -/
inductive HotpNote where
  /-- A code is computed with a moving factor, and another is stored then. -/
  | code (factor : ℕ) (code : HotpCode) (stored : Option ℕ)
  /-- Something may have been lost. -/
  | lost
  deriving DecidableEq

/-- The notes of an event. -/
def hotpNotes (event : HotpEvent) :
    List HotpNote :=
  match hotpEmitted C f d event with
  | some code => [.code ((hotpCounter C f d).getD 0) code (hotpCounter C f (event.step C d))]
  | none => if event.Loses f d then [.lost] else []

/-- The trace that a file leaves. -/
def hotpTrace (C : OathCrypto) (f : OathFile) : OathDevice → List HotpEvent → List HotpNote
  | _, [] => []
  | d, event :: events => hotpNotes C f d event ++ hotpTrace C f (event.step C d) events

/-- The moving factors of a trace. -/
def hotpFactors (notes : List HotpNote) : List ℕ :=
  notes.filterMap fun note ↦ match note with
    | .code factor _ _ => some factor
    | .lost => none

/-! ### What is to hold -/

/-- The code that is given for a moving factor. A press types the digits of the upper half of the
number. -/
def hotpGiven (s : HotpSecret) : OathFile → ℕ → HotpCode
  | .otpSlot _, factor => ⟨hotpTruncated C s factor / 65536 % 10 ^ s.digits, s.digits⟩
  | _, factor => rfc4226 C s factor

/-- A trace in which the moving factors count up and the codes are given by them. -/
structure HotpCounts (given : ℕ → HotpCode) (c : ℕ) (notes : List HotpNote) : Prop where
  /-- Each code is the one of its moving factor, and the next moving factor is stored then. -/
  codes : ∀ factor code stored, .code factor code stored ∈ notes →
    c ≤ factor ∧ code = given factor ∧ stored = some (factor + 1)
  /-- A moving factor is larger than every one before. -/
  increasing : (hotpFactors notes).Pairwise (· < ·)
  /-- It is the next one when nothing was lost. -/
  consecutive : notes.IsChain fun note note' ↦ ∀ factor code stored factor' code' stored',
    note = .code factor code stored → note' = .code factor' code' stored' → factor' = factor + 1

/-- **An exact trace**: the codes are those of RFC 4226. -/
def HotpExact (C : OathCrypto) (s : HotpSecret) (c : ℕ) (notes : List HotpNote) : Prop :=
  HotpCounts (rfc4226 C s) c notes

/-- The caller gives the code of a moving factor. -/
def GivesCode (s : HotpSecret) (c : ℕ) (data : Bytes) : Prop :=
  ∃ code, tlvFindTag tagResponse data = some code ∧ beNat code = (rfc4226 C s c).number

/-- VERIFY CODE accepts the code of the moving factor that is stored, and no other one. -/
def VerifiesExactly (s : HotpSecret) (f : OathFile) (d : OathDevice) : Prop :=
  ∀ data touched faults c, hotpTarget d data = some f → hotpAt C f (d.read f) = some (s, c) →
    ∀ reply ∈ (OathEvent.step C d (.command (.verifyCode data touched) faults)).1,
      (reply.sw = swOk → GivesCode C s c data) ∧ (reply.sw = swWrongData → ¬GivesCode C s c data)

/-- The moving factor of a credential has eight bytes, and its codes six or eight digits. -/
def VerifiesPlainly (s : HotpSecret) : OathFile → OathDevice → Prop
  | .cred i, d => (s.digits = 6 ∨ s.digits = 8) ∧ ∀ record imf,
    oathCredentialOpen d i .credential = some record → tlvFindTag tagImf record = some imf →
      imf.length = 8
  | _, _ => True

/-- The commands that do not store, delete or rename credentials. -/
def OathCommand.KeepsCredentials : OathCommand → Prop
  | put _ | delete _ | rename _ | reset .. => False
  | _ => True

/-- What is asked of an event for the moving factors. -/
def HotpEvent.Careful (d : OathDevice) : HotpEvent → Prop
  -- the moving factor is not the last one that fits into eight bytes
  | oath (.command (.calculate _ data _) _) =>
    hotpTarget d data = some f → hotpCounter C f d ≠ some (2 ^ 64 - 1)
  | oath (.command c _) => c.KeepsCredentials
  | oath (.flush _) => True
  -- what is found is not older than what was stored
  | oath (.reboot keep) => ∃ c ∈ hotpCounter C f d,
    ∃ c' ∈ hotpCounter C f { d with files := d.files.powerCut keep }, c ≤ c'
  -- the moving factor can be stored
  | press i faults => f = .otpSlot i →
    hotpCounter C f d ≠ some (2 ^ 64 - 1) ∧ (faults f).headD .ok ≠ .fail

/-- It is no press on the file. -/
def HotpEvent.Unpressed : HotpEvent → Prop
  | oath _ => True
  | press i _ => f ≠ .otpSlot i

/-- What is asked of a run. -/
def CarefulHotpRun (C : OathCrypto) (f : OathFile) : OathDevice → List HotpEvent → Prop
  | _, [] => True
  | d, event :: events => event.Careful C f d ∧ CarefulHotpRun C f (event.step C d) events

/-- The content of a file with a moving factor. -/
inductive HotpStored (C : OathCrypto) (s : HotpSecret) (c : ℕ) :
    OathFile → Option OathContent → Prop
  | cred (i : Fin maxOathCred) {cred : OathCredential} {content : OathContent}
      (holds : OathHolds C cred content) (hotp : hotpOf cred = some (s, c)) :
      HotpStored C s c (.cred i) (some content)
  | otpSlot (i : Fin 4) {data : Bytes} (hotp : hotpOfSlot data = some (s, c)) :
      HotpStored C s c (.otpSlot i) (some (.plain data))

/-- A device in which a file has a moving factor that has reached the flash. -/
structure HotpStart (C : OathCrypto) (s : HotpSecret) (c : ℕ) (f : OathFile) (d : OathDevice) :
    Prop where
  stored : HotpStored C s c f (d.read f)
  settled : d.files.stale f = []

end PicoAll
