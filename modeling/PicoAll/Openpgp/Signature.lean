import PicoAll.Lib.Machine
import PicoAll.Openpgp.Files
import PicoAll.Transport.Apdu

/-!
# The signature key

The commands that use the private keys of the card, with what the signature key has to do with PW1
and with the digital signature counter: `inc_sig_count` is called once a signature has been made,
and its result is not looked at. The counter is written behind a cache, so that a loss of power may
bring an older one back.

What the operation with a private key gives is up to the environment, and so is whether a PIN is
right.
-/

namespace PicoAll.Openpgp

open FaultProgram BigEndian

/-! ### The card -/

/-- The files that matter here. -/
inductive SigFile where
  | pwPriv
  | sigCount
  deriving DecidableEq, Repr

/-- What is done with keys and PW1, for the history. -/
inductive SigNote where
  /-- PW1 was right, in mode 81. -/
  | verified
  /-- The private key of a file was used. -/
  | used (fid : ℕ)
  /-- A signature was returned. -/
  | signed
  /-- The signature key was generated or imported. -/
  | keyMade
  deriving DecidableEq, Repr

/-- The memory. -/
structure SigRam where
  hasPw1 : Bool
  hasPw2 : Bool
  hasPw3 : Bool
  pkDec : ℕ
  pkAut : ℕ
  /-- The power has been lost. -/
  off : Bool
  /-- The history, the latest first. -/
  history : List SigNote
  deriving DecidableEq, Repr

abbrev SigDevice := Device SigFile (Option Bytes) SigRam

abbrev SigProg := Prog SigDevice UInt16

/-- What `init_openpgp` leaves, with the history as it is. -/
def sigRamStart (history : List SigNote) : SigRam :=
  ⟨false, false, false, efPkDec, efPkAut, false, history⟩

def sigModifyRam (f : SigRam → SigRam) : SigProg Unit :=
  modifyState (·.setRam f)

def noteSig (note : SigNote) : SigProg Unit :=
  sigModifyRam fun ram ↦ { ram with history := note :: ram.history }

/-! ### The counter -/

/-- Of the counter of a file. -/
def sigCounter (content : Option Bytes) : ℕ :=
  beNat (content.getD [])

variable (adminless : Bool) (d : SigDevice)

/-- Where the record demands it, PW1 is to be verified again. -/
def spendPw1 (status : Bytes) : SigProg Unit :=
  if status.getD 0 0 = 0 then
    sigModifyRam fun ram ↦ { ram with hasPw1 := false, hasPw3 := ram.hasPw3 && !adminless }
  else pure ()

/-- `inc_sig_count`, whose result is not looked at. -/
def incSigCount : SigProg Unit := do
  let d ← getState
  match d.read .pwPriv with
  | none => pure ()
  | some status => do
    spendPw1 adminless status
    match d.read .sigCount with
    | none => pure ()
    | some count => putIgnoring swExecError .sigCount (some (beBytes 3 (beNat count + 1)))

/-- `reset_sig_count`, whose result is not looked at. -/
def resetSigCount : SigProg Unit := do
  let d ← getState
  match d.read .sigCount with
  | none => pure ()
  | some _ => putIgnoring swExecError .sigCount (some (beBytes 3 0))

/-- The record demands a verification for each signature. -/
def forcesig (content : Option Bytes) : Bool :=
  content.any fun status ↦ status.length > 0 ∧ status.getD 0 0 = 0

/-! ### The private keys -/

/-- What becomes of an operation with a private key. -/
inductive KeyUse where
  /-- The key is not used: there is none, the button is not pressed, the data do not fit. -/
  | refused (sw : UInt16)
  /-- The key fails. -/
  | failed (sw : UInt16)
  | done (response : Bytes)
  deriving DecidableEq, Repr

/-- The key of PSO, once it is authorized. -/
def psoKey (ram : SigRam) (p1 p2 : UInt8) (data : Bytes) : Except UInt16 ℕ :=
  if p1 = 0x9e ∧ p2 = 0x9a then .ok efPkSig
  else if p1 = 0x80 ∧ p2 = 0x86 then
    if data.headD 0 = 0x02 ∧ (data.length - 1) % 16 = 0 ∧ data.length > 0 then .ok efAesKey
    else .ok ram.pkDec
  else if data.length > 0 ∧ data.length % 16 = 0 then .ok efAesKey
  else .error swWrongLength

/-- Whether PSO is authorized. -/
def psoAuthorized (p1 p2 : UInt8) : Except UInt16 Unit :=
  if p1 = 0x9e ∧ p2 = 0x9a then
    if !d.ram.hasPw1 ∧ (forcesig (d.read .pwPriv) ∨ !d.ram.hasPw3) then
      .error swSecurityStatusNotSatisfied
    else .ok ()
  else if (p1 = 0x80 ∧ p2 = 0x86) ∨ (p1 = 0x86 ∧ p2 = 0x80) then
    if !d.ram.hasPw3 ∧ !d.ram.hasPw2 then .error swSecurityStatusNotSatisfied else .ok ()
  else .error swIncorrectP1P2

/-- A signature has been made. -/
def finishSignature (p1 p2 : UInt8) : SigProg Unit :=
  if p1 = 0x9e ∧ p2 = 0x9a then do
    incSigCount adminless
    noteSig .signed
  else pure ()

/-- PSO: `use` is what comes of the operation with the key. -/
def cmdPso (p1 p2 : UInt8) (data : Bytes) (use : KeyUse) :
    SigProg (UInt16 × Bytes) := do
  let d ← getState
  liftExcept (psoAuthorized d p1 p2)
  let fid ← liftExcept (psoKey d.ram p1 p2 data)
  match use with
  | .refused sw => return (sw, [])
  | .failed sw => do
    noteSig (.used fid)
    return (sw, [])
  | .done response => do
    noteSig (.used fid)
    finishSignature adminless p1 p2
    return (swOk, response)

/-- INTERNAL AUTHENTICATE. -/
def cmdInternalAut (p1 p2 : UInt8) (use : KeyUse) : SigProg (UInt16 × Bytes) := do
  let d ← getState
  if p1 ≠ 0x00 ∨ p2 ≠ 0x00 then return (swWrongP1P2, [])
  else if !d.ram.hasPw3 ∧ !d.ram.hasPw2 then return (swSecurityStatusNotSatisfied, [])
  else
    match use with
    | .refused sw => return (sw, [])
    | .failed sw => do
      noteSig (.used d.ram.pkAut)
      return (sw, [])
    | .done response => do
      noteSig (.used d.ram.pkAut)
      return (swOk, response)

/-- The memory after MANAGE SECURITY ENVIRONMENT. -/
def SigRam.manageSe (ram : SigRam) (p2 key : UInt8) : SigRam :=
  let fid := if key = 0x02 then efPkDec else efPkAut
  if p2 = 0xa4 then { ram with pkAut := fid } else { ram with pkDec := fid }

/-- MSE: which key is used to decipher or to authenticate. -/
def cmdMse (p1 p2 : UInt8) (data : Bytes) : SigProg (UInt16 × Bytes) :=
  if p1 ≠ 0x41 ∨ (p2 ≠ 0xa4 ∧ p2 ≠ 0xb8) then return (swWrongP1P2, [])
  else if data.getD 0 0 ≠ 0x83 ∨ data.getD 1 0 ≠ 0x01 ∨
      (data.getD 2 0 ≠ 0x02 ∧ data.getD 2 0 ≠ 0x03) then
    return (swWrongData, [])
  else do
    sigModifyRam (·.manageSe p2 (data.getD 2 0))
    return (swOk, [])

/-! ### Keys, PINs, the record -/

/-- What becomes of the making of a key. -/
inductive KeyMaking where
  /-- The old key stays. -/
  | kept (sw : UInt16)
  /-- The new key is there, but an error is reported. -/
  | late (sw : UInt16)
  | made (response : Bytes)
  deriving DecidableEq, Repr

/-- A key that was made is there. -/
def noteKeyMade (fid : ℕ) : SigProg Unit :=
  if fid = efPkSig then noteSig .keyMade else pure ()

/-- A new signature key starts its counter. -/
def finishKey (fid : ℕ) : SigProg Unit :=
  if fid = efPkSig then resetSigCount else pure ()

/-- What GENERATE ASYMMETRIC KEY PAIR and the import of a key have in common, for the key of a
file. -/
def makeKey (fid : ℕ) (making : KeyMaking) : SigProg (UInt16 × Bytes) := do
  let d ← getState
  if !d.ram.hasPw3 then return (swSecurityStatusNotSatisfied, [])
  else
    match making with
    | .kept sw => return (sw, [])
    | .late sw => do
      noteKeyMade fid
      return (sw, [])
    | .made response => do
      noteKeyMade fid
      finishKey fid
      return (swOk, response)

/-- What a PIN that is given for PW1 turns out to be. -/
inductive PinCheck where
  /-- It is not compared. -/
  | refused
  | wrong
  /-- It is right, whatever fails afterwards. -/
  | right
  deriving DecidableEq, Repr

/-- Without an admin, VERIFY takes the access away first. -/
def forgetFirst (adminless verify : Bool) (p2 : UInt8) : SigProg Unit :=
  if verify ∧ adminless ∧ p2 = 0x81 then
    sigModifyRam fun ram ↦ { ram with hasPw1 := false, hasPw3 := false }
  else pure ()

/-- What a PIN that is given for PW1 does to the memory. -/
def SigRam.checked (ram : SigRam) (adminless : Bool) (p2 : UInt8) : PinCheck → SigRam
  | .refused => ram
  | .wrong => if p2 = 0x81 then { ram with hasPw1 := false } else { ram with hasPw2 := false }
  | .right =>
    if p2 = 0x81 then
      { ram with
        hasPw1 := true
        hasPw3 := ram.hasPw3 || adminless
        history := .verified :: ram.history }
    else { ram with hasPw2 := true }

/-- `check_pin` of PW1, in VERIFY and in CHANGE REFERENCE DATA. -/
def checkPw1 (adminless verify : Bool) (p2 : UInt8) (check : PinCheck) (sw : UInt16) :
    SigProg (UInt16 × Bytes) := do
  forgetFirst adminless verify p2
  sigModifyRam (·.checked adminless p2 check)
  return (sw, [])

/-- PUT DATA that writes the record of the PINs: under its tag, or under its own id. -/
def putPwPriv (content : Option Bytes) : SigProg (UInt16 × Bytes) := do
  let d ← getState
  if !d.ram.hasPw3 then return (swSecurityStatusNotSatisfied, [])
  else do
    put swMemoryFailure .pwPriv content
    return (swOk, [])

/-! ### The machine -/

/-- The commands that matter for the counter. -/
inductive SigCommand where
  | pso (p1 p2 : UInt8) (data : Bytes) (use : KeyUse)
  | internalAut (p1 p2 : UInt8) (use : KeyUse)
  | mse (p1 p2 : UInt8) (data : Bytes)
  | makeKey (fid : ℕ) (making : KeyMaking)
  | checkPw1 (verify : Bool) (p2 : UInt8) (check : PinCheck) (sw : UInt16)
  | putPwPriv (content : Option Bytes)
  /-- Another command: PW1 is not verified by it. -/
  | other (forgets hasPw2 hasPw3 : Bool) (sw : UInt16) (response : Bytes)
  /-- The applet is selected or left. -/
  | select
  deriving DecidableEq, Repr

/-- What a command does. -/
def SigCommand.run : SigCommand → SigProg (UInt16 × Bytes)
  | .pso p1 p2 data use => cmdPso adminless p1 p2 data use
  | .internalAut p1 p2 use => cmdInternalAut p1 p2 use
  | .mse p1 p2 data => cmdMse p1 p2 data
  | .makeKey fid making => Openpgp.makeKey fid making
  | .checkPw1 verify p2 check sw => Openpgp.checkPw1 adminless verify p2 check sw
  | .putPwPriv content => Openpgp.putPwPriv content
  | .other forgets hasPw2 hasPw3 sw response => do
    sigModifyRam fun ram ↦
      { ram with hasPw1 := ram.hasPw1 && !forgets, hasPw2 := hasPw2, hasPw3 := hasPw3 }
    return (sw, response)
  | .select => do
    sigModifyRam fun ram ↦ sigRamStart ram.history
    return (swOk, [])

/-- The card as a machine. -/
def sigMachine :
    Machine SigFile (Option Bytes) SigRam UInt16 SigCommand (UInt16 × Bytes) where
  command := SigCommand.run adminless
  isOff ram := ram.off
  powerDown ram := { ram with off := true }
  restart ram := sigRamStart ram.history

/-- The files of a card to start with. -/
def sigFilesStart (status : Option Bytes) (count : Bytes) : SigFile → Option Bytes
  | .pwPriv => status
  | .sigCount => some count

/-- A card to start with. -/
def sigStart (status : Option Bytes) (count : Bytes) (faults : SigFile → List Outcome) :
    SigDevice :=
  ⟨⟨sigFilesStart status count, fun _ ↦ []⟩, faults, sigRamStart []⟩

/-! ### The law -/

/-- The signatures since the key was made. -/
def signatures : List SigNote → ℕ
  | [] => 0
  | .signed :: notes => signatures notes + 1
  | .keyMade :: _ => 0
  | .verified :: notes | .used _ :: notes => signatures notes

/-- PW1 was right in mode 81 since the last signature. -/
def verifiedSince : List SigNote → Bool
  | [] => false
  | .verified :: _ => true
  | .signed :: _ => false
  | .keyMade :: notes | .used _ :: notes => verifiedSince notes

/-- COMPUTE DIGITAL SIGNATURE. -/
def SigCommand.IsCds : SigCommand → Prop
  | .pso p1 p2 _ _ => p1 = 0x9e ∧ p2 = 0x9a
  | _ => False

/-- The value of the counter. -/
def sigCount : ℕ :=
  sigCounter (d.read .sigCount)

/-- What is to hold of a command between `d` and `d'`, by what it adds to the history. -/
structure SigCommandLaw (c : SigCommand) (d d' : SigDevice) (added : List SigNote) : Prop where
  history : d'.ram.history = added ++ d.ram.history
  /-- The signature key is used only by COMPUTE DIGITAL SIGNATURE. -/
  key : .used efPkSig ∈ added ∨ .signed ∈ added → c.IsCds
  /-- Where it is demanded, PW1 was verified since the signature before. -/
  verified : .signed ∈ added → forcesig (d.read .pwPriv) = true → verifiedSince d.ram.history = true
  /-- The counter grows with every signature. -/
  grows : .signed ∈ added → sigCount d < sigCount d'

/-- What is to hold of an event between `d` and `d'`. -/
def SigLaw (event : MachineEvent SigFile SigCommand) (d' : SigDevice) : Prop :=
  signatures d'.ram.history ≤ sigCount d' ∧
    match event with
    | .command c _ => ∃ added, SigCommandLaw c d d' added
    | .flush _ | .reboot _ => d'.ram.history = d.ram.history

/-- An event that does not lose a signature: COMPUTE DIGITAL SIGNATURE finds the record of the PINs
and a counter that is not at its end, and the write of the counter does not fail; PUT DATA makes the
demand only where PW1 does not count as verified since before a signature; and no smaller counter is
found after a loss of power. -/
def KeepsSignatures : MachineEvent SigFile SigCommand → Prop
  | .command (.pso p1 p2 _ (.done _)) faults =>
    p1 = 0x9e ∧ p2 = 0x9a → psoAuthorized d p1 p2 = .ok () →
      (d.read .pwPriv).isSome = true ∧ sigCount d < 2 ^ 24 - 1 ∧
        (faults .sigCount).headD .ok ≠ .fail
  | .command (.putPwPriv content) faults =>
    d.ram.hasPw3 = true → (faults .pwPriv).headD .ok = .ok ∨ (faults .pwPriv).headD .ok = .late →
      forcesig content = true → forcesig (d.read .pwPriv) = false → d.ram.hasPw1 = true →
        verifiedSince d.ram.history = true
  | .reboot keep => sigCount d ≤ sigCounter ((d.files.powerCut keep).view .sigCount)
  | _ => True

end PicoAll.Openpgp
