import PicoAll.Openpgp.Pin

/-!
# The key derivation object

`openpgp_kdf_update`: the host may have the PINs derived before they are sent. The object that says
how comes with the derived values of the default PINs, and with it both PINs are set to these. What
the update writes is remembered in the memory and written back when something goes wrong.
-/

namespace PicoAll.Openpgp

open FaultProgram ByteBuffer

/-! ### The object -/

/-- `openpgp_kdf_off`. -/
def kdfOff : Bytes :=
  [0x81, 0x01, 0x00]

/-- `openpgp_kdf_field_t`. -/
structure KdfField where
  /-- The place. -/
  offset : ℕ
  tag : UInt8
  length : UInt8

/-- `openpgp_kdf_single_fields`. -/
def kdfSingleFields : List KdfField :=
  [⟨0, 0x81, 1⟩, ⟨3, 0x82, 1⟩, ⟨6, 0x83, 4⟩, ⟨12, 0x84, 8⟩, ⟨22, 0x87, 32⟩, ⟨56, 0x88, 32⟩]

/-- `openpgp_kdf_three_fields`. -/
def kdfThreeFields : List KdfField :=
  [⟨0, 0x81, 1⟩, ⟨3, 0x82, 1⟩, ⟨6, 0x83, 4⟩, ⟨12, 0x84, 8⟩, ⟨22, 0x85, 8⟩, ⟨32, 0x86, 8⟩,
    ⟨42, 0x87, 32⟩, ⟨76, 0x88, 32⟩]

/-- The values of PW1 and PW3 that an object comes with. -/
structure KdfPins where
  pw1 : Bytes
  pw3 : Bytes
  deriving DecidableEq

/-- The values in an object with these fields, if all of them are where they belong. The values are
the last two. -/
def kdfFieldPins (fields : List KdfField) (data : Bytes) : Option KdfPins :=
  if fields.all fun f ↦ data.getD f.offset 0 = f.tag ∧ data.getD (f.offset + 1) 0 = f.length then
    match fields.find? (·.tag = 0x87), fields.find? (·.tag = 0x88) with
    | some f1, some f3 => some ⟨slice data (f1.offset + 2) 32, slice data (f3.offset + 2) 32⟩
    | _, _ => none
  else
    none

/-- `openpgp_kdf_parse`. -/
def kdfParse (data : Bytes) : Option KdfPins :=
  if data = kdfOff then some ⟨defaultPw1, defaultPw3⟩
  else if data.length = 90 then kdfFieldPins kdfSingleFields data
  else if data.length = 110 then kdfFieldPins kdfThreeFields data
  else none

variable (C : CardCrypto)

/-- `openpgp_kdf_pin_is_factory_default`. -/
def kdfPinIsFactoryDefault (record value : Bytes) : Bool :=
  record.length = 34 ∧ record = pinRecord C value

/-- `openpgp_kdf_can_disable`. -/
def kdfCanDisable (d : CardDevice) : Bool :=
  let kdf := fileData d efKdf
  if !hasData d efKdf ∨ kdf.length = kdfOff.length then
    pinRecordMatchesValue C (fileData d efPw1) defaultPw1 &&
      pinRecordMatchesValue C (fileData d efPw3) defaultPw3
  else
    match kdfParse kdf with
    | none => false
    | some pins =>
      kdfPinIsFactoryDefault C (fileData d efPw1) pins.pw1 &&
        kdfPinIsFactoryDefault C (fileData d efPw3) pins.pw3

/-! ### The snapshot -/

/-- `OPENPGP_KDF_SNAPSHOT_SIZE`. -/
abbrev kdfSnapshotSize : ℕ := 128

/-- The files of `openpgp_kdf_snapshot_t`. -/
def kdfFiles : List ℕ :=
  [efKdf, efPw1, efPw3, efDekPw1, efDekPw3, efRc, efDekRc, efPwPriv, efPwRetries]

/-- `openpgp_kdf_snapshot_open`. -/
def kdfSnapshot (d : CardDevice) : List (ℕ × Option Bytes) :=
  kdfFiles.map fun fid ↦ (fid, if hasData d fid then d.read (.ef fid) else none)

/-- `openpgp_kdf_snapshot_restore_file`. -/
def kdfRestoreFile (saved : ℕ × Option Bytes) : CardProg Unit :=
  match saved.2 with
  | none => flashClear saved.1
  | some data => filePut saved.1 data

/-- `openpgp_kdf_snapshot_restore`. -/
def kdfRestore (snapshot : List (ℕ × Option Bytes)) : CardProg Unit :=
  snapshot.forM kdfRestoreFile

/-- `openpgp_kdf_clear_auth`. -/
def CardRam.clearAuth (ram : CardRam) : CardRam :=
  { ram with
    hasPw1 := false
    hasPw2 := false
    hasPw3 := false
    hasRc := false
    isUserAuthenticated := false
    sessionPw1 := List.replicate 32 0
    sessionRc := List.replicate 32 0
    sessionPw3 := List.replicate 32 0 }

/-! ### The update -/

/-- `openpgp_kdf_reseed_pin`. -/
def kdfReseedPin (slot : DekSlot) (value : Bytes) : CardProg Unit := do
  let sealed ← sealDek C (C.pinDeriveSession value)
  pinTxnStage C slot.pin (pinRecord C value) (C.pinDeriveSession value)
  storePin slot (pinRecord C value) sealed
  notePin (.entitled slot.pin)
  pinResetRetries slot.pin true

/-- The writes of `openpgp_kdf_update`. -/
def kdfWrites (data : Bytes) (pins : KdfPins) : CardProg Unit := do
  filePut efKdf data
  kdfReseedPin C .pw3 pins.pw3
  kdfReseedPin C .pw1 pins.pw1
  resetCodeDeactivate

/-- What `openpgp_kdf_update` does when something goes wrong. -/
def kdfRollback (snapshot : List (ℕ × Option Bytes)) : CardProg Unit := do
  releaseDek
  modifyRam (·.clearAuth)
  let _ ← resultOf (pinTxnDelete efPw1)
  let _ ← resultOf (pinTxnDelete efPw3)
  match ← resultOf (kdfRestore snapshot) with
  | .error _ => pure ()
  | .ok _ => scanFilesOpenpgp C

/-- What `openpgp_kdf_update` checks before it writes: the values, or the status word. -/
def kdfUpdateCheck (d : CardDevice) (data : Bytes) : Except UInt16 KdfPins :=
  if !d.ram.hasPw3 then .error swSecurityStatusNotSatisfied
  else
    match kdfParse data with
    | none => .error swWrongData
    | some pins =>
      if data.length = kdfOff.length ∧ !kdfCanDisable C d then .error swConditionsNotSatisfied
      else if kdfFiles.any fun fid ↦ (fileData d fid).length > kdfSnapshotSize then
        .error swMemoryFailure
      else .ok pins

/-- `openpgp_kdf_update`: if a write of the new PINs fails, the old files are written back. -/
def openpgpKdfUpdate (data : Bytes) : CardProg UInt16 := do
  let d ← getState
  match kdfUpdateCheck C d data with
  | .error sw => return sw
  | .ok pins =>
    match ← resultOf (loadDek C) with
    | .error _ => return swExecError
    | .ok _ =>
      match ← resultOf (kdfWrites C data pins) with
      | .error _ => do
        kdfRollback C (kdfSnapshot d)
        return swMemoryFailure
      | .ok _ => do
        modifyRam fun ram ↦
          (ram.setSession .pw1 (C.pinDeriveSession pins.pw1)).setSession .pw3
            (C.pinDeriveSession pins.pw3)
        releaseDek
        return swOk

end PicoAll.Openpgp
