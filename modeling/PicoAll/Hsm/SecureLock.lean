import PicoAll.Hsm.MasterKey

/-!
# The secure lock

`cmd_extras.c` of the HSM, as far as the secure lock goes. Under a key that is agreed upon the caller
sends a mask, with which ENABLE and DISABLE change the stored copies of the master key, and which
MASK keeps in memory for the session.

`load_mkek` takes the mask off a copy in the old format only, and then stores the copy in the new one,
without the mask. So whatever is done to the copies, a session that opens the master key leaves a
copy that opens without a mask (`openedMkek_unmasked`), and the lock does not hold of any master key
(`secure_lock_never`). Where there is a copy that ends before the mask does, ENABLE writes behind the
end of its buffer (`enable_outOfBounds`).
-/

namespace PicoAll

open FaultProgram BigEndian

/-! ### The command -/

/-- A mask: `MKEK_KEY_SIZE` bytes. -/
structure MkekMask where
  bytes : Bytes
  length_bytes : bytes.length = 32
  deriving DecidableEq

/-- `hsm_mse`. -/
structure HsmMseCrypto where
  /-- The keys that are agreed upon, and the response: of the number of the draw and a public key. -/
  keyAgreement : ℕ → Bytes → Option (Bytes × Bytes)
  /-- `hsm_mse_decrypt_ct`, under the keys. -/
  decryptCt : Bytes → Bytes → Option Bytes
  length_decryptCt : ∀ keys ct plain, decryptCt keys ct = some plain →
    plain.length + 16 = ct.length

variable (M : HsmMseCrypto)

theorem HsmMseCrypto.length_mask {keys ct plain : Bytes} (h : ct.length = 48)
    (hplain : plain ∈ M.decryptCt keys ct) : plain.length = 32 := by
  have hlen := M.length_decryptCt keys ct plain hplain
  omega

/-- The mask that a caller sends: it is checked that the data are `MKEK_KEY_SIZE + 16` bytes long. -/
def receiveMask (keys data : Bytes) (h : data.length = 48) : Option MkekMask :=
  (M.decryptCt keys data).pmap MkekMask.mk fun _ ↦ M.length_mask h

/-- ENABLE and DISABLE for one of the copies. The buffer is of the size of the copy, and bytes 16 to 47
of it are written, whether it has them or not. -/
def maskCopy (mask : MkekMask) (pin : HsmPin) : HsmProg Unit := do
  let d ← getState
  if (fileData d pin.mkek).length < 48 then FaultProgram.fail .outOfBounds
  else hsmFilePutDataIgnoring pin.mkek (mkekMasked (fileData d pin.mkek) (some mask.bytes))

/-- The first byte of the options, with the lock set or cleared. -/
def lockOptions (enable : Bool) (opts : ℕ) : UInt8 :=
  if enable then .ofNat (opts / 256) ||| 0x04 else .ofNat (opts / 256) &&& 0xfb

/-- `SECURE_LOCK_ENABLE` and `SECURE_LOCK_DISABLE`. -/
def switchLock (enable : Bool) (mask : MkekMask) : HsmProg UInt16 := do
  let d ← getState
  let opts := getDeviceOptions d
  (if hsmOption d hsmOptSecureLock = enable then pure ()
    else do
      maskCopy mask .user
      maskCopy mask .so)
  hsmFilePutDataIgnoring .devops [lockOptions enable opts, .ofNat opts]
  return swOk

/-- `SECURE_LOCK_MASK`. -/
def sendMask (mask : MkekMask) : HsmProg UInt16 := do
  let d ← getState
  (if hsmOption d hsmOptSecureLock then
      modifyRam fun ram ↦ { ram with mkekMask := some mask.bytes }
    else pure ())
  return swOk

/-- `SW_SECURE_MESSAGE_EXEC_ERROR`, when the button is not pressed. -/
abbrev swButtonTimeout : UInt16 := 0x6600

/-- `cmd_extras` with `CMD_SECURE_LOCK`, other than the key agreement. `keys` are those of `hsm_mse`. -/
def cmdSecureLock (keys : Option Bytes) (p2 : UInt8) (data : Bytes) (touched : Bool) :
    HsmProg UInt16 := do
  let d ← getState
  if !d.ram.isUserAuthenticated then return swSecurityStatusNotSatisfied
  else if !touched then return swButtonTimeout
  else if data = [] then return swWrongLength
  else if p2 ≠ 2 ∧ p2 ≠ 3 ∧ p2 ≠ 4 then return swOk
  else
    match keys with
    | none => return swCommandNotAllowed
    | some keys =>
      if h : data.length = 48 then
        match receiveMask M keys data h with
        | none => return swWrongData
        | some mask => if p2 = 3 then sendMask mask else switchLock (p2 = 2) mask
      else
        return swWrongLength

/-! ### Sessions -/

/-- A session of a PIN alone, under a key and with a mask, in which no write is disturbed. -/
def lockSession (d : HsmDevice) (mask : Option MkekMask) (pin : HsmPin) (key : Bytes) : HsmDevice :=
  { d with
    faults := fun _ ↦ []
    ram := { d.ram with
      hasSessionPin := false
      hasSessionSopin := false
      mkekMask := mask.map MkekMask.bytes }.openSession pin key }

/-- The master key that a session opens. -/
def openedMkek (C : HsmPinCrypto) (d : HsmDevice) (mask : Option MkekMask) (pin : HsmPin)
    (key : Bytes) : Option Bytes :=
  ((loadMkek C).result (lockSession d mask pin key) []).toOption

/-- The device when a session has opened the master key. -/
def afterOpening (C : HsmPinCrypto) (d : HsmDevice) (mask : Option MkekMask) (pin : HsmPin)
    (key : Bytes) : HsmDevice :=
  (loadMkek C).final (lockSession d mask pin key) []

/-- What a caller sends with a mask. -/
structure LockRequest (M : HsmMseCrypto) where
  /-- The keys that are agreed upon. -/
  keys : Bytes
  data : Bytes
  mask : MkekMask
  length_data : data.length = 48
  receive_eq : receiveMask M keys data length_data = some mask

/-- `cmd_extras`, sent by a user who is authenticated and touches the device. `p2` is 2 for ENABLE and
4 for DISABLE. -/
def LockRequest.send (r : LockRequest M) (p2 : UInt8) : HsmProg UInt16 := do
  modifyRam fun ram ↦ { ram with isUserAuthenticated := true }
  cmdSecureLock M (some r.keys) p2 r.data true

/-- The device after ENABLE. -/
def LockRequest.enabled (r : LockRequest M) (d : HsmDevice) : HsmDevice :=
  (r.send M 2).final d []

/-- **The lock.** -/
structure SecureLockHolds (C : HsmPinCrypto) (r : LockRequest M) (d : HsmDevice) : Prop where
  /-- ENABLE writes nothing but the copies and the options. -/
  bounded : (r.send M 2).result d [] ≠ .error (.code .outOfBounds)
  /-- What a session opened before ENABLE it opens with the mask after it. -/
  opens : ∀ pin key mkek, openedMkek C d none pin key = some mkek →
    openedMkek C (r.enabled M d) (some r.mask) pin key = some mkek
  /-- With no mask or another one nothing is opened, before a session with the mask and after it. -/
  closed : ∀ pin key, ∀ other ≠ some r.mask, openedMkek C (r.enabled M d) other pin key = none ∧
    openedMkek C (afterOpening C (r.enabled M d) (some r.mask) pin key) other pin key = none
  /-- DISABLE restores what was opened. -/
  restored : ∀ pin key, openedMkek C ((r.send M 4).final
    (afterOpening C (r.enabled M d) (some r.mask) pin key) []) none pin key =
      openedMkek C d none pin key

/-! ### What a session leaves -/

variable {A : Outcome → Prop} {C : HsmPinCrypto} {d : HsmDevice} {mask : Option MkekMask}
  {pin : HsmPin} {key mkek content : Bytes}

theorem lockSession_mask : (lockSession d mask pin key).ram.mkekMask = mask.map MkekMask.bytes := by
  cases pin <;> rfl

theorem lockSession_key : (lockSession d mask pin key).ram.sessionKey pin = key := by
  cases pin <;> rfl

/-- The copy that a session of one PIN reads is that of the PIN. -/
theorem mkekSource_lockSession :
    mkekSource (lockSession d mask pin key) =
      if fileData d pin.mkek = [] then none else some pin := by
  have hdata (f : HsmFile) : hsmFileHasData (lockSession d mask pin key) f = !(fileData d f).isEmpty :=
    rfl
  cases pin
  · rw [mkekSource, hdata, hdata]
    rcases h : fileData d HsmPin.user.mkek with - | ⟨b, bs⟩ <;> simp_all [lockSession,
      HsmRam.openSession, HsmPin.mkek]
  · rw [mkekSource, hdata, hdata]
    rcases h : fileData d HsmPin.so.mkek with - | ⟨b, bs⟩ <;> simp_all [lockSession,
      HsmRam.openSession, HsmPin.mkek]

/-- What is opened is of the size of a master key, whatever the mask. -/
theorem length_opened (h : openMkek C (mask.map MkekMask.bytes) key content = .ok mkek) :
    mkek.length = 48 := by
  refine length_openMkek_masked (fun bytes hbytes ↦ ?_) h
  obtain ⟨m, -, rfl⟩ := Option.map_eq_some_iff.mp hbytes
  exact m.length_bytes

/-- A copy that is not in the old format is opened without looking at the mask. -/
theorem openMkek_of_new (hnew : content.length ≠ mkekSizeOld) (mask : Option Bytes) :
    openMkek C mask key content = openMkek C none key content := by
  rw [openMkek, openMkek, if_neg hnew, if_neg hnew]

/-- A copy is stored under the session's key. -/
theorem wp_storeMkek_lockSession (hlen : mkek.length = 48) :
    wp A (storeMkek C (some mkek)) (fun _ d' ↦ openMkek C none key (fileData d' pin.mkek) = .ok mkek)
      (fun _ _ ↦ False) (lockSession d mask pin key) := by
  have hunder {d' : HsmDevice} (hfaults : d'.faults = fun _ ↦ []) (hkey : d'.ram.sessionKey pin = key) :
      wp A (storeMkekUnder C mkek pin)
        (fun _ d' ↦ openMkek C none key (fileData d' pin.mkek) = .ok mkek) (fun _ _ ↦ False) d' := by
    refine wp_get (wp_bind (wp_modifyRam (wp_hsmFilePutDataIgnoring_quiet ?_ ?_)))
    · intro o ho
      change o ∈ d'.faults pin.mkek at ho
      rw [hfaults] at ho
      exact absurd ho List.not_mem_nil
    · rw [fileData, Device.read_written_self, hkey]
      exact openMkek_encrypted hlen none _ key
  cases pin with
  | user =>
    refine wp_get (wp_ite (fun hnone ↦ absurd hnone (by simp [lockSession,
      HsmRam.openSession])) fun _ ↦ wp_bind (wp_modifyRam (wp_bind (wp_ite (fun _ ↦ ?_) fun hno ↦
        absurd rfl hno))))
    exact wp_mono (hunder rfl rfl) (fun _ _ h ↦ wp_ite (fun hso ↦ absurd hso (by simp [lockSession,
      HsmRam.openSession])) fun _ ↦ wp_pure h) fun _ _ h ↦ h
  | so =>
    refine wp_get (wp_ite (fun hnone ↦ absurd hnone (by simp [lockSession,
      HsmRam.openSession])) fun _ ↦ wp_bind (wp_modifyRam (wp_bind (wp_ite (fun huser ↦ absurd huser
        (by simp [lockSession, HsmRam.openSession])) fun _ ↦ wp_pure (wp_ite (fun _ ↦ ?_) fun hno ↦
        absurd rfl hno)))))
    exact hunder rfl rfl

/-- **What a session does**: it opens the copy of its PIN, and leaves one that opens without a mask. -/
theorem wp_loadMkek_lockSession :
    wp A (loadMkek C) (fun mkek d' ↦ openMkek C (mask.map MkekMask.bytes) key (fileData d pin.mkek) =
        .ok mkek ∧ openMkek C none key (fileData d' pin.mkek) = .ok mkek)
      (fun _ _ ↦ ∀ mkek, openMkek C (mask.map MkekMask.bytes) key (fileData d pin.mkek) ≠ .ok mkek)
      (lockSession d mask pin key) := by
  refine wp_get (wp_ite (fun hnone ↦ ?_) fun _ ↦ ?_)
  · cases pin <;> simp [lockSession, HsmRam.openSession] at hnone
  rw [mkekSource_lockSession]
  by_cases hempty : fileData d pin.mkek = []
  · rw [if_pos hempty, hempty]
    refine wp_fail fun mkek h ↦ ?_
    cases h
  rw [if_neg hempty]
  dsimp only
  rw [lockSession_mask, lockSession_key]
  refine wp_lift (fun mkek hopen ↦ ?_) fun r hr mkek hok ↦ ?_
  · replace hopen : openMkek C (mask.map MkekMask.bytes) key (fileData d pin.mkek) = .ok mkek := hopen
    refine wp_bind (wp_ite (fun _ ↦ ?_) fun hnew ↦ wp_pure (wp_pure ⟨hopen, ?_⟩))
    · exact wp_mono (wp_storeMkek_lockSession (length_opened hopen))
        (fun _ _ h ↦ wp_pure ⟨hopen, h⟩) fun _ _ hfalse ↦ hfalse.elim
    · exact (openMkek_of_new hnew _).symm.trans hopen
  · cases hr.symm.trans hok

/-- What a session opens is what the copy of its PIN opens to. -/
theorem openedMkek_eq_some_iff : openedMkek C d mask pin key = some mkek ↔
    openMkek C (mask.map MkekMask.bytes) key (fileData d pin.mkek) = .ok mkek := by
  have hsession : wp (fun _ ↦ True) (loadMkek C) _ _ (lockSession d mask pin key) :=
    wp_loadMkek_lockSession
  rw [openedMkek]
  rcases run_of_wp hsession (fun o (_ : o ∈ []) ↦ trivial) with ⟨mkek', hrun, hopen, -⟩ |
    ⟨e, hrun, hno⟩
  · rw [hrun, hopen]
    simp [Except.toOption]
  · rw [hrun]
    exact ⟨fun h ↦ absurd h (by simp [Except.toOption]), fun h ↦ absurd h (hno mkek)⟩

/-- **A session leaves a copy that opens without a mask.** -/
theorem openedMkek_unmasked (h : openedMkek C d mask pin key = some mkek) :
    openedMkek C (afterOpening C d mask pin key) none pin key = some mkek := by
  rw [openedMkek_eq_some_iff]
  rw [openedMkek] at h
  have hsession : wp (fun _ ↦ True) (loadMkek C) _ _ (lockSession d mask pin key) :=
    wp_loadMkek_lockSession
  rcases run_of_wp hsession (fun o (_ : o ∈ []) ↦ trivial) with ⟨mkek', hrun, -, hopen⟩ |
    ⟨e, hrun, -⟩
  · rw [hrun] at h
    obtain rfl := Option.some.inj h
    exact hopen
  · rw [hrun] at h
    cases h

theorem wp_maskCopy_short {bits : MkekMask} {Q : Unit → HsmDevice → Prop}
    (hshort : (fileData d pin.mkek).length < 48) :
    wp A (maskCopy bits pin) Q (fun e _ ↦ e = .code .outOfBounds) d :=
  wp_get (wp_refuse rfl fun hno ↦ absurd hshort hno)

/-- **ENABLE writes outside the copies** if one of them, such as one that is not there, ends before the
mask does. -/
theorem enable_outOfBounds (r : LockRequest M) (hlock : hsmOption d hsmOptSecureLock = false)
    (hquiet : d.faults = fun _ ↦ []) (hshort : (fileData d pin.mkek).length < 48) :
    (r.send M 2).result d [] = .error (.code .outOfBounds) := by
  have hswitch : wp (· = .ok) (switchLock true r.mask) (fun _ _ ↦ False)
      (fun e _ ↦ e = .code .outOfBounds)
      (d.setRam fun ram ↦ { ram with isUserAuthenticated := true }) := by
    refine wp_get (wp_bind (wp_ite (fun hset ↦ absurd (hlock.symm.trans hset) (by decide)) fun _ ↦ ?_))
    cases pin with
    | user => exact wp_bind (wp_maskCopy_short hshort)
    | so =>
      refine wp_bind (wp_get (wp_refuse rfl fun _ ↦ wp_hsmFilePutDataIgnoring_quiet
        (fun o ho ↦ ?_) (wp_maskCopy_short ?_)))
      · change o ∈ d.faults HsmPin.user.mkek at ho
        rw [hquiet] at ho
        exact absurd ho List.not_mem_nil
      · rw [fileData, Device.read_written_of_ne (by decide)]
        exact hshort
  have hsend : wp (· = .ok) (r.send M 2) (fun _ _ ↦ False) (fun e _ ↦ e = .code .outOfBounds) d := by
    refine wp_bind (wp_modifyRam (wp_get ?_))
    have hdata : r.data ≠ [] := fun h ↦ by simpa [h] using r.length_data
    simp only [Device.ram_setRam, Bool.not_true, Bool.false_eq_true, if_false, hdata, r.length_data,
      dite_true, r.receive_eq]
    exact hswitch
  rcases run_of_wp hsend (fun o (ho : o ∈ []) ↦ by cases ho) with ⟨_, _, hfalse⟩ | ⟨_, hrun, rfl⟩
  · exact hfalse.elim
  · exact hrun

/-- **The lock holds of no master key.** -/
theorem secure_lock_never (r : LockRequest M) (hopened : openedMkek C d none pin key = some mkek) :
    ¬ SecureLockHolds M C r d := by
  intro h
  have hmasked := h.opens pin key mkek hopened
  -- that session stores the copy without the mask
  have hnone := (h.closed pin key none (by simp)).2
  cases (openedMkek_unmasked hmasked).symm.trans hnone

/-! Two devices -/

/-- Keys and ciphertexts that hide nothing. -/
def plainMse : HsmMseCrypto where
  keyAgreement _ data := some (data, data)
  decryptCt _ ct := if 16 ≤ ct.length then some (ct.drop 16) else none
  length_decryptCt _ ct plain h := by
    split_ifs at h with hlen
    cases h
    rw [List.length_drop, Nat.sub_add_cancel hlen]

/-- A request with a mask of ones. -/
def requestOfOnes : LockRequest plainMse :=
  ⟨[], .replicate 48 1, ⟨.replicate 32 1, rfl⟩, rfl, rfl⟩

theorem secure_lock_never_start :
    ¬ SecureLockHolds plainMse plainHsmCrypto requestOfOnes hsmDeviceStart :=
  @secure_lock_never plainMse plainHsmCrypto hsmDeviceStart .user (plainHash [1])
    (.replicate 48 9) requestOfOnes (by decide +kernel)

/-- A device whose user PIN is 1, with copies of the master key in the old format. -/
def hsmDeviceOld : HsmDevice :=
  let copy : Bytes := .replicate 16 7 ++ .replicate 32 9 ++ .replicate 4 0
  { hsmDeviceStart with files :=
    { hsmDeviceStart.files with
      view := Function.update (Function.update hsmDeviceStart.files.view .mkek (some copy)) .mkekSo
        (some copy) } }

/-- In the new format the mask does not open the master key; in the old one it does, but then it opens
without a mask, and after DISABLE not at all. -/
theorem secure_lock_loses_mkek :
    (openedMkek plainHsmCrypto hsmDeviceStart none .user (plainHash [1]) = some (.replicate 48 9) ∧
      openedMkek plainHsmCrypto (requestOfOnes.enabled plainMse hsmDeviceStart)
        (some requestOfOnes.mask) .user (plainHash [1]) ≠ some (.replicate 48 9)) ∧
    (let old : Bytes := .replicate 16 7 ++ .replicate 32 9
      let enabled := requestOfOnes.enabled plainMse hsmDeviceOld
      let opened := afterOpening plainHsmCrypto enabled (some requestOfOnes.mask) .user (plainHash [1])
      let disabled := (requestOfOnes.send plainMse 4).final opened []
      openedMkek plainHsmCrypto hsmDeviceOld none .user (plainHash [1]) = some old ∧
      openedMkek plainHsmCrypto enabled (some requestOfOnes.mask) .user (plainHash [1]) = some old ∧
      openedMkek plainHsmCrypto opened none .user (plainHash [1]) = some old ∧
      openedMkek plainHsmCrypto disabled none .user (plainHash [1]) ≠ some old) := by
  decide +kernel

end PicoAll
