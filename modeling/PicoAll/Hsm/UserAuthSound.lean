import PicoAll.Hsm.UserAuth

/-!
# What user access rests on

While the caller has access to the keys of the user, the user PIN was presented last and was right, or,
with public key authentication, enough of the keys that are registered signed a challenge in the
session (`UserAccessSound`). This is an invariant of the runs that keep away from the five ways in which
the flag outlives its reason (`HsmAuthEvent.Careful`).
-/

namespace PicoAll

open FaultProgram HsmPinCommand List Bool Nat

/-! ### What a session says -/

/-- The PIN that was presented last, and whether it was right. -/
def lastPresented : List HsmAuthNote → Option (HsmPin × Bool)
  | [] => none
  | .presented pin correct :: _ => some (pin, correct)
  | .drawn _ :: notes => lastPresented notes
  | .accepted .. :: notes => lastPresented notes

/-- The challenge that was drawn last. -/
def lastDrawn : List HsmAuthNote → Option Bytes
  | [] => none
  | .drawn challenge :: _ => some challenge
  | .presented .. :: notes => lastDrawn notes
  | .accepted .. :: notes => lastDrawn notes

/-- A key, in a slot, signed the challenge that was drawn last. -/
def SignedFresh (C : HsmAuthCrypto) (session : List HsmAuthNote) (i : Fin maxPuk) (key : Bytes) :
    Prop :=
  ∃ after signature before challenge, session = after ++ .accepted i key signature :: before ∧
    lastDrawn before = some challenge ∧ C.pukVerify signature (pkaHash C challenge) key = true

/-- The key that is registered in a slot. -/
def registeredKey (s : HsmAuth) (i : Fin maxPuk) : Bytes :=
  fileData s.device (.puk i)

/-- Different registered keys signed a challenge, no fewer than the threshold, which is not zero. -/
def QuorumSigned (C : HsmAuthCrypto) (s : HsmAuth) : Prop :=
  pkaThreshold s.device ≠ 0 ∧ ∃ slots : Finset (Fin maxPuk),
    (pkaThreshold s.device).toNat ≤ slots.card ∧
    (∀ i ∈ slots, i < (pkaSlots s.device).toNat ∧ SignedFresh C s.session i (registeredKey s i)) ∧
    ∀ i ∈ slots, ∀ j ∈ slots,
      C.publicKey (registeredKey s i) = C.publicKey (registeredKey s j) → i = j

/-- The user PIN was presented last, and was right. -/
def UserPinLast (s : HsmAuth) : Prop :=
  lastPresented s.session = some (.user, true)

/-- What access rests on. -/
def AccessJustified (C : HsmAuthCrypto) (s : HsmAuth) : Prop :=
  if pkaEnabled s.device then
    QuorumSigned C s ∧ (hsmOption s.device hsmOptCombinedAuth → UserPinLast s)
  else
    UserPinLast s

/-- **Access is sound.** -/
structure UserAccessSound (C : HsmAuthCrypto) (s : HsmAuth) : Prop where
  /-- Access rests on the PIN or on a quorum of keys. -/
  access : s.device.ram.isUserAuthenticated = true → AccessJustified C s
  /-- No challenge makes a quorum twice. -/
  once : s.spent.Nodup
  /-- One that has made a quorum is not waited for any more. -/
  pending : ∀ draw challenge, s.challenge = some (draw, challenge) → draw ∉ s.spent

/-! ### What is asked of a run -/

/-- A PIN that is presented is taken: it is right and not blocked, its verifier is in the new format,
and the write of its counter succeeds. -/
structure PinTaken (P : HsmPinCrypto) (d : HsmDevice) (pin : HsmPin) (value : Bytes) : Prop where
  right : pinMatches P (fileData d pin.file) value = some true
  unblocked : fileReadUint8 d pin.retries ≠ 0
  written : d.outcome pin.retries = .ok
  format : (fileData d pin.file).length = 34

/-- The user PIN that a command sets in the name of the security officer. -/
def HsmPinCommand.newUserPin (d : HsmDevice) : HsmPinCommand → Option Bytes
  | resetRetry p1 p2 data => (resetRetryPlan d p1 p2 data).toOption.bind (·.newPin)
  | _ => none

/-- What is asked of a PIN that is presented. -/
def CarefulPin (P : HsmPinCrypto) (d : HsmDevice) (faults : HsmFile → List Outcome) (pin : HsmPin)
    (value : Bytes) : Prop :=
  if pkaEnabled d then
    -- if access depends on the PIN, it is the one of the user and right, or it is taken
    d.ram.isUserAuthenticated = true → hsmOption d hsmOptCombinedAuth →
      pin = .user ∧ pinMatches P (fileData d pin.file) value = some true ∨
        PinTaken P { d with faults := faults } pin value
  else
    -- it is not the right one of the security officer
    pin = .so → pinMatches P (fileData d pin.file) value = some true →
      fileReadUint8 d pin.retries = 0

/-- What is asked of an event. -/
def HsmAuthEvent.Careful (P : HsmPinCrypto) (C : HsmAuthCrypto) (s : HsmAuth) :
    HsmAuthEvent → Prop
  | pin c _ faults =>
    (∀ pin value, c.submission s.device = some (pin, value) →
      hsmFileHasData s.device pin.file = true → CarefulPin P s.device faults pin value) ∧
    (pkaEnabled s.device = true → pkaThreshold s.device ≠ 0 ∧
      (hsmOption s.device hsmOptCombinedAuth → c.newUserPin s.device = none))
  -- the threshold is not zero, and the key is not that of another slot
  | externalAuthenticate .. =>
    (pkaEnabled s.device = true → pkaThreshold s.device ≠ 0) ∧
    ∀ i, s.efPukAut = some i → ∀ j : Fin maxPuk, s.device.ram.pukStatus.getD j 0 = 1 →
      C.publicKey (registeredKey s j) = C.publicKey (registeredKey s i) → j = i
  -- a key that is replaced has not signed in the session
  | pukAuth p1 p2 _ _ => p1 = 1 → ∀ (i : Fin maxPuk) key signature,
      .accepted i key signature ∈ s.session → (i : ℕ) ≠ p2.toNat
  | _ => True

/-- What is asked of a run. -/
def CarefulAuthRun (P : HsmPinCrypto) (C : HsmAuthCrypto) : HsmAuth → List HsmAuthEvent → Prop
  | _, [] => True
  | s, event :: events => event.Careful P C s ∧ CarefulAuthRun P C (event.step P C s) events

/-- A session has just been opened. -/
structure HsmAuthStart (s : HsmAuth) : Prop where
  authenticated : s.device.ram.isUserAuthenticated = false
  hasSessionPin : s.device.ram.hasSessionPin = false
  pukStatus : s.device.ram.pukStatus = .replicate maxPuk 0
  challenge : s.challenge = none
  spent : s.spent = []

/-! ### What the check of a PIN leaves alone -/

/-- The files that access depends on. -/
def HsmFile.IsAuth : HsmFile → Prop
  | devops | pukaut | puk _ => True
  | _ => False

/-- The files that access depends on are the same. -/
def SameAuthView (d d' : HsmDevice) : Prop :=
  ∀ f : HsmFile, f.IsAuth → d'.files.view f = d.files.view f

/-- So are the signatures. -/
structure SameAuth (d d' : HsmDevice) : Prop where
  view : SameAuthView d d'
  status : d'.ram.pukStatus = d.ram.pukStatus

/-- So are access and the sessions. -/
structure AuthKept (d d' : HsmDevice) : Prop extends SameAuth d d' where
  authenticated : d'.ram.isUserAuthenticated = d.ram.isUserAuthenticated
  pinSession : d'.ram.hasSessionPin = d.ram.hasSessionPin
  sopinSession : d'.ram.hasSessionSopin = d.ram.hasSessionSopin

variable {A : Outcome → Prop} {P : HsmPinCrypto} {C : HsmAuthCrypto} {s : HsmAuth}
  {d d' d₁ d₂ : HsmDevice} {pin : HsmPin} {value : Bytes}

namespace SameAuthView

section

variable (h : SameAuthView d d')
include h

theorem fileData_eq {f : HsmFile} (hf : f.IsAuth) : fileData d' f = fileData d f := by
  rw [fileData, fileData, Device.read, Device.read, h f hf]

theorem pkaEnabled_eq : pkaEnabled d' = pkaEnabled d := by
  rw [pkaEnabled, pkaEnabled, hsmFileHasData, hsmFileHasData, fileReadUint8, fileReadUint8,
    h.fileData_eq (f := .pukaut) trivial]

theorem hsmOption_eq (option : ℕ) : hsmOption d' option = hsmOption d option := by
  rw [hsmOption, hsmOption, getDeviceOptions, getDeviceOptions, hsmFileHasData, hsmFileHasData,
    h.fileData_eq (f := .devops) trivial]

theorem pkaThreshold_eq : pkaThreshold d' = pkaThreshold d := by
  rw [pkaThreshold, pkaThreshold, h.fileData_eq (f := .pukaut) trivial]

theorem pkaSlots_eq : pkaSlots d' = pkaSlots d := by
  rw [pkaSlots, pkaSlots, h.fileData_eq (f := .pukaut) trivial]

end

end SameAuthView

namespace SameAuth

theorem refl (d : HsmDevice) : SameAuth d d :=
  ⟨fun _ _ ↦ rfl, rfl⟩

theorem trans (h : SameAuth d d₁) (h' : SameAuth d₁ d₂) : SameAuth d d₂ :=
  ⟨fun f hf ↦ (h'.view f hf).trans (h.view f hf), h'.status.trans h.status⟩

theorem pkaQuorumMet_eq (h : SameAuth d d') : pkaQuorumMet d' = pkaQuorumMet d := by
  rw [pkaQuorumMet, pkaQuorumMet, hsmFileHasData, hsmFileHasData,
    h.view.fileData_eq (f := .pukaut) trivial, h.status]

end SameAuth

namespace AuthKept

theorem refl (d : HsmDevice) : AuthKept d d :=
  ⟨.refl d, rfl, rfl, rfl⟩

theorem trans (h : AuthKept d d₁) (h' : AuthKept d₁ d₂) : AuthKept d d₂ :=
  ⟨h.toSameAuth.trans h'.toSameAuth, h'.authenticated.trans h.authenticated,
    h'.pinSession.trans h.pinSession, h'.sopinSession.trans h.sopinSession⟩

theorem attempted (d : HsmDevice) (f : HsmFile) : AuthKept d (d.attempted f) :=
  ⟨⟨fun _ _ ↦ rfl, rfl⟩, rfl, rfl, rfl⟩

theorem written (d : HsmDevice) {f : HsmFile} (hf : ¬f.IsAuth) (a : Option Bytes) :
    AuthKept d (d.written f a) :=
  ⟨⟨fun _ hg ↦ WriteBack.write_view_of_ne fun h ↦ hf (h ▸ hg), rfl⟩, rfl, rfl, rfl⟩

/-- A session that is open is opened again. -/
theorem openSession (h : AuthKept d d') (hopen : d.ram.hasSession pin = true) (key : Bytes) :
    AuthKept d (d'.setRam (·.openSession pin key)) := by
  refine ⟨⟨h.view, ?_⟩, ?_, ?_, ?_⟩
  · cases pin <;> exact h.status
  · cases pin <;> exact h.authenticated
  · cases pin with
    | user => exact hopen.symm
    | so => exact h.pinSession
  · cases pin with
    | user => exact h.sopinSession
    | so => exact hopen.symm

end AuthKept

/-- The device with a session of a PIN. -/
def withSession (d : HsmDevice) (pin : HsmPin) : HsmDevice :=
  d.setRam (·.openSession pin [])

/-- A session is opened. -/
theorem AuthKept.withSession (h : AuthKept d d') (pin : HsmPin) (key : Bytes) :
    AuthKept (withSession d pin) (d'.setRam (·.openSession pin key)) := by
  cases pin with
  | user => exact ⟨⟨h.view, h.status⟩, h.authenticated, rfl, h.sopinSession⟩
  | so => exact ⟨⟨h.view, h.status⟩, h.authenticated, h.pinSession, rfl⟩

theorem sameAuth_withSession (d : HsmDevice) (pin : HsmPin) : SameAuth d (withSession d pin) := by
  cases pin <;> exact ⟨fun _ _ ↦ rfl, rfl⟩

/-- `I` is about access and the sessions only. -/
def OfAuth (I : HsmDevice → Prop) : Prop :=
  ∀ d d', AuthKept d d' → I d → I d'

theorem AuthKept.ofAuth (d : HsmDevice) : OfAuth (AuthKept d) :=
  fun _ _ h h' ↦ h'.trans h

namespace OfAuth

variable {I : HsmDevice → Prop} (hI : OfAuth I)

include hI

theorem ram {g : HsmRam → HsmRam} (hg : ∀ d : HsmDevice, AuthKept d (d.setRam g)) :
    Preserves I (modifyRam g) :=
  fun _ d h ↦ wp_modifyRam ⟨hI d _ (hg d) h, trivial⟩

theorem put {f : HsmFile} (hf : ¬f.IsAuth) (a : Option Bytes) :
    Preserves I (FaultProgram.put HsmError.memory f a) :=
  .put (fun d ↦ hI d _ (.attempted d f)) fun d ↦ hI d _ (.written d hf a)

theorem putIgnoring {f : HsmFile} (hf : ¬f.IsAuth) (a : Option Bytes) :
    Preserves I (FaultProgram.putIgnoring HsmError.memory f a) :=
  .putIgnoring (fun d ↦ hI d _ (.attempted d f)) fun d ↦ hI d _ (.written d hf a)

theorem storeMkekUnder (mkek : Bytes) (pin : HsmPin) : Preserves I (storeMkekUnder P mkek pin) :=
  .get fun _ ↦ .bind (hI.ram fun d ↦ ⟨⟨fun _ _ ↦ rfl, rfl⟩, rfl, rfl, rfl⟩) fun _ _ ↦
    hI.putIgnoring (by cases pin <;> exact id) _

theorem storeMkek (mkek : Option Bytes) : Preserves I (storeMkek P mkek) := by
  refine .get fun d ↦ .ite (fun _ ↦ .fail _) fun _ ↦
    .bind (hI.ram fun d ↦ ⟨⟨fun _ _ ↦ rfl, rfl⟩, rfl, rfl, rfl⟩) fun _ _ ↦
    .bind (R := fun _ ↦ True) ?_ fun _ _ ↦ ?_
  · exact .ite (fun _ ↦ hI.storeMkekUnder _ _) fun _ ↦ .pure trivial
  · exact .ite (fun _ ↦ hI.storeMkekUnder _ _) fun _ ↦ .pure trivial

theorem loadMkek : Preserves I (loadMkek P) := by
  refine .get fun d ↦ .ite (fun _ ↦ .fail _) fun _ ↦ ?_
  rcases mkekSource d with - | pin
  · exact .fail _
  · refine .bind (.liftExcept fun _ _ ↦ trivial) fun mkek _ ↦ .bind (R := fun _ ↦ True) ?_
      fun _ _ ↦ .pure trivial
    exact .ite (fun _ ↦ hI.storeMkek _) fun _ ↦ .pure trivial

theorem note (note : HsmPinNote) : Preserves I (notePin note) :=
  hI.ram fun _ ↦ ⟨⟨fun _ _ ↦ rfl, rfl⟩, rfl, rfl, rfl⟩

theorem pinWrongRetry (pin : HsmPin) : Preserves I (pinWrongRetry pin) := by
  refine .get fun d ↦ .ite (fun _ ↦ ?_) fun _ ↦ .fail _
  exact .bind (hI.put (by cases pin <;> exact id) _) fun _ _ ↦
    .ite (fun _ ↦ .fail _) fun _ ↦ .pure trivial

theorem hsmPinResetRetries (pin : HsmPin) (force : Bool) :
    Preserves I (hsmPinResetRetries pin force) :=
  .get fun _ ↦ .ite (fun _ ↦ .fail _) fun _ ↦
    hI.put (by cases pin <;> exact id) _

end OfAuth

/-! ### The check of a PIN -/

/-- What `hsm_check_pin` begins with. -/
def checkBegun (d : HsmDevice) : HsmDevice :=
  d.setRam (·.beginCheck (pkaEnabled d))

/-- The device when a PIN is taken. -/
def checkGranted (d : HsmDevice) (pin : HsmPin) : HsmDevice :=
  (withSession (checkBegun d) pin).setRam fun ram ↦
    { ram with
      isUserAuthenticated := !pkaEnabled d ||
        pkaQuorumMet d && (!hsmOption d hsmOptCombinedAuth || pin = .user) }

theorem sameAuth_checkBegun (d : HsmDevice) : SameAuth d (checkBegun d) :=
  ⟨fun _ _ ↦ rfl, rfl⟩

theorem sameAuth_checkGranted (d : HsmDevice) (pin : HsmPin) : SameAuth d (checkGranted d pin) :=
  ⟨(sameAuth_withSession (checkBegun d) pin).view, (sameAuth_withSession (checkBegun d) pin).status⟩

/-- A PIN is not taken: at most a session is opened with it, if it is right. -/
structure CheckRefused (P : HsmPinCrypto) (d : HsmDevice) (pin : HsmPin) (value : Bytes)
    (d' : HsmDevice) : Prop where
  data : hsmFileHasData d pin.file = true
  kept : AuthKept (checkBegun d) d' ∨
    pinMatches P (fileData d pin.file) value = some true ∧ AuthKept (withSession (checkBegun d) pin) d'
  not_taken : ¬PinTaken P d pin value

/-- What `hsm_check_pin` does. -/
inductive CheckDone (P : HsmPinCrypto) (d : HsmDevice) (pin : HsmPin) (value : Bytes) (sw : UInt16)
    (d' : HsmDevice) : Prop
  | absent (hsw : sw ≠ swOk) (hdata : hsmFileHasData d pin.file = false) (h : AuthKept d d')
  | refused (hsw : sw ≠ swOk) (h : CheckRefused P d pin value d')
  | granted (hsw : sw = swOk) (hright : pinMatches P (fileData d pin.file) value = some true)
    (hne : fileReadUint8 d pin.retries ≠ 0) (h : AuthKept (checkGranted d pin) d')

theorem authKept_checkGranted (hsame : SameAuth d d')
    (hauth : d'.ram.isUserAuthenticated = (!pkaEnabled d ||
      pkaQuorumMet d && (!hsmOption d hsmOptCombinedAuth || decide (pin = .user))))
    (hpin : d'.ram.hasSessionPin = decide (pin = .user))
    (hsopin : d'.ram.hasSessionSopin = decide (pin = .so)) : AuthKept (checkGranted d pin) d' := by
  cases pin <;> exact ⟨⟨hsame.view, hsame.status⟩, hauth, hpin, hsopin⟩

theorem wp_grantPin_user {E : Exit HsmError → HsmDevice → Prop}
    (h : AuthKept (checkBegun d) d' ∨ AuthKept (withSession (checkBegun d) pin) d') :
    wp A (grantPin P pin value) (fun _ ↦ AuthKept (checkGranted d pin)) E d' := by
  have hsame : SameAuth d d' := by
    rcases h with h | h
    · exact (sameAuth_checkBegun d).trans h.toSameAuth
    · exact ((sameAuth_checkBegun d).trans (sameAuth_withSession _ pin)).trans h.toSameAuth
  -- the session of the other PIN is closed
  have hclosed : ∀ p, p ≠ pin → d'.ram.hasSession p = false := by
    intro p hp
    rcases h with h | h <;> cases p <;> cases pin
    all_goals first | exact absurd rfl hp | exact h.pinSession | exact h.sopinSession
  refine wp_get (wp_bind (wp_modifyRam (wp_bind (wp_modifyRam ?_))))
  generalize hd₁ : ((d'.setRam fun ram ↦ { ram with
    isUserAuthenticated := ram.isUserAuthenticated || !pkaEnabled d' }).setRam
      (·.openSession pin (P.pinDeriveSession value))) = d₁
  have hsame₁ : SameAuth d d₁ := by
    subst hd₁
    cases pin <;> exact ⟨hsame.view, hsame.status⟩
  have hpin : d₁.ram.hasSessionPin = decide (pin = .user) := by
    subst hd₁
    cases pin with
    | user => rfl
    | so => exact hclosed .user (by decide)
  have hsopin : d₁.ram.hasSessionSopin = decide (pin = .so) := by
    subst hd₁
    cases pin with
    | user => exact hclosed .so (by decide)
    | so => rfl
  have hauth : d₁.ram.isUserAuthenticated = (d'.ram.isUserAuthenticated || !pkaEnabled d') := by
    subst hd₁
    cases pin <;> rfl
  refine wp_get (wp_ite (fun hpka ↦ wp_modifyRam ?_) fun hpka ↦ wp_pure ?_)
  · refine authKept_checkGranted ⟨hsame₁.view, hsame₁.status⟩ ?_ hpin hsopin
    rw [hsame₁.pkaQuorumMet_eq, hsame₁.view.hsmOption_eq, hpin, ← hsame₁.view.pkaEnabled_eq, hpka]
    rfl
  · refine authKept_checkGranted hsame₁ ?_ hpin hsopin
    rw [hsame₁.view.pkaEnabled_eq, Bool.not_eq_true] at hpka
    rw [hauth, hsame.view.pkaEnabled_eq, hpka, Bool.not_false, Bool.or_true, Bool.true_or]

/-- The upgrade of a verifier leaves a session open. -/
theorem wp_upgradePin_auth (h : AuthKept (checkBegun d) d') :
    wp A (upgradePin P pin value) (fun _ ↦ AuthKept (withSession (checkBegun d) pin))
      (fun _ ↦ AuthKept (withSession (checkBegun d) pin)) d' := by
  have hI := AuthKept.ofAuth (withSession (checkBegun d) pin)
  have hopen : (withSession (checkBegun d) pin).ram.hasSession pin = true := by cases pin <;> rfl
  have hsession : ∀ key, Preserves (AuthKept (withSession (checkBegun d) pin))
      (modifyRam (·.openSession pin key)) := fun key _ _ h ↦
    wp_modifyRam ⟨h.openSession hopen key, trivial⟩
  refine wp_bind (wp_modifyRam ?_)
  refine wp_mono ((Keeps.bind hI.loadMkek fun mkek _ ↦ .bind (hsession _) fun _ _ ↦
    .bind (hI.storeMkek _) fun _ _ ↦ hI.put (by cases pin <;> exact id) _ :
      Preserves _ _) A _ (h.withSession pin _)) (fun _ _ h ↦ h.1) fun _ _ h ↦ h

/-- **The check of a PIN.** -/
theorem wp_hsmCheckPin_auth : wp A (hsmCheckPin P pin value) (CheckDone P d pin value)
    (fun _ ↦ CheckRefused P d pin value) d := by
  refine wp_get (wp_ite (fun h ↦ ?_) fun hdata ↦ wp_bind (wp_modifyRam ?_))
  · exact wp_pure (.absent (by decide) (by simpa using h) (.refl d))
  have hdata : hsmFileHasData d pin.file = true := by simpa using hdata
  have hI := AuthKept.ofAuth (checkBegun d)
  have hnoted : ∀ note, AuthKept (checkBegun d) (withNote (checkBegun d) note) := fun _ ↦
    ⟨⟨fun _ _ ↦ rfl, rfl⟩, rfl, rfl, rfl⟩
  rcases hmatch : pinMatches P (fileData d pin.file) value with - | _ | _
  · exact wp_pure (.refused (by decide) ⟨hdata, .inl (.refl _), fun h ↦
      absurd (h.right.symm.trans hmatch) (by simp)⟩)
  · have hrefused : ∀ d', AuthKept (checkBegun d) d' → CheckRefused P d pin value d' := fun d' h ↦
      ⟨hdata, .inl h, fun h ↦ absurd (h.right.symm.trans hmatch) (by simp)⟩
    refine wp_bind (wp_notePin (wp_seq ((hI.pinWrongRetry pin).resultOf A _ (hnoted _))
      (fun r d' hd' ↦ ?_) fun _ d' hd' ↦ hrefused d' hd'))
    rcases r with r | retries
    · exact wp_pure (.refused (by decide) (hrefused d' hd'.1))
    · exact wp_pure (.refused (swRetries_ne_swOk retries) (hrefused d' hd'.1))
  · have hrefused : ∀ d', AuthKept (checkBegun d) d' → ¬PinTaken P d pin value →
        CheckRefused P d pin value d' := fun d' h hnot ↦ ⟨hdata, .inl h, hnot⟩
    have hfile : ¬pin.retries.IsAuth := by cases pin <;> exact id
    refine wp_bind (wp_notePin (wp_bind (wp_resultOf (wp_get (wp_ite (fun hzero ↦
      wp_fail ?_) fun hne ↦ wp_put (fun hok ↦ ?_) (fun hfail ↦ ?_) (fun hlate ↦ ?_) fun hcut ↦ ?_)))))
    · exact wp_pure (.refused (by decide) (hrefused _ (hnoted _) fun h ↦ h.unblocked hzero.1))
    · have hne : fileReadUint8 d pin.retries ≠ 0 := fun h ↦ hne ⟨h, rfl⟩
      have hraised := (hnoted (.compared pin (fileReadUint8 d pin.retries) true)).trans
        (.written _ hfile (some [fileReadUint8 d pin.maxRetries]))
      have hupgrade : wp A
          (if (fileData d pin.file).length = 33 then upgradePin P pin value else pure ())
          (fun _ d' ↦ AuthKept (checkBegun d) d' ∨ AuthKept (withSession (checkBegun d) pin) d')
          (fun _ d' ↦ AuthKept (withSession (checkBegun d) pin) d' ∧
            (fileData d pin.file).length = 33) _ :=
        wp_ite (fun h33 ↦ wp_mono (wp_upgradePin_auth hraised) (fun _ _ h ↦ .inr h) fun _ _ h ↦ ⟨h, h33⟩)
          fun _ ↦ wp_pure (.inl hraised)
      have hhalf : ∀ d', AuthKept (withSession (checkBegun d) pin) d' ∧
          (fileData d pin.file).length = 33 → CheckRefused P d pin value d' := fun d' h ↦
        ⟨hdata, .inr ⟨hmatch, h.1⟩, fun htaken ↦ by have h34 := htaken.format; omega⟩
      refine wp_bind (wp_resultOf (wp_mono hupgrade (fun _ d' hd' ↦ ?_) fun e d' hd' ↦ ?_))
      · exact wp_then (wp_grantPin_user hd') fun _ _ h ↦ wp_pure (.granted rfl hmatch hne h)
      · rcases e with r | -
        · exact wp_pure (.refused (by decide) (hhalf d' hd'))
        · exact hhalf d' hd'
    · exact wp_pure (.refused (by decide) (hrefused _ ((hnoted _).trans (.attempted _ _)) fun h ↦
        absurd (h.written.symm.trans hfail) (by decide)))
    · exact wp_pure (.refused (by decide) (hrefused _ ((hnoted _).trans (.written _ hfile _)) fun h ↦
        absurd (h.written.symm.trans hlate) (by decide)))
    · exact hrefused _ ((hnoted _).trans (.attempted _ _)) fun h ↦
        absurd (h.written.symm.trans hcut) (by decide)

/-! ### The commands that check a PIN -/

/-- What a command that checks a PIN does, but for a session of the user that it opens. -/
inductive PinBase (P : HsmPinCrypto) (d : HsmDevice) (c : HsmPinCommand) (d' : HsmDevice) : Prop
  | idle (hnotes : pinNotes P d c = []) (h : AuthKept d d')
  | refused {pin : HsmPin} {value : Bytes} (hsub : c.submission d = some (pin, value))
    (h : CheckRefused P d pin value d')
  | granted {pin : HsmPin} {value : Bytes} (hsub : c.submission d = some (pin, value))
    (hright : pinMatches P (fileData d pin.file) value = some true)
    (hne : fileReadUint8 d pin.retries ≠ 0) (h : AuthKept (checkGranted d pin) d')

/-- What a command that checks a PIN does. -/
def PinEffect (P : HsmPinCrypto) (d : HsmDevice) (c : HsmPinCommand) (d' : HsmDevice) : Prop :=
  PinBase P d c d' ∨ c.newUserPin d ≠ none ∧ ∃ d₁, PinBase P d c d₁ ∧ AuthKept (withSession d₁ .user) d'

variable {c : HsmPinCommand}

theorem PinBase.kept (h : PinBase P d c d') (h' : AuthKept d' d₂) : PinBase P d c d₂ := by
  cases h with
  | idle hnotes h => exact .idle hnotes (h.trans h')
  | refused hsub h =>
    exact .refused hsub ⟨h.data, h.kept.imp (·.trans h') (.imp_right (·.trans h')), h.not_taken⟩
  | granted hsub hright hne h => exact .granted hsub hright hne (h.trans h')

theorem pinNotes_of_none (h : c.submission d = none) : pinNotes P d c = [] := by
  rw [pinNotes, h]

theorem CheckDone.base {sw : UInt16} (hsub : c.submission d = some (pin, value))
    (h : CheckDone P d pin value sw d') : PinBase P d c d' := by
  cases h with
  | absent hsw hdata h =>
    refine .idle ?_ h
    rw [pinNotes, hsub]
    dsimp only
    rw [hdata]
    rfl
  | refused hsw h => exact .refused hsub h
  | granted hsw hright hne h => exact .granted hsub hright hne h

/-- A PIN is set: the keys of the session are new. -/
theorem wp_replacePin_auth {newPin : Bytes} (h : AuthKept d d') :
    wp A (replacePin P pin newPin) (fun _ d₂ ↦ AuthKept d d₂ ∨ AuthKept (withSession d pin) d₂)
      (fun _ d₂ ↦ AuthKept d d₂ ∨ AuthKept (withSession d pin) d₂) d' := by
  have hI := AuthKept.ofAuth d
  have hJ := AuthKept.ofAuth (withSession d pin)
  refine wp_seq (hI.loadMkek.resultOf A d' h) (fun r d₁ hd₁ ↦ ?_) fun _ _ h ↦ .inl h
  rcases r with r | mkek
  · exact wp_pure (.inl hd₁.1)
  refine wp_bind (wp_modifyRam (wp_mono (Q := fun _ d₂ ↦ AuthKept (withSession d pin) d₂ ∧ True)
    (E := fun _ ↦ AuthKept (withSession d pin)) ?_ (fun _ _ h ↦ .inr h.1) fun _ _ h ↦ .inr h))
  refine (Keeps.bind (hJ.storeMkek (some mkek)).resultOf fun r _ ↦ ?_ :
    Preserves (AuthKept (withSession d pin)) _) A _ (hd₁.1.withSession pin _)
  rcases r with r | r
  · exact .pure trivial
  · exact .bind (hJ.putIgnoring (by cases pin <;> exact id) _) fun _ _ ↦ .pure trivial

/-- **A command that checks a PIN.** -/
theorem wp_pinCommand (hc : c.ChecksPin) :
    wp A (c.run P) (fun _ ↦ PinEffect P d c) (fun _ ↦ PinEffect P d c) d := by
  cases c with
  | initializeHsm data => exact hc.elim
  | verify p1 p2 data =>
    refine wp_get ?_
    rcases htarget : verifyTarget d p1 p2 data with sw | ⟨pin, value⟩
    · exact wp_pure (.inl (.idle (pinNotes_of_none (by rw [submission, htarget]; rfl)) (.refl d)))
    · have hsub : submission d (.verify p1 p2 data) = some (pin, value) := by
        rw [submission, htarget]
        rfl
      exact wp_mono wp_hsmCheckPin_auth (fun _ _ h ↦ .inl (h.base hsub)) fun _ _ h ↦
        .inl (.refused hsub h)
  | changePin p1 p2 data =>
    refine wp_get ?_
    rcases hplan : changePinPlan d p1 p2 data with sw | plan
    · exact wp_pure (.inl (.idle (pinNotes_of_none (by rw [submission, hplan]; rfl)) (.refl d)))
    · have hsub : submission d (.changePin p1 p2 data) = some (plan.pin, plan.value) := by
        rw [submission, hplan]
        rfl
      refine wp_seq wp_hsmCheckPin_auth (fun sw d₁ hd₁ ↦ wp_return (.inl (hd₁.base hsub)) fun hsw ↦
        ?_) fun _ _ h ↦ .inl (.refused hsub h)
      cases hd₁ with
      | absent hne => exact absurd (not_not.mp hsw) hne
      | refused hne => exact absurd (not_not.mp hsw) hne
      | granted _ hright hne h =>
        -- the session of the PIN is open already
        have hopen : (checkGranted d plan.pin).ram.hasSession plan.pin = true := by
          cases plan.pin <;> rfl
        have hagain : AuthKept (checkGranted d plan.pin)
            (withSession (checkGranted d plan.pin) plan.pin) := (AuthKept.refl _).openSession hopen []
        have hkept : ∀ d₂, AuthKept (checkGranted d plan.pin) d₂ ∨
            AuthKept (withSession (checkGranted d plan.pin) plan.pin) d₂ →
            PinEffect P d (.changePin p1 p2 data) d₂ := fun d₂ h ↦
          .inl (.granted hsub hright hne (h.elim id hagain.trans))
        exact wp_mono (wp_replacePin_auth h) (fun _ d₂ ↦ hkept d₂) fun _ d₂ ↦ hkept d₂
  | resetRetry p1 p2 data =>
    refine wp_get ?_
    rcases hplan : resetRetryPlan d p1 p2 data with sw | ⟨soPin, newPin⟩
    · exact wp_pure (.inl (.idle (pinNotes_of_none (by rw [submission, hplan]; rfl)) (.refl d)))
    have hnew : newUserPin d (.resetRetry p1 p2 data) = newPin := by
      rw [newUserPin, hplan]
      rfl
    refine wp_bind (wp_mono (Q := fun _ ↦ PinBase P d (.resetRetry p1 p2 data))
      (E := fun _ ↦ PinBase P d (.resetRetry p1 p2 data)) ?_ (fun sw d₁ hd₁ ↦ ?_) fun _ _ h ↦ .inl h)
    · rcases soPin with - | value
      · exact wp_pure (.idle (pinNotes_of_none (by rw [submission, hplan]; rfl)) (.refl d))
      · have hsub : submission d (.resetRetry p1 p2 data) = some (.so, value) := by
          rw [submission, hplan]
          rfl
        exact wp_mono wp_hsmCheckPin_auth (fun _ _ h ↦ h.base hsub) fun _ _ h ↦ .refused hsub h
    refine wp_return (.inl hd₁) fun _ ↦ ?_
    have hI := AuthKept.ofAuth d₁
    refine wp_seq (hI.note .soReset A d₁ (.refl d₁)) (fun _ d₂ hd₂ ↦ ?_)
      fun _ _ h ↦ .inl (hd₁.kept h)
    refine wp_seq ((hI.hsmPinResetRetries .user true).resultOf A d₂ hd₂.1)
      (fun r d₃ hd₃ ↦ ?_) fun _ _ h ↦ .inl (hd₁.kept h)
    rcases r with r | r
    · exact wp_pure (.inl (hd₁.kept hd₃.1))
    rcases newPin with - | newPin
    · exact wp_pure (.inl (hd₁.kept hd₃.1))
    · have hset : ∀ d₄, AuthKept d₁ d₄ ∨ AuthKept (withSession d₁ .user) d₄ →
          PinEffect P d (.resetRetry p1 p2 data) d₄ := fun d₄ h ↦
        h.elim (fun h ↦ .inl (hd₁.kept h)) fun h ↦ .inr ⟨by simp [hnew], d₁, hd₁, h⟩
      exact wp_mono (wp_replacePin_auth hd₃.1) (fun _ d₄ ↦ hset d₄) fun _ d₄ ↦ hset d₄

/-! ### Quorums -/

theorem toNat_sum_le_count {l : List UInt8} (h : ∀ b ∈ l, b = 0 ∨ b = 1) :
    l.sum.toNat ≤ l.count 1 := by
  induction l with
  | nil => exact zero_le _
  | cons b l ih =>
    have ih := ih fun b hb ↦ h b (mem_cons_of_mem _ hb)
    have hle : (b + l.sum).toNat ≤ b.toNat + l.sum.toNat := by
      exact mod_le _ _
    rcases h b (mem_cons_self ..) with rfl | rfl
    · rw [count_cons_of_ne (by decide)]
      exact hle.trans (by simpa using ih)
    · rw [count_cons_self]
      exact hle.trans (by simpa [add_comm] using ih)

theorem count_take_le_card {l : List UInt8} {k : ℕ} (n : ℕ) (hlen : l.length = k) :
    (l.take n).count 1 ≤ (Finset.univ.filter fun i : Fin k ↦ i < n ∧ l.getD i 0 = 1).card := by
  induction l generalizing k n with
  | nil => simp
  | cons b l ih =>
    obtain ⟨k, rfl⟩ : ∃ k', k = k' + 1 := ⟨l.length, hlen.symm⟩
    rcases n with - | n
    · simp
    have ih := ih n (Nat.succ.inj hlen)
    rw [Fin.card_filter_univ_succ, take_succ_cons]
    have hrest : (Finset.univ.filter fun i : Fin k ↦
        (i.succ : ℕ) < n + 1 ∧ (b :: l).getD i.succ 0 = 1) =
          Finset.univ.filter fun i : Fin k ↦ i < n ∧ l.getD i 0 = 1 :=
      Finset.filter_congr fun i _ ↦ by simp
    rw [hrest]
    by_cases hb : b = 1
    · rw [if_pos ⟨succ_pos n, hb⟩, hb, count_cons_self]
      exact succ_le_succ ih
    · rw [if_neg fun h ↦ hb h.2, count_cons_of_ne hb]
      exact ih

/-! ### What a session proves -/

variable {session : List HsmAuthNote} {key data : Bytes} {faults : HsmFile → List Outcome}
  {p1 p2 : UInt8} {event : HsmAuthEvent}

theorem SignedFresh.append {i : Fin maxPuk} (h : SignedFresh C session i key)
    (notes : List HsmAuthNote) : SignedFresh C (notes ++ session) i key := by
  obtain ⟨after, signature, before, challenge, rfl, hdrawn, hverify⟩ := h
  exact ⟨notes ++ after, signature, before, challenge, (append_assoc ..).symm, hdrawn, hverify⟩

theorem SignedFresh.mem {i : Fin maxPuk} (h : SignedFresh C session i key) :
    ∃ signature, .accepted i key signature ∈ session := by
  obtain ⟨after, signature, before, challenge, rfl, -, -⟩ := h
  exact ⟨signature, mem_append_right _ (mem_cons_self ..)⟩

theorem SignedFresh.key_ne_nil {i : Fin maxPuk} (h : SignedFresh C session i key) : key ≠ [] := by
  rintro rfl
  obtain ⟨after, signature, before, challenge, -, -, hverify⟩ := h
  exact absurd hverify (by simp [C.not_pukVerify_nil])

/-- `puk_status` of a slot. -/
def pukStatusOf (s : HsmAuth) (i : Fin maxPuk) : UInt8 :=
  s.device.ram.pukStatus.getD i 0

/-- What a run keeps. -/
structure AuthHeld (C : HsmAuthCrypto) (s : HsmAuth) : Prop where
  length : s.device.ram.pukStatus.length = maxPuk
  status : ∀ i, pukStatusOf s i = 0 ∨
    pukStatusOf s i = 1 ∧ SignedFresh C s.session i (registeredKey s i)
  distinct : ∀ i j, pukStatusOf s i = 1 → pukStatusOf s j = 1 →
    C.publicKey (registeredKey s i) = C.publicKey (registeredKey s j) → i = j
  access : s.device.ram.isUserAuthenticated = true → AccessJustified C s
  pinSession : pkaEnabled s.device = true → hsmOption s.device hsmOptCombinedAuth = true →
    s.device.ram.hasSessionPin = true → UserPinLast s
  pending : ∀ draw challenge, s.challenge = some (draw, challenge) →
    lastDrawn s.session = some challenge ∧ draw ∉ s.spent ∧ draw < s.draws
  once : s.spent.Nodup
  spent_lt : ∀ draw ∈ s.spent, draw < s.draws

theorem AuthHeld.sound (h : AuthHeld C s) : UserAccessSound C s :=
  ⟨h.access, h.once, fun draw challenge hpending ↦ (h.pending draw challenge hpending).2.1⟩

/-- A quorum that is met is one of keys that signed. -/
theorem AuthHeld.quorum (h : AuthHeld C s) (hne : pkaThreshold s.device ≠ 0)
    (hmet : pkaQuorumMet s.device = true) : QuorumSigned C s := by
  have hsigned : ∀ i, pukStatusOf s i = 1 → SignedFresh C s.session i (registeredKey s i) :=
    fun i hi ↦ (h.status i).elim (fun h ↦ absurd (hi.symm.trans h) (by decide)) And.right
  refine ⟨hne, Finset.univ.filter fun i : Fin maxPuk ↦
    i < (pkaSlots s.device).toNat ∧ pukStatusOf s i = 1, ?_, fun i hi ↦ ?_, fun i hi j hj ↦ ?_⟩
  · obtain ⟨-, hle⟩ := and_eq_true_iff.mp hmet
    have hle := UInt8.le_iff_toNat_le.mp (of_decide_eq_true hle)
    have hbits : ∀ b ∈ s.device.ram.pukStatus.take (min (pkaSlots s.device).toNat maxPuk),
        b = 0 ∨ b = 1 := by
      intro b hb
      obtain ⟨i, hi, rfl⟩ := mem_iff_getElem.mp (mem_of_mem_take hb)
      have hstatus := h.status ⟨i, h.length ▸ hi⟩
      rw [pukStatusOf, getD_eq_getElem _ _ hi] at hstatus
      exact hstatus.imp_right And.left
    refine (hle.trans (toNat_sum_le_count hbits)).trans ((count_take_le_card _ h.length).trans ?_)
    refine Finset.card_le_card fun i hi ↦ ?_
    obtain ⟨-, hlt, hone⟩ := Finset.mem_filter.mp hi
    exact Finset.mem_filter.mpr ⟨Finset.mem_univ _, hlt.trans_le (min_le_left _ _), hone⟩
  · obtain ⟨-, hlt, hone⟩ := Finset.mem_filter.mp hi
    exact ⟨hlt, hsigned i hone⟩
  · exact h.distinct i j (Finset.mem_filter.mp hi).2.2 (Finset.mem_filter.mp hj).2.2

theorem AccessJustified.of_keys (hpka : pkaEnabled s.device = true) (h : QuorumSigned C s)
    (hpin : hsmOption s.device hsmOptCombinedAuth = true → UserPinLast s) : AccessJustified C s := by
  rw [AccessJustified, if_pos hpka]
  exact ⟨h, hpin⟩

theorem AccessJustified.of_pin (hpka : pkaEnabled s.device = false) (h : UserPinLast s) :
    AccessJustified C s := by
  rw [AccessJustified, if_neg (by rw [hpka]; decide)]
  exact h

section Renew

variable {s' : HsmAuth} (hsame : SameAuthView s.device s'.device)

include hsame

theorem registeredKey_of_view (i : Fin maxPuk) : registeredKey s' i = registeredKey s i :=
  hsame.fileData_eq trivial

variable {l : List HsmAuthNote}

theorem QuorumSigned.renew (h : QuorumSigned C s) (hsession : s'.session = l ++ s.session) :
    QuorumSigned C s' := by
  obtain ⟨hne, slots, hcard, hslots, hdistinct⟩ := h
  rw [← hsame.pkaThreshold_eq] at hne hcard
  refine ⟨hne, slots, hcard, fun i hi ↦ ?_, fun i hi j hj ↦ ?_⟩
  · rw [registeredKey_of_view hsame, hsession, hsame.pkaSlots_eq]
    exact ⟨(hslots i hi).1, (hslots i hi).2.append l⟩
  · rw [registeredKey_of_view hsame, registeredKey_of_view hsame]
    exact hdistinct i hi j hj

/-- Nothing that access rests on changes. -/
theorem AccessJustified.renew (h : AccessJustified C s) (hsession : s'.session = l ++ s.session)
    (hlast : lastPresented s'.session = lastPresented s.session) : AccessJustified C s' := by
  rw [AccessJustified, UserPinLast] at h ⊢
  rw [hsame.pkaEnabled_eq, hsame.hsmOption_eq, hlast]
  split_ifs with hpka
  · rw [if_pos hpka] at h
    exact ⟨h.1.renew hsame hsession, h.2⟩
  · rw [if_neg hpka] at h
    exact h

end Renew

/-- Something is noted, and access is what it should be. -/
theorem AuthHeld.renew (h : AuthHeld C s) {s' : HsmAuth} (hsame : SameAuth s.device s'.device)
    {notes : List HsmAuthNote}
    (hsession : s'.session = notes ++ s.session)
    (hpending : ∀ draw challenge, s'.challenge = some (draw, challenge) →
      lastDrawn s'.session = some challenge ∧ draw ∉ s'.spent ∧ draw < s'.draws)
    (honce : s'.spent.Nodup) (hspent : ∀ draw ∈ s'.spent, draw < s'.draws)
    (haccess : s'.device.ram.isUserAuthenticated = true → AccessJustified C s')
    (hpin : pkaEnabled s.device = true → hsmOption s.device hsmOptCombinedAuth = true →
      s'.device.ram.hasSessionPin = true → UserPinLast s') : AuthHeld C s' := by
  have hstatus : ∀ i, pukStatusOf s' i = pukStatusOf s i := fun i ↦ by
    rw [pukStatusOf, hsame.status, pukStatusOf]
  exact {
    length := hsame.status ▸ h.length
    status i := by
      rw [hstatus, registeredKey_of_view hsame.view, hsession]
      exact (h.status i).imp_right (.imp_right (·.append notes))
    distinct i j := by
      rw [hstatus, hstatus, registeredKey_of_view hsame.view, registeredKey_of_view hsame.view]
      exact h.distinct i j
    access := haccess
    pinSession := by
      rw [hsame.view.pkaEnabled_eq, hsame.view.hsmOption_eq]
      exact hpin
    pending := hpending
    once := honce
    spent_lt := hspent }


/-! ### PINs -/

theorem PinBase.sameAuth (h : PinBase P d c d') : SameAuth d d' := by
  cases h with
  | idle hnotes h => exact h.toSameAuth
  | refused hsub h =>
    rcases h.kept with h | ⟨-, h⟩
    · exact (sameAuth_checkBegun d).trans h.toSameAuth
    · exact ((sameAuth_checkBegun d).trans (sameAuth_withSession _ _)).trans h.toSameAuth
  | granted hsub hright hne h => exact (sameAuth_checkGranted d _).trans h.toSameAuth

/-- Access is what it is before a session of the user is opened. -/
theorem PinEffect.base (h : PinEffect P d c d') : ∃ d₁, PinBase P d c d₁ ∧
    SameAuth d d' ∧ d'.ram.isUserAuthenticated = d₁.ram.isUserAuthenticated ∧
      (c.newUserPin d = none → d'.ram.hasSessionPin = d₁.ram.hasSessionPin) := by
  rcases h with h | ⟨hnew, d₁, h, h'⟩
  · exact ⟨d', h, h.sameAuth, rfl, fun _ ↦ rfl⟩
  · exact ⟨d₁, h, (h.sameAuth.trans (sameAuth_withSession _ _)).trans h'.toSameAuth, h'.authenticated,
      fun hnone ↦ absurd hnone hnew⟩

theorem PinEffect.off (h : PinEffect P d c d') :
    PinEffect P d c (d'.setRam fun ram ↦ { ram with off := true }) := by
  have hkept : AuthKept d' (d'.setRam fun ram ↦ { ram with off := true }) :=
    ⟨⟨fun _ _ ↦ rfl, rfl⟩, rfl, rfl, rfl⟩
  rcases h with h | ⟨hnew, d₁, h, h'⟩
  · exact .inl (h.kept hkept)
  · exact .inr ⟨hnew, d₁, h, h'.trans hkept⟩

theorem pinNotes_of_some (hsub : c.submission d = some (pin, value))
    (hdata : hsmFileHasData d pin.file = true) :
    pinNotes P d c = [.presented pin (pinMatches P (fileData d pin.file) value = some true)] := by
  rw [pinNotes, hsub]
  dsimp only
  rw [if_pos hdata]

/-- The notes about PINs are about PINs. -/
theorem lastDrawn_pinNotes (c : HsmPinCommand) (session : List HsmAuthNote) :
    lastDrawn (pinNotes P d c ++ session) = lastDrawn session := by
  rw [pinNotes]
  rcases c.submission d with - | ⟨pin, value⟩
  · rfl
  · dsimp only
    split_ifs <;> rfl

/-- **A command that checks a PIN** leaves access what it should be. -/
theorem AuthHeld.presented (h : AuthHeld C s) {hc : c.ChecksPin}
    (hcare : (HsmAuthEvent.pin c hc faults).Careful P C s) :
    AuthHeld C ((HsmAuthEvent.pin c hc faults).perform P C s) := by
  obtain ⟨hpin, hquorum⟩ := hcare
  have heffect : PinEffect P { s.device with faults := faults } c
      (runHsm (c.run P) { s.device with faults := faults }) :=
    runHsm_of_wp_off (fun _ ↦ .off) (wp_pinCommand hc)
  obtain ⟨d₁, hbase, hsame, hauth, hsession⟩ := heffect.base
  have hsame : SameAuth s.device ((HsmAuthEvent.pin c hc faults).perform P C s).device :=
    ⟨hsame.view, hsame.status⟩
  -- what the right user PIN is noted as
  have hlast {value : Bytes} (hsub : c.submission s.device = some (.user, value))
      (hright : pinMatches P (fileData s.device HsmPin.user.file) value = some true) :
      UserPinLast ((HsmAuthEvent.pin c hc faults).perform P C s) := by
    show lastPresented (pinNotes P s.device c ++ s.session) = _
    rw [pinNotes_of_some hsub (hsmFileHasData_of_matches hright), hright]
    rfl
  refine h.renew hsame rfl (fun draw challenge hpending ↦ ?_) h.once h.spent_lt (fun hgranted ↦ ?_)
    fun hpka hcombined hopen ↦ ?_
  · show lastDrawn (pinNotes P s.device c ++ s.session) = _ ∧ _
    rw [lastDrawn_pinNotes]
    exact h.pending draw challenge hpending
  · have hgranted : d₁.ram.isUserAuthenticated = true := hauth.symm.trans hgranted
    cases hbase with
    | idle hnotes hkept =>
      refine (h.access (hkept.authenticated.symm.trans hgranted)).renew hsame.view rfl ?_
      show lastPresented (pinNotes P s.device c ++ s.session) = _
      rw [show pinNotes P s.device c = [] from hnotes]
      rfl
    | @refused pin value hsub hrefused =>
      have hbegun : (s.device.ram.isUserAuthenticated && pkaEnabled s.device) = true := by
        rcases hrefused.kept with hkept | ⟨-, hkept⟩
        · exact hkept.authenticated.symm.trans hgranted
        · refine Eq.trans ?_ (hkept.authenticated.symm.trans hgranted)
          cases pin <;> rfl
      obtain ⟨hwas, hpka⟩ := and_eq_true_iff.mp hbegun
      have hjust := h.access hwas
      rw [AccessJustified, if_pos hpka] at hjust
      refine .of_keys (hsame.view.pkaEnabled_eq.trans hpka) (hjust.1.renew hsame.view rfl)
        fun hcombined ↦ ?_
      have hpin := hpin pin value hsub hrefused.data
      rw [CarefulPin, if_pos hpka] at hpin
      rcases hpin hwas ((hsame.view.hsmOption_eq _).symm.trans hcombined) with ⟨rfl, hright⟩ | htaken
      · exact hlast hsub hright
      · exact absurd htaken hrefused.not_taken
    | @granted pin value hsub hright hne hkept =>
      have hdata : hsmFileHasData s.device pin.file = true := hsmFileHasData_of_matches hright
      have hformula : (!pkaEnabled s.device || pkaQuorumMet s.device &&
          (!hsmOption s.device hsmOptCombinedAuth || decide (pin = .user))) = true :=
        hkept.authenticated.symm.trans hgranted
      have huser : pin = .user → UserPinLast ((HsmAuthEvent.pin c hc faults).perform P C s) := by
        rintro rfl
        exact hlast hsub hright
      rcases hpka : pkaEnabled s.device with - | -
      · have hpin := hpin pin value hsub hdata
        rw [CarefulPin, if_neg (by rw [hpka]; decide)] at hpin
        refine .of_pin (hsame.view.pkaEnabled_eq.trans hpka) (huser ?_)
        by_contra hso
        have hso : pin = .so := by
          cases pin
          · exact absurd rfl hso
          · rfl
        exact hne (hpin hso hright)
      · rw [hpka, Bool.not_true, Bool.false_or, Bool.and_eq_true] at hformula
        refine .of_keys (hsame.view.pkaEnabled_eq.trans hpka)
          ((h.quorum (hquorum hpka).1 hformula.1).renew hsame.view rfl) fun hcombined ↦ huser ?_
        have hcombined : hsmOption s.device hsmOptCombinedAuth = true :=
          (hsame.view.hsmOption_eq _).symm.trans hcombined
        rw [hcombined, Bool.not_true, Bool.false_or] at hformula
        exact of_decide_eq_true hformula.2
  · have hopen : d₁.ram.hasSessionPin = true :=
      (hsession ((hquorum hpka).2 hcombined)).symm.trans hopen
    cases hbase with
    | idle hnotes hkept =>
      show lastPresented (pinNotes P s.device c ++ s.session) = _
      rw [show pinNotes P s.device c = [] from hnotes]
      exact h.pinSession hpka hcombined (hkept.pinSession.symm.trans hopen)
    | @refused pin value hsub hrefused =>
      rcases hrefused.kept with hkept | ⟨hright, hkept⟩
      · exact absurd (hkept.pinSession.symm.trans hopen) false_ne_true
      · cases pin with
        | user => exact hlast hsub hright
        | so => exact absurd (hkept.pinSession.symm.trans hopen) false_ne_true
    | @granted pin value hsub hright hne hkept =>
      cases pin with
      | user => exact hlast hsub hright
      | so => exact absurd (hkept.pinSession.symm.trans hopen) false_ne_true

/-! ### Challenges and signatures -/

/-- The statuses, the challenge and what access rests on change. -/
theorem AuthHeld.change (h : AuthHeld C s) {s' : HsmAuth} (hview : SameAuthView s.device s'.device)
    (note : HsmAuthNote) (hsession : s'.session = note :: s.session)
    (hlast : lastPresented s'.session = lastPresented s.session)
    (hauth : s'.device.ram.isUserAuthenticated = s.device.ram.isUserAuthenticated)
    (hpin : s'.device.ram.hasSessionPin = s.device.ram.hasSessionPin)
    (hlength : s'.device.ram.pukStatus.length = maxPuk)
    (hstatus : ∀ i, pukStatusOf s' i = 0 ∨
      pukStatusOf s' i = 1 ∧ SignedFresh C s'.session i (registeredKey s i))
    (hdistinct : ∀ i j, pukStatusOf s' i = 1 → pukStatusOf s' j = 1 →
      C.publicKey (registeredKey s i) = C.publicKey (registeredKey s j) → i = j)
    (hpending : ∀ draw challenge, s'.challenge = some (draw, challenge) →
      lastDrawn s'.session = some challenge ∧ draw ∉ s'.spent ∧ draw < s'.draws)
    (honce : s'.spent.Nodup) (hspent : ∀ draw ∈ s'.spent, draw < s'.draws) : AuthHeld C s' where
  length := hlength
  status i := by
    rw [registeredKey_of_view hview]
    exact hstatus i
  distinct i j := by
    rw [registeredKey_of_view hview, registeredKey_of_view hview]
    exact hdistinct i j
  access hgranted :=
    AccessJustified.renew hview (h.access (hauth.symm.trans hgranted)) (l := [note]) hsession hlast
  pinSession hpka hcombined hopen :=
    hlast.trans (h.pinSession (hview.pkaEnabled_eq.symm.trans hpka)
      ((hview.hsmOption_eq _).symm.trans hcombined) (hpin.symm.trans hopen))
  pending := hpending
  once := honce
  spent_lt := hspent

theorem AuthHeld.challenge (h : AuthHeld C s) (ne : ℕ) : AuthHeld C (hsmCmdChallenge C ne s).2 := by
  rw [hsmCmdChallenge]
  by_cases hne : ne = 0
  · rw [if_pos hne]
    exact h
  rw [if_neg hne]
  rcases C.randomBytesGet s.draws ne with - | rb
  · exact h
  have hzero : ∀ i : Fin maxPuk, (List.replicate maxPuk (0 : UInt8)).getD i 0 = 0 := by decide
  refine h.change (fun _ _ ↦ rfl) (.drawn rb) rfl rfl rfl rfl length_replicate
    (fun i ↦ .inl (hzero i)) (fun i _ hi ↦ absurd ((hzero i).symm.trans hi) (by decide))
    (fun draw challenge hpending ↦ ?_) h.once
    fun draw hdraw ↦ (h.spent_lt draw hdraw).trans (lt_succ_self _)
  have hpending : (if ne ≤ 256 then some (s.draws, rb) else none) = some (draw, challenge) := hpending
  obtain ⟨-, hpending⟩ := Option.ite_none_right_eq_some.mp hpending
  obtain ⟨rfl, rfl⟩ := Prod.mk.inj (Option.some.inj hpending)
  exact ⟨rfl, fun hmem ↦ absurd (h.spent_lt _ hmem) (lt_irrefl _), lt_succ_self _⟩

/-- MSE chooses a key and gives nothing. -/
theorem AuthHeld.mse (h : AuthHeld C s) (p1 p2 : UInt8) (data : Bytes) :
    AuthHeld C (hsmCmdMse C p1 p2 data s).2 := by
  have hitems : ∀ items, AuthHeld C (mseItems C p2 s items).2 := by
    intro items
    induction items with
    | nil => exact h
    | cons item items ih =>
      have hselect : ∀ i, AuthHeld C { s with efPukAut := i } := fun _ ↦
        ⟨h.length, h.status, h.distinct, h.access, h.pinSession, h.pending, h.once, h.spent_lt⟩
      rw [mseItems]
      dsimp only
      rcases mseFindSlot C s.device (item.value ++ item.rest) (List.finRange maxPuk) with - | i
      · split_ifs
        · exact h
        · exact h
        · exact h
        · exact ih
      · dsimp only
        by_cases hitem : item.tag = 0x83 ∧ item.value.length ≠ 1
        · rw [if_pos hitem]
          split_ifs
          · exact h
          · exact hselect _
          · exact hselect _
          · exact h
        · rw [if_neg hitem]
          exact ih
  rw [hsmCmdMse]
  split_ifs
  · exact h
  · exact h
  · exact hitems _

/-- `hsm_update_user_auth` gives access to the quorum. -/
theorem runHsm_hsmUpdateUserAuth (d : HsmDevice) : runHsm hsmUpdateUserAuth d =
    if pkaEnabled d then
      d.setRam fun ram ↦ { ram with isUserAuthenticated := pkaQuorumMet d &&
        (!hsmOption d hsmOptCombinedAuth || d.ram.hasSessionPin) }
    else
      d := by
  obtain ⟨-, h⟩ := runHsm_of_wp_ok (d := d) (m := hsmUpdateUserAuth) (Q := fun _ d' ↦ d' =
    if pkaEnabled d then
      d.setRam fun ram ↦ { ram with isUserAuthenticated := pkaQuorumMet d &&
        (!hsmOption d hsmOptCombinedAuth || d.ram.hasSessionPin) }
    else
      d) (wp_get (wp_ite (fun hpka ↦ wp_modifyRam (if_pos hpka).symm) fun hpka ↦
        wp_pure (if_neg hpka).symm))
  exact h

/-- What `hsm_update_user_auth` gives access to is what should have it. -/
theorem AuthHeld.update (h : AuthHeld C s) (hne : pkaEnabled s.device = true →
    pkaThreshold s.device ≠ 0) : AuthHeld C { s with device := runHsm hsmUpdateUserAuth s.device } := by
  rw [runHsm_hsmUpdateUserAuth]
  split_ifs with hpka
  · refine ⟨h.length, h.status, h.distinct, fun hgranted ↦ ?_, h.pinSession, h.pending, h.once,
      h.spent_lt⟩
    obtain ⟨hmet, hsession⟩ := and_eq_true_iff.mp hgranted
    refine .of_keys hpka ((h.quorum (hne hpka) hmet).renew (fun _ _ ↦ rfl) (l := []) rfl)
      fun hcombined ↦ h.pinSession hpka hcombined ?_
    have hcombined : hsmOption s.device hsmOptCombinedAuth = true := hcombined
    rwa [hcombined, Bool.not_true, Bool.false_or] at hsession
  · exact h

theorem getD_set (l : List UInt8) (i j : Fin maxPuk) (b : UInt8) (hlen : l.length = maxPuk) :
    (l.set i b).getD j 0 = if j = i then b else l.getD j 0 := by
  rw [getD_eq_getElem?_getD, getD_eq_getElem?_getD]
  have hi : (i : ℕ) < l.length := by
    rw [hlen]
    exact i.isLt
  split_ifs with hji
  · rw [hji, getElem?_set_self hi]
    rfl
  · rw [getElem?_set_ne fun h ↦ hji (Fin.ext h).symm]

/-- A signature that is accepted is one over the challenge that was drawn last. -/
theorem AuthHeld.accept (h : AuthHeld C s) {i : Fin maxPuk} {draw : ℕ} {challenge : Bytes}
    (hchallenge : s.challenge = some (draw, challenge))
    (hverify : C.pukVerify data (pkaHash C challenge) (registeredKey s i) = true)
    (hne : pkaEnabled s.device = true → pkaThreshold s.device ≠ 0)
    (hother : ∀ j : Fin maxPuk, s.device.ram.pukStatus.getD j 0 = 1 →
      C.publicKey (registeredKey s j) = C.publicKey (registeredKey s i) → j = i) :
    AuthHeld C (acceptSlot s i draw data) := by
  obtain ⟨hdrawn, hunspent, hlt⟩ := h.pending draw challenge hchallenge
  have hfresh : SignedFresh C (.accepted i (registeredKey s i) data :: s.session) i
      (registeredKey s i) := ⟨[], data, s.session, challenge, rfl, hdrawn, hverify⟩
  have hget : ∀ j : Fin maxPuk, (s.device.ram.pukStatus.set i 1).getD j 0 =
      if j = i then 1 else pukStatusOf s j := fun j ↦ getD_set _ i j 1 h.length
  -- the status is marked and noted
  have hmarked : AuthHeld C ((s.setRam fun ram ↦ { ram with pukStatus := ram.pukStatus.set i 1 }).note
      [.accepted i (registeredKey s i) data]) := by
    refine h.change (fun _ _ ↦ rfl) _ rfl rfl rfl rfl (by simp [HsmAuth.setRam, HsmAuth.note, h.length])
      (fun j ↦ ?_) (fun j k hj hk hsame ↦ ?_) (fun draw challenge hpending ↦ ?_) h.once h.spent_lt
    · show (s.device.ram.pukStatus.set i 1).getD j 0 = 0 ∨
        (s.device.ram.pukStatus.set i 1).getD j 0 = 1 ∧ _
      rw [hget]
      split_ifs with hji
      · subst hji
        exact .inr ⟨rfl, hfresh⟩
      · exact (h.status j).imp_right (.imp_right fun h ↦ h.append [_])
    · have hj := (hget j).symm.trans hj
      have hk := (hget k).symm.trans hk
      split_ifs at hj hk with hji hki hki
      · rw [hji, hki]
      · rw [hji] at hsame ⊢
        exact (hother k hk hsame.symm).symm
      · rw [hki] at hsame ⊢
        exact hother j hj hsame
      · exact h.distinct j k hj hk hsame
    · exact h.pending draw challenge hpending
  have hupdated := hmarked.update hne
  refine ⟨hupdated.length, hupdated.status, hupdated.distinct, hupdated.access, hupdated.pinSession,
    fun draw' challenge' hpending ↦ ?_, ?_, fun draw' hdraw ↦ ?_⟩
  · obtain ⟨hnot, hpending⟩ := Option.ite_none_left_eq_some.mp hpending
    have hspent : (acceptSlot s i draw data).spent = s.spent := if_neg hnot
    rw [hspent]
    exact h.pending draw' challenge' hpending
  · show (if _ then draw :: s.spent else s.spent).Nodup
    split_ifs
    · exact nodup_cons.mpr ⟨hunspent, h.once⟩
    · exact h.once
  · have hdraw : draw' ∈ (if _ then draw :: s.spent else s.spent) := hdraw
    split_ifs at hdraw
    · rcases mem_cons.mp hdraw with rfl | hdraw
      · exact hlt
      · exact h.spent_lt draw' hdraw
    · exact h.spent_lt draw' hdraw

/-- A signature is counted only under a challenge that has not been spent. -/
theorem AuthHeld.externalAuthenticate (h : AuthHeld C s)
    (hcare : (HsmAuthEvent.externalAuthenticate p1 p2 data).Careful P C s) :
    AuthHeld C (cmdExternalAuthenticate C p1 p2 data s).2 := by
  rw [cmdExternalAuthenticate]
  by_cases hp : p1 ≠ 0 ∨ p2 ≠ 0
  · rw [if_pos hp]
    exact h
  rw [if_neg hp]
  rcases hslot : s.efPukAut with - | i
  · exact h
  dsimp only
  by_cases hdata : data = []
  · rw [if_pos hdata]
    exact h
  rw [if_neg hdata]
  rcases hchallenge : s.challenge with - | ⟨draw, challenge⟩
  · exact h
  dsimp only
  split_ifs with hrecord hverify
  · exact h
  · -- the status of the slot is taken back
    have hget : ∀ j : Fin maxPuk, (s.device.ram.pukStatus.set i 0).getD j 0 =
        if j = i then 0 else pukStatusOf s j := fun j ↦ getD_set _ i j 0 h.length
    refine ⟨by simp [HsmAuth.setRam, h.length], fun j ↦ ?_, fun j k hj hk hsame ↦ ?_, h.access,
      h.pinSession, h.pending, h.once, h.spent_lt⟩
    · show (s.device.ram.pukStatus.set i 0).getD j 0 = 0 ∨
        (s.device.ram.pukStatus.set i 0).getD j 0 = 1 ∧ _
      rw [hget]
      split_ifs
      · exact .inl rfl
      · exact h.status j
    · have hj := (hget j).symm.trans hj
      have hk := (hget k).symm.trans hk
      split_ifs at hj hk
      · cases hj
      · cases hj
      · cases hk
      · exact h.distinct j k hj hk hsame
  · have hverify : C.pukVerify data (pkaHash C challenge) (fileData s.device (.puk i)) = true := by
      simpa using hverify
    exact h.accept hchallenge hverify hcare.1 (hcare.2 i hslot)

/-! ### Registration -/

/-- A key may be stored in a slot. -/
structure KeyStored (d : HsmDevice) (i : ℕ) (d' : HsmDevice) : Prop where
  view : ∀ f : HsmFile, f.IsAuth → f ≠ .pukaut → f ≠ .puk i → d'.files.view f = d.files.view f
  record : fileData d' .pukaut = fileData d .pukaut ∨
    ∃ b, fileData d' .pukaut = (fileData d .pukaut).set 1 b
  status : d'.ram.pukStatus = d.ram.pukStatus
  authenticated : d'.ram.isUserAuthenticated = d.ram.isUserAuthenticated
  pinSession : d'.ram.hasSessionPin = d.ram.hasSessionPin

namespace KeyStored

variable {i : ℕ}

theorem refl (d : HsmDevice) (i : ℕ) : KeyStored d i d :=
  ⟨fun _ _ _ _ ↦ rfl, .inl rfl, rfl, rfl, rfl⟩

section

variable (h : KeyStored d i d')
include h

theorem of_ram {d₁ : HsmDevice} (hfiles : d₁.files = d'.files)
    (hstatus : d₁.ram.pukStatus = d'.ram.pukStatus)
    (hauth : d₁.ram.isUserAuthenticated = d'.ram.isUserAuthenticated)
    (hpin : d₁.ram.hasSessionPin = d'.ram.hasSessionPin) : KeyStored d i d₁ where
  view f hf hne hne' := by
    rw [hfiles]
    exact h.view f hf hne hne'
  record := by
    rw [fileData, Device.read, hfiles]
    exact h.record
  status := hstatus.trans h.status
  authenticated := hauth.trans h.authenticated
  pinSession := hpin.trans h.pinSession

theorem written_record (b : UInt8) :
    KeyStored d i (d'.written .pukaut (some ((fileData d .pukaut).set 1 b))) where
  view f hf hne hne' := (WriteBack.write_view_of_ne hne).trans (h.view f hf hne hne')
  record := by
    refine .inr ⟨b, ?_⟩
    rfl
  status := h.status
  authenticated := h.authenticated
  pinSession := h.pinSession

theorem written_key (key : Bytes) : KeyStored d i (d'.written (.puk i) (some key)) where
  view f hf hne hne' := (WriteBack.write_view_of_ne hne').trans (h.view f hf hne hne')
  record := by
    exact h.record
  status := h.status
  authenticated := h.authenticated
  pinSession := h.pinSession

/-- What access depends on in the record is the same. -/
theorem record_eq :
    hsmFileHasData d' .pukaut = hsmFileHasData d .pukaut ∧ pkaSlots d' = pkaSlots d ∧
      pkaThreshold d' = pkaThreshold d := by
  rw [hsmFileHasData, hsmFileHasData, pkaSlots, pkaSlots, pkaThreshold, pkaThreshold]
  rcases h.record with h | ⟨b, h⟩
  · rw [h]
    exact ⟨rfl, rfl, rfl⟩
  · rw [h]
    rcases fileData d .pukaut with - | ⟨b₀, - | ⟨b₁, bs⟩⟩ <;> exact ⟨rfl, rfl, rfl⟩

theorem pkaEnabled_eq : pkaEnabled d' = pkaEnabled d := by
  obtain ⟨hdata, hslots, -⟩ := h.record_eq
  rw [pkaEnabled, pkaEnabled, hdata]
  exact congrArg (fun b : UInt8 ↦ hsmFileHasData d .pukaut && decide (b > 0)) hslots

theorem hsmOption_eq (option : ℕ) : hsmOption d' option = hsmOption d option := by
  have hdevops : fileData d' .devops = fileData d .devops := by
    rw [fileData, fileData, Device.read, Device.read, h.view .devops trivial (by simp) (by simp)]
  rw [hsmOption, hsmOption, getDeviceOptions, getDeviceOptions, hsmFileHasData, hsmFileHasData, hdevops]

end

end KeyStored

theorem freeSlot_ok {slots : List ℕ} {i : ℕ} (h : freeSlot d slots = .ok i) :
    fileData d (.puk i) = [] := by
  induction slots with
  | nil => exact absurd h (by simp [freeSlot])
  | cons j slots ih =>
    rw [freeSlot] at h
    split_ifs at h with hnone hfree
    · obtain rfl := Except.ok.inj h
      simpa [hsmFileHasData] using hfree
    · exact ih h

/-- The key is stored in a slot that is free, or in the one that is named. -/
theorem pukAuthSlot_ok {i : ℕ} (h : pukAuthSlot d p1 p2 = .ok i) :
    fileData d (.puk i) = [] ∨ p1 = 1 ∧ i = p2.toNat := by
  rw [pukAuthSlot] at h
  split_ifs at h with hp1 hsession hadd hp2 hoption hslot hnone
  · exact .inl (freeSlot_ok h)
  · obtain rfl := Except.ok.inj h
    refine .inr ⟨?_, rfl⟩
    by_contra hne
    exact hp1 ⟨hadd, hne⟩

theorem wp_cmdPukAuth :
    wp A (cmdPukAuth C p1 p2 data)
      (fun _ d' ↦ d' = d ∨ ∃ i, pukAuthSlot d p1 p2 = .ok i ∧ KeyStored d i d')
      (fun _ d' ↦ ∃ i, pukAuthSlot d p1 p2 = .ok i ∧ KeyStored d i d') d := by
  refine wp_get (wp_return (.inl rfl) fun _ ↦ wp_return (.inl rfl) fun _ ↦ ?_)
  rcases hslot : pukAuthSlot d p1 p2 with sw | i
  · exact wp_pure (.inl rfl)
  have hkeep : ∀ {d'}, KeyStored d i d' → ∃ j, Except.ok (ε := UInt16) i = .ok j ∧ KeyStored d j d' :=
    fun h ↦ ⟨i, rfl, h⟩
  have hattempted : ∀ (d' : HsmDevice) (f : HsmFile), KeyStored d i d' → KeyStored d i (d'.attempted f) :=
    fun _ _ h ↦ h.of_ram rfl rfl rfl rfl
  have hstore : wp A (pukAuthStore p1 i data) (fun _ ↦ KeyStored d i) (fun _ ↦ KeyStored d i) d := by
    refine wp_get (wp_bind (wp_mono (Q := fun _ ↦ KeyStored d i)
      (E := fun _ ↦ KeyStored d i) ?_ (fun _ d₁ hd₁ ↦ ?_) fun _ _ h ↦ h))
    · exact wp_ite (fun _ ↦ wp_putIgnoring (fun _ ↦ (KeyStored.refl d i).written_record _)
        (fun _ ↦ hattempted _ _ (.refl d i)) fun _ ↦ hattempted _ _ (.refl d i))
        fun _ ↦ wp_pure (.refl d i)
    · exact wp_putIgnoring (fun _ ↦ hd₁.written_key data) (fun _ ↦ hattempted _ _ hd₁)
        fun _ ↦ hattempted _ _ hd₁
  exact wp_seq hstore (fun _ _ hd' ↦ wp_get (wp_pure (.inr (hkeep hd')))) fun _ _ hd' ↦ hkeep hd'

/-- A key is stored in a slot that has not signed. -/
theorem AuthHeld.stored (h : AuthHeld C s) {i : ℕ} (hstored : KeyStored s.device i d')
    (hunsigned : ∀ j : Fin maxPuk, (j : ℕ) = i → ¬SignedFresh C s.session j (registeredKey s j)) :
    AuthHeld C { s with device := d' } := by
  obtain ⟨-, hslots, hthreshold⟩ := hstored.record_eq
  have hkey : ∀ j : Fin maxPuk, (j : ℕ) ≠ i →
      registeredKey { s with device := d' } j = registeredKey s j := fun j hj ↦ by
    rw [registeredKey, registeredKey, fileData, fileData, Device.read, Device.read,
      hstored.view (.puk j) trivial (by simp) (by simpa using hj)]
  have hsigned : ∀ j, SignedFresh C s.session j (registeredKey s j) → (j : ℕ) ≠ i := fun j hj heq ↦
    hunsigned j heq hj
  have hstatus : ∀ j, pukStatusOf { s with device := d' } j = pukStatusOf s j := fun j ↦ by
    rw [pukStatusOf, pukStatusOf, hstored.status]
  have hmarked : ∀ j, pukStatusOf s j = 1 → (j : ℕ) ≠ i := fun j hj ↦
    (h.status j).elim (fun h ↦ absurd (hj.symm.trans h) (by decide)) fun h ↦ hsigned j h.2
  refine ⟨hstored.status ▸ h.length, fun j ↦ ?_, fun j k hj hk hsame ↦ ?_, fun hgranted ↦ ?_,
    fun hpka hcombined hopen ↦ ?_, h.pending, h.once, h.spent_lt⟩
  · rw [hstatus]
    refine (h.status j).imp_right fun hj ↦ ⟨hj.1, ?_⟩
    rw [hkey j (hsigned j hj.2)]
    exact hj.2
  · rw [hstatus] at hj hk
    rw [hkey j (hmarked j hj), hkey k (hmarked k hk)] at hsame
    exact h.distinct j k hj hk hsame
  · have hjust := h.access (hstored.authenticated.symm.trans hgranted)
    rcases hpka : pkaEnabled s.device with - | -
    · rw [AccessJustified, if_neg (by rw [hpka]; decide)] at hjust
      exact .of_pin (hstored.pkaEnabled_eq.trans hpka) hjust
    · rw [AccessJustified, if_pos hpka] at hjust
      obtain ⟨⟨hne, slots, hcard, hall, hdistinct⟩, hpin⟩ := hjust
      refine .of_keys (hstored.pkaEnabled_eq.trans hpka) ⟨?_, slots, ?_, fun j hj ↦ ?_,
        fun j hj k hk hsame ↦ ?_⟩ fun hcombined ↦ hpin ((hstored.hsmOption_eq _).symm.trans hcombined)
      · rw [hthreshold]
        exact hne
      · rw [hthreshold]
        exact hcard
      · rw [hslots, hkey j (hsigned j (hall j hj).2)]
        exact hall j hj
      · rw [hkey j (hsigned j (hall j hj).2), hkey k (hsigned k (hall k hk).2)] at hsame
        exact hdistinct j hj k hk hsame
  · exact h.pinSession (hstored.pkaEnabled_eq.symm.trans hpka)
      ((hstored.hsmOption_eq _).symm.trans hcombined) (hstored.pinSession.symm.trans hopen)

/-- The registration and the replacement of keys. -/
theorem AuthHeld.pukAuth (h : AuthHeld C s)
    (hcare : (HsmAuthEvent.pukAuth p1 p2 data faults).Careful P C s) :
    AuthHeld C ((HsmAuthEvent.pukAuth p1 p2 data faults).perform P C s) := by
  have hkeep : ∀ d', (∃ i, pukAuthSlot { s.device with faults := faults } p1 p2 = .ok i ∧
      KeyStored { s.device with faults := faults } i d') → AuthHeld C { s with device := d' } := by
    rintro d' ⟨i, hslot, hstored⟩
    refine h.stored (i := i) ⟨hstored.view, hstored.record, hstored.status,
      hstored.authenticated, hstored.pinSession⟩ fun j hj hsigned ↦ ?_
    rcases pukAuthSlot_ok hslot with hfree | ⟨hp1, hi⟩
    · exact hsigned.key_ne_nil (show fileData s.device (.puk j) = [] from hj ▸ hfree)
    · obtain ⟨signature, hmem⟩ := hsigned.mem
      exact hcare hp1 j _ signature hmem (hj.trans hi)
  have hsame : AuthHeld C { s with device := { s.device with faults := faults } } :=
    ⟨h.length, h.status, h.distinct, h.access, h.pinSession, h.pending, h.once, h.spent_lt⟩
  exact runHsm_of_wp_off (I := fun d' ↦ AuthHeld C { s with device := d' })
    (fun _ h ↦ ⟨h.length, h.status, h.distinct, h.access, h.pinSession, h.pending, h.once, h.spent_lt⟩)
    (wp_mono wp_cmdPukAuth (fun _ d' hd' ↦ hd'.elim (fun heq ↦ heq ▸ hsame) (hkeep d'))
      fun _ d' ↦ hkeep d')

/-! ### Runs -/

/-- A selection ends the session. -/
theorem authHeld_initScHsm (honce : s.spent.Nodup) (hspent : ∀ draw ∈ s.spent, draw < s.draws) :
    AuthHeld C (initScHsm s) := by
  have hzero : ∀ i : Fin maxPuk, (List.replicate maxPuk (0 : UInt8)).getD i 0 = 0 := by decide
  exact ⟨length_replicate, fun i ↦ .inl (hzero i),
    fun i _ hi ↦ absurd ((hzero i).symm.trans hi) (by decide), fun h ↦ absurd h false_ne_true,
    fun _ _ h ↦ absurd h false_ne_true, fun _ _ h ↦ absurd h (by simp [initScHsm]), honce, hspent⟩

theorem AuthHeld.perform (h : AuthHeld C s) (hcare : event.Careful P C s) :
    AuthHeld C (event.perform P C s) := by
  cases event with
  | pin c hc faults => exact h.presented hcare
  | challenge ne => exact h.challenge ne
  | mse p1 p2 data => exact h.mse p1 p2 data
  | externalAuthenticate p1 p2 data => exact h.externalAuthenticate hcare
  | pukAuth p1 p2 data faults => exact h.pukAuth hcare
  | select faults => exact authHeld_initScHsm h.once h.spent_lt
  | flush f =>
    exact ⟨h.length, h.status, h.distinct, h.access, h.pinSession, h.pending, h.once, h.spent_lt⟩
  | reboot keep faults => exact h

/-- **One event.** -/
theorem AuthHeld.step (h : AuthHeld C s) (hcare : event.Careful P C s) :
    AuthHeld C (event.step P C s) := by
  have hperform : AuthHeld C (if s.device.ram.off then s else event.perform P C s) := by
    split_ifs
    · exact h
    · exact h.perform hcare
  cases event with
  | reboot keep faults => exact authHeld_initScHsm h.once h.spent_lt
  | pin | challenge | mse | externalAuthenticate | pukAuth | select | flush => exact hperform

theorem AuthHeld.run {events : List HsmAuthEvent} (h : AuthHeld C s)
    (hcare : CarefulAuthRun P C s events) : AuthHeld C (hsmAuthRun P C s events) := by
  induction events generalizing s with
  | nil => exact h
  | cons event events ih => exact ih (h.step hcare.1) hcare.2

theorem HsmAuthStart.held (h : HsmAuthStart s) : AuthHeld C s := by
  have hzero : ∀ i : Fin maxPuk, pukStatusOf s i = 0 := by
    have hzero : ∀ i : Fin maxPuk, (List.replicate maxPuk (0 : UInt8)).getD i 0 = 0 := by decide
    intro i
    rw [pukStatusOf, h.pukStatus]
    exact hzero i
  refine ⟨by rw [h.pukStatus]; rfl, fun i ↦ .inl (hzero i),
    fun i _ hi ↦ absurd ((hzero i).symm.trans hi) (by decide), fun hgranted ↦ ?_, fun _ _ hopen ↦ ?_,
    fun _ _ hpending ↦ ?_, ?_, fun draw hdraw ↦ ?_⟩
  · exact absurd (h.authenticated.symm.trans hgranted) false_ne_true
  · exact absurd (h.hasSessionPin.symm.trans hopen) false_ne_true
  · exact absurd (h.challenge.symm.trans hpending) (by simp)
  · rw [h.spent]
    exact nodup_nil
  · rw [h.spent] at hdraw
    exact absurd hdraw not_mem_nil

end PicoAll
