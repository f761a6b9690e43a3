import PicoAll.Piv.Authenticate

/-!
# The PIN policies of the private keys

A run of the applet with what it means to its PIN: that the PIN was verified, that this was lost, and
that a private key was operated. A key under ONCE is to be operated only while the PIN is verified,
and one under ALWAYS only when it was verified after the last operation under ALWAYS.

The policies of a slot are those that its metadata say. The slot 0x93 has its key in the file 0x96,
and metadata may be found under either number.
-/

namespace PicoAll.Piv

open List

variable {K : Type}

/-! ### VERIFY -/

/-- What VERIFY finds. -/
structure VerifyEnv where
  /-- The PIN was initialized. -/
  initialized : Bool
  retries : UInt8
  /-- What `pin_check_verifier` says of the PIN that is given. -/
  check : UInt16
  deriving DecidableEq, Repr

def pivPinWireSize : ℕ :=
  8

/-- VERIFY of the PIV applet. `env.check` is what the comparison says. -/
def cmdPivVerify (env : VerifyEnv) (ram : PivRam) (p1 keyRef : UInt8) (data : Bytes) :
    UInt16 × PivRam :=
  if p1 ≠ 0x00 ∧ p1 ≠ 0xff then (swIncorrectParams, ram)
  else if keyRef ≠ 0x80 then (swIncorrectParams, ram)
  else if !env.initialized then (swReferenceNotFound, ram)
  else if p1 = 0xff then
    if data.length ≠ 0 then (swIncorrectParams, ram) else (swOk, { ram with hasPwpiv := false })
  else if data.length > 0 ∧ data.length ≠ pivPinWireSize then
    (swIncorrectParams, { ram with hasPwpiv := false })
  else if data.length > 0 then (env.check, { ram with hasPwpiv := env.check = swOk })
  else if env.retries = 0 then (swPinBlocked, ram)
  else if ram.hasPwpiv then (swOk, ram)
  else (0x6300 + (0xc0 ||| env.retries).toUInt16, ram)

/-! ### Runs -/

/-- What is noted of the PIN. -/
inductive PinNote where
  | verified
  | lost
  /-- A private key was operated; whether it was under ALWAYS. -/
  | operated (always : Bool)
  deriving DecidableEq, Repr

/-- What another command does to the verification of the PIN. -/
inductive PinEffect where
  | keeps
  | verifies
  | loses
  deriving DecidableEq, Repr

def PinEffect.apply (before : Bool) : PinEffect → Bool
  | keeps => before
  | verifies => true
  | loses => false

inductive PivEvent (K : Type) where
  | verify (env : VerifyEnv) (p1 p2 : UInt8) (data : Bytes)
  | authenticate (env : AuthEnv) (p1 p2 : UInt8) (data : Bytes)
  /-- Another command, which may fail: slots and metadata may be anything afterwards. -/
  | other (effect : PinEffect) (ram : PivRam) (store : PivStore K)
  /-- The applet is selected or left, or the device is reset. -/
  | session

structure PivState (K : Type) where
  ram : PivRam
  store : PivStore K
  /-- The last note is the first. -/
  notes : List PinNote

/-- The references that name the key of a file. -/
def fileReferences (file : UInt8) : List UInt8 :=
  if file = efPivKeyRetired18 then [file, 0x93] else [file]

/-- What the metadata say of the key that a reference names. -/
def slotPolicies (store : PivStore K) (keyRef : UInt8) : List UInt8 :=
  ((fileReferences (keyFile keyRef)).filter fun ref ↦ 3 ≤ (store.metadata ref).length).map
    fun ref ↦ effectivePinPolicy ref (store.metadata ref)

/-- The note of a command that changed the verification. -/
def pinNotes (before after : Bool) : List PinNote :=
  if after then (if before then [] else [.verified]) else if before then [.lost] else []

/-- What an event does, and what it adds to the history. -/
def PivEvent.apply (C : PivCrypto) (s : PivState K) : PivEvent K → PivState K
  | .verify env p1 p2 data =>
    let reply := cmdPivVerify env s.ram p1 p2 data
    -- A PIN that is verified again counts again.
    let notes := if reply.1 = swOk ∧ p1 = 0x00 ∧ data.length > 0 then [PinNote.verified]
      else pinNotes s.ram.hasPwpiv reply.2.hasPwpiv
    ⟨reply.2, s.store, notes ++ s.notes⟩
  | .authenticate env p1 p2 data =>
    let reply := cmdPivAuthenticate C env s.ram s.store p1 p2 data
    let notes :=
      if reply.operated then [.operated (pinpolicyAlways ∈ slotPolicies s.store p2)] else []
    ⟨reply.ram, s.store, notes ++ s.notes⟩
  | .other effect ram store =>
    let ram := { ram with hasPwpiv := effect.apply s.ram.hasPwpiv }
    let notes := match effect with
      | .keeps => []
      | .verifies => [.verified]
      | .loses => [.lost]
    ⟨ram, store, notes ++ s.notes⟩
  | .session => ⟨pivRamClosed, s.store, .lost :: s.notes⟩

/-- The states of a run, each with the event that comes next. -/
def pivSteps (C : PivCrypto) : PivState K → List (PivEvent K) → List (PivState K × PivEvent K)
  | _, [] => []
  | s, event :: events => (s, event) :: pivSteps C (event.apply C s) events

/-! ### The policies -/

/-- The PIN is verified. -/
def pinHeld : List PinNote → Bool
  | [] => false
  | .verified :: _ => true
  | .lost :: _ => false
  | .operated _ :: notes => pinHeld notes

/-- The PIN was verified after the last operation under ALWAYS. -/
def pinFresh : List PinNote → Bool
  | [] => false
  | .verified :: _ => true
  | .lost :: _ => false
  | .operated always :: notes => !always && pinFresh notes

theorem pinHeld_of_pinFresh {notes : List PinNote} (h : pinFresh notes = true) :
    pinHeld notes = true := by
  induction notes with
  | nil => cases h
  | cons note notes ih =>
    cases note with
    | verified => rfl
    | lost => cases h
    | operated always =>
      simp only [pinFresh, Bool.and_eq_true] at h
      exact ih h.2

/-- A step operates no private key that is under a policy, unless the PIN was verified as it says. -/
def Enforced (C : PivCrypto) (s : PivState K) : PivEvent K → Prop
  | .authenticate env p1 p2 data =>
    (cmdPivAuthenticate C env s.ram s.store p1 p2 data).operated = true →
      (pinpolicyOnce ∈ slotPolicies s.store p2 → pinHeld s.notes = true) ∧
        (pinpolicyAlways ∈ slotPolicies s.store p2 → pinFresh s.notes = true)
  | _ => True

/-! ### Where a private key is operated -/

/-- All checks pass and the key can be loaded. -/
def PrivateReached (env : AuthEnv) (ram : PivRam) (store : PivStore K) (algo keyRef : UInt8)
    (data : Bytes) : Prop :=
  ∃ request,
    authPinChecks ram store algo keyRef data = .ok () ∧
    authRequest env ram store algo keyRef data = .ok request ∧
    keyRef ≠ efPivKeyCardmgm ∧
    privateChecks store algo keyRef request = .ok () ∧
    env.outcome ≠ .notLoaded

/-- The slot asks for the PIN. -/
def slotAsks (store : PivStore K) (keyRef : UInt8) : Prop :=
  pinpolicyOnce ∈ slotPolicies store keyRef ∨ pinpolicyAlways ∈ slotPolicies store keyRef

/-- Where a private key is reached, the reference is one that the PIN is checked for, and by what its
own metadata say; and where the slot is under ALWAYS, these metadata say so themselves and the
operation succeeds. -/
def PolicyApplied (s : PivState K) : PivEvent K → Prop
  | .authenticate env p1 p2 data =>
    PrivateReached env s.ram s.store p1 p2 data →
      (slotAsks s.store p2 →
        pinGuarded p2 = true ∧ effectivePinPolicy p2 (s.store.metadata p2) ≠ pinpolicyNever) ∧
      (pinpolicyAlways ∈ slotPolicies s.store p2 →
        (s.store.metadata p2).getD 1 0 = pinpolicyAlways ∧ ∃ response, env.outcome = .done response)
  | _ => True

variable {C : PivCrypto} {env : AuthEnv} {ram : PivRam} {store : PivStore K} {algo keyRef : UInt8}
  {data : Bytes}

/-- A reference that is checked passes only with the PIN. -/
theorem hasPwpiv_of_authPinChecks (hchecks : authPinChecks ram store algo keyRef data = .ok ())
    (hguarded : pinGuarded keyRef = true)
    (hpolicy : effectivePinPolicy keyRef (store.metadata keyRef) ≠ pinpolicyNever) :
    ram.hasPwpiv = true := by
  by_contra hpin
  have hpin : ram.hasPwpiv = false := by simpa using hpin
  unfold authPinChecks at hchecks
  rw [hpin, hguarded] at hchecks
  split at hchecks
  · cases hchecks
  split at hchecks
  · cases hchecks
  split at hchecks
  · cases hchecks
  split at hchecks
  · cases hchecks
  · rw [if_pos ⟨hpolicy, rfl, rfl⟩] at hchecks
    cases hchecks

/-- No private key is operated and the PIN stays as it is. -/
def AuthReply.Apart (ram : PivRam) (reply : AuthReply) : Prop :=
  reply.operated = false ∧ reply.ram.hasPwpiv = ram.hasPwpiv

section Management

variable {mgm : MgmFile} {a80 a81 a82 : Option Bytes} {request : AuthRequest}

theorem requestWitness_apart : (requestWitness C env algo mgm ram).Apart ram := by
  unfold requestWitness
  dsimp only
  split <;> exact ⟨rfl, rfl⟩

theorem answerWitness_apart (witness : Bytes) :
    (answerWitness C env algo mgm witness a81 a82 ram).Apart ram := by
  unfold answerWitness
  dsimp only
  split
  · exact ⟨rfl, rfl⟩
  · split <;> exact ⟨rfl, rfl⟩

theorem answerChallenge_apart (answer : Bytes) :
    (answerChallenge C env algo mgm a80 a81 answer ram).Apart ram := by
  unfold answerChallenge
  dsimp only
  split
  · exact ⟨rfl, rfl⟩
  split
  · exact ⟨rfl, rfl⟩
  · split <;> exact ⟨rfl, rfl⟩

theorem authenticateMgm_apart : (authenticateMgm C env algo mgm a80 a81 a82 ram).Apart ram := by
  unfold authenticateMgm
  split
  · exact requestWitness_apart
  split
  · exact ⟨rfl, rfl⟩
  split
  · exact answerWitness_apart _
  split
  · exact answerChallenge_apart _
  · exact ⟨rfl, rfl⟩

/-- The management key has nothing to do with the PIN. -/
theorem authenticateManagement_apart :
    (authenticateManagement C env algo mgm request ram).Apart ram := by
  unfold authenticateManagement
  split
  · exact authenticateMgm_apart
  split
  · exact authenticateMgm_apart
  split
  · exact authenticateMgm_apart
  · exact ⟨rfl, rfl⟩

end Management

/-- A command either has nothing to do with the PIN, or it has reached a private key. -/
theorem cmdPivAuthenticate_cases (C : PivCrypto) (env : AuthEnv) (ram : PivRam) (store : PivStore K)
    (algo keyRef : UInt8) (data : Bytes) :
    (cmdPivAuthenticate C env ram store algo keyRef data).Apart ram ∨
      PrivateReached env ram store algo keyRef data ∧
        cmdPivAuthenticate C env ram store algo keyRef data =
          operatePrivate env.outcome (isEcdh algo keyRef) (store.metadata keyRef) ram := by
  unfold cmdPivAuthenticate
  rcases hchecks : authPinChecks ram store algo keyRef data with sw | ⟨⟩
  · exact .inl ⟨rfl, rfl⟩
  rcases hrequest : authRequest env ram store algo keyRef data with sw | request
  · exact .inl ⟨rfl, rfl⟩
  by_cases hmgm : keyRef = efPivKeyCardmgm
  · dsimp only
    rw [if_pos hmgm]
    cases store.mgm with
    | none => exact .inl ⟨rfl, rfl⟩
    | some mgm => exact .inl authenticateManagement_apart
  dsimp only
  rw [if_neg hmgm]
  unfold authenticatePrivate
  rcases hprivate : privateChecks store algo keyRef request with sw | ⟨⟩
  · exact .inl ⟨rfl, rfl⟩
  by_cases hloaded : env.outcome = .notLoaded
  · dsimp only
    rw [hloaded]
    exact .inl ⟨rfl, rfl⟩
  · exact .inr ⟨⟨request, hchecks, hrequest, hmgm, hprivate, hloaded⟩, rfl⟩

/-- No operation verifies the PIN. -/
theorem operatePrivate_hasPwpiv {outcome : PrivateOutcome} {ecdh : Bool} {metadata : Bytes}
    (h : (operatePrivate outcome ecdh metadata ram).ram.hasPwpiv = true) : ram.hasPwpiv = true := by
  cases outcome with
  | notLoaded => exact h
  | peerRefused => exact h
  | failed => exact h
  | done response =>
    simp only [operatePrivate] at h
    split at h
    · cases h
    · exact h

/-! ### Runs in which the policies apply -/

/-- While the PIN counts as verified, it was verified after the last operation under ALWAYS. -/
def PinTold (s : PivState K) : Prop :=
  s.ram.hasPwpiv = true → pinFresh s.notes = true

variable {s : PivState K}

section

variable (h : PinTold s)
include h

/-- A private key that is reached is operated with the PIN that its slot asks for. -/
theorem PinTold.enforced {event : PivEvent K} (happlied : PolicyApplied s event) :
    Enforced C s event := by
  cases event with
  | authenticate env p1 p2 data =>
    intro hoperated
    obtain hapart | ⟨hreached, -⟩ := cmdPivAuthenticate_cases C env s.ram s.store p1 p2 data
    · rw [hapart.1] at hoperated
      cases hoperated
    obtain ⟨hasks, -⟩ := happlied hreached
    obtain ⟨request, hchecks, -⟩ := hreached
    have hfresh (hslot : slotAsks s.store p2) : pinFresh s.notes = true :=
      h (hasPwpiv_of_authPinChecks hchecks (hasks hslot).1 (hasks hslot).2)
    exact ⟨fun honce ↦ pinHeld_of_pinFresh (hfresh (.inl honce)), fun halways ↦ hfresh (.inr halways)⟩
  | verify => trivial
  | other => trivial
  | session => trivial

theorem PinTold.verify (env : VerifyEnv) (p1 p2 : UInt8) (data : Bytes) :
    PinTold (PivEvent.apply C s (.verify env p1 p2 data)) := by
  intro hpin
  simp only [PivEvent.apply] at hpin ⊢
  split
  · rfl
  rw [pinNotes, if_pos hpin]
  split
  next hbefore => exact h hbefore
  · rfl

theorem PinTold.authenticate (env : AuthEnv) (p1 p2 : UInt8) (data : Bytes)
    (happlied : PolicyApplied s (.authenticate env p1 p2 data)) :
    PinTold (PivEvent.apply C s (.authenticate env p1 p2 data)) := by
  intro hpin
  simp only [PivEvent.apply] at hpin ⊢
  obtain ⟨hoperated, hkept⟩ | ⟨hreached, hreply⟩ :=
    cmdPivAuthenticate_cases C env s.ram s.store p1 p2 data
  · rw [hoperated]
    exact h (hkept ▸ hpin)
  rw [hreply] at hpin ⊢
  have hbefore := h (operatePrivate_hasPwpiv hpin)
  split
  · by_cases halways : pinpolicyAlways ∈ slotPolicies s.store p2
    · -- Then the operation asks for the PIN again.
      obtain ⟨hmeta, response, hdone⟩ := (happlied hreached).2 halways
      rw [hdone, operatePrivate, if_pos hmeta] at hpin
      cases hpin
    · simpa [pinFresh, halways] using hbefore
  · exact hbefore

theorem PinTold.apply {event : PivEvent K} (happlied : PolicyApplied s event) :
    PinTold (event.apply C s) := by
  cases event with
  | verify env p1 p2 data => exact h.verify env p1 p2 data
  | authenticate env p1 p2 data => exact h.authenticate env p1 p2 data happlied
  | other effect ram store =>
    intro hpin
    cases effect with
    | keeps => exact h hpin
    | verifies => rfl
    | loses => cases hpin
  | session => exact fun hpin ↦ by cases hpin

theorem PinTold.steps (events : List (PivEvent K))
    (happlied : ∀ step ∈ pivSteps C s events, PolicyApplied step.1 step.2) :
    ∀ step ∈ pivSteps C s events, Enforced C step.1 step.2 := by
  induction events generalizing s with
  | nil => exact fun step hstep ↦ by cases hstep
  | cons event events ih =>
    obtain ⟨hhead, htail⟩ := forall_mem_cons.1 happlied
    exact forall_mem_cons.2 ⟨h.enforced hhead, ih (h.apply hhead) htail⟩

end

/-- When the applet starts. -/
def pivStateStart (store : PivStore K) : PivState K :=
  ⟨pivRamClosed, store, []⟩

/-- In every run in which the policies of the slots are those that are applied, no private key is
operated without the PIN that its slot asks for. -/
theorem pin_policy_law (C : PivCrypto) (store : PivStore K) (events : List (PivEvent K))
    (happlied : ∀ step ∈ pivSteps C (pivStateStart store) events, PolicyApplied step.1 step.2) :
    ∀ step ∈ pivSteps C (pivStateStart store) events, Enforced C step.1 step.2 :=
  PinTold.steps (s := pivStateStart store) (fun hpin ↦ by cases hpin) events happlied

/-! ### Examples -/

/-- The first bytes of a block, and zeros. -/
def padBlock (n : ℕ) (block : Bytes) : Bytes :=
  (block ++ List.replicate n 0).take n

theorem padBlock_padBlock {n : ℕ} {block : Bytes} (h : block.length = n) :
    padBlock n (padBlock n block) = block := by
  simp [padBlock, ← h]

theorem length_padBlock (n : ℕ) (block : Bytes) : (padBlock n block).length = n := by
  simp [padBlock]

/-- Block ciphers that change nothing. -/
def plainPivCrypto : PivCrypto where
  tdesEncrypt _ := padBlock 8
  tdesDecrypt _ := padBlock 8
  aesEncrypt _ := padBlock 16
  aesDecrypt _ := padBlock 16
  tdes_inv _ _ h := padBlock_padBlock h
  tdes_inv' _ _ h := padBlock_padBlock h
  aes_inv _ _ h := padBlock_padBlock h
  aes_inv' _ _ h := padBlock_padBlock h
  length_tdesEncrypt _ := length_padBlock 8
  length_tdesDecrypt _ := length_padBlock 8
  length_aesEncrypt _ := length_padBlock 16
  length_aesDecrypt _ := length_padBlock 16

/-- One key for P-256 in a file, and the metadata of a reference. -/
def oneKeyStore (file keyRef pinPolicy : UInt8) : PivStore Unit where
  mgm := none
  keys f := if f = file then some () else none
  metadata ref := if ref = keyRef then [pivAlgoEccp256, pinPolicy, touchpolicyNever, 1] else []

/-- A signature is asked for, and it is made. -/
def signEvent (keyRef : UInt8) : PivEvent Unit :=
  .authenticate ⟨List.replicate 16 0, rfl, true, false, .done [0x30]⟩ pivAlgoEccp256 keyRef
    [0x7c, 0x05, 0x82, 0x00, 0x81, 0x01, 0x2a]

/-- The PIN is verified. -/
def verifyEvent : PivEvent Unit :=
  .verify ⟨true, 3, swOk⟩ 0x00 0x80 [0x31, 0x32, 0x33, 0x34, 0x35, 0x36, 0xff, 0xff]

/-- A key of the slot 0x9c under ALWAYS. -/
def signatureState : PivState Unit :=
  pivStateStart (oneKeyStore efPivKeySignature efPivKeySignature pinpolicyAlways)

/-- A signature of the slot 0x9c, after VERIFY. -/
theorem pin_policy_law_signature :
    Enforced plainPivCrypto (verifyEvent.apply plainPivCrypto signatureState)
      (signEvent efPivKeySignature) := by
  refine pin_policy_law plainPivCrypto _ [verifyEvent, signEvent efPivKeySignature]
    (forall_mem_cons.2 ⟨trivial, forall_mem_cons.2 ⟨fun _ ↦ ⟨fun _ ↦ ?_, fun _ ↦ ?_⟩,
      fun _ h ↦ by cases h⟩⟩)
    (_, _) (mem_cons_of_mem _ (mem_cons_self ..))
  · exact ⟨by decide, by decide⟩
  · exact ⟨by decide, _, rfl⟩

/-- A key of the slot 0x93 under ONCE, whose metadata are under the number of its file, as MOVE KEY
leaves them: the number of the file is a reference that the PIN is not checked for, and the key signs
in a session without any VERIFY. -/
theorem unguarded_reference_operates :
    ¬ ∀ (C : PivCrypto) (store : PivStore Unit) (events : List (PivEvent Unit)),
      ∀ step ∈ pivSteps C (pivStateStart store) events, Enforced C step.1 step.2 := by
  intro hall
  have henforced := hall plainPivCrypto
    (oneKeyStore efPivKeyRetired18 efPivKeyRetired18 pinpolicyOnce) [signEvent efPivKeyRetired18]
    _ (mem_cons_self ..)
  have hheld := (henforced (by decide +kernel)).1 (by decide +kernel)
  cases hheld

end PicoAll.Piv
