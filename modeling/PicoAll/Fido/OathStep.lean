import PicoAll.Fido.Oath

/-!
# One command of the OATH application

The rules for the steps the commands are made of, and what the commands on the credentials leave
alone: whatever they do, the access code, the OTP PIN, the proofs of the caller and the history are
after them what they were before (`keeps_credentialCommand`).
-/

namespace PicoAll

open FaultProgram

variable {A : Outcome → Prop} {α : Type} {d : OathDevice} {C : OathCrypto}

/-! ### Steps -/

section Wp

variable {Q : α → OathDevice → Prop} {E : Exit OathError → OathDevice → Prop} {w : UInt16}

theorem wp_guardSw {b : Bool} {Q : Unit → OathDevice → Prop} (htrue : b = true → Q () d)
    (hfalse : b = false → E (.code (.sw w)) d) : wp A (guardSw w b) Q E d := by
  cases b with
  | true => exact wp_pure (htrue rfl)
  | false => exact wp_fail (hfalse rfl)

theorem wp_orSw {x : Option α} (hsome : ∀ a, x = some a → Q a d)
    (hnone : x = none → E (.code (.sw w)) d) : wp A (orSw w x) Q E d := by
  cases x with
  | none => exact wp_fail (hnone rfl)
  | some a => exact wp_pure (hsome a rfl)

theorem wp_liftSw {x : Except UInt16 α} (hok : ∀ a, x = .ok a → Q a d)
    (herror : ∀ w, x = .error w → E (.code (.sw w)) d) : wp A (liftSw x) Q E d := by
  cases x with
  | ok a => exact wp_pure (hok a rfl)
  | error w => exact wp_fail (herror w rfl)

theorem wp_onStorageError {m : OathProg α} {F : Exit OathError → OathDevice → Prop}
    (h : wp A m Q F d) (hcode : ∀ r d', F (.code r) d' → E (.code (.sw w)) d')
    (hcut : ∀ d', F .cut d' → E .cut d') : wp A (onStorageError w m) Q E d := by
  refine wp_onError (wp_mono h (fun _ _ h ↦ h) fun e d' he ↦ ?_)
  rcases e with r | r
  · exact wp_fail (hcode r d' he)
  · exact hcut d' he

theorem wp_oathModifyRam {g : OathRam → OathRam} {Q : Unit → OathDevice → Prop}
    (h : Q () (d.setRam g)) : wp A (oathModifyRam g) Q E d :=
  wp_modifyState h

theorem wp_requireValidated {Q : Unit → OathDevice → Prop} (htrue : d.ram.validated = true → Q () d)
    (hfalse : d.ram.validated = false → E (.code (.sw swSecurityStatusNotSatisfied)) d) :
    wp A requireValidated Q E d :=
  wp_get (wp_guardSw htrue hfalse)

end Wp

/-! ### Invariants -/

section Keeps

variable {I : OathDevice → Prop} {R : α → Prop}

theorem keeps_guardSw {w : UInt16} {b : Bool} : Keeps I (fun _ ↦ b = true) (guardSw w b) :=
  fun _ _ h ↦ wp_guardSw (fun hb ↦ ⟨h, hb⟩) fun _ ↦ h

theorem keeps_orSw {w : UInt16} {x : Option α} : Keeps I (fun a ↦ x = some a) (orSw w x) :=
  fun _ _ h ↦ wp_orSw (fun _ ha ↦ ⟨h, ha⟩) fun _ ↦ h

theorem keeps_liftSw {x : Except UInt16 α} : Keeps I (fun a ↦ x = .ok a) (liftSw x) :=
  fun _ _ h ↦ wp_liftSw (fun _ ha ↦ ⟨h, ha⟩) fun _ _ ↦ h

theorem keeps_onStorageError (w : UInt16) {m : OathProg α} (hm : Keeps I R m) :
    Keeps I R (onStorageError w m) :=
  fun A d h ↦ wp_onStorageError (hm A d h) (fun _ _ h ↦ h) fun _ h ↦ h

theorem keeps_oathModifyRam {g : OathRam → OathRam} (hg : ∀ d, I d → I (d.setRam g)) :
    Preserves I (oathModifyRam g) :=
  fun _ d h ↦ wp_oathModifyRam ⟨hg d h, trivial⟩

theorem keeps_requireValidated : Preserves I requireValidated :=
  .get fun _ ↦ .weaken keeps_guardSw fun _ _ ↦ trivial

theorem keeps_forM {β : Type} {l : List β} {m : β → OathProg Unit}
    (h : ∀ b ∈ l, Preserves I (m b)) : Preserves I (l.forM m) := by
  induction l with
  | nil => exact .pure trivial
  | cons b l ih =>
    exact .bind (h b (List.mem_cons_self ..)) fun _ _ ↦
      ih fun b' hb' ↦ h b' (List.mem_cons_of_mem _ hb')

end Keeps

/-- `I` survives a change of what SEND REMAINING goes on with. -/
def ChainClosed (I : OathDevice → Prop) : Prop :=
  ∀ d chain, I d → I (d.setRam fun ram ↦ { ram with chain := chain })

section ChainClosed

variable {I : OathDevice → Prop} (hI : ChainClosed I)

include hI

theorem keeps_setChain (chain : OathChain) : Preserves I
    (oathModifyRam fun ram ↦ { ram with chain := chain }) :=
  keeps_oathModifyRam fun d ↦ hI d chain

theorem keeps_oathChainNext {object : OathObject} {entry : ℕ → Bytes → ChainEntry} {next : ℕ}
    {resume : ℕ → OathChain} : Preserves I (oathChainNext object entry next resume) :=
  .bind (keeps_setChain hI _) fun _ _ ↦ .bind keeps_requireValidated fun _ _ ↦
    .get fun _ ↦ .bind keeps_orSw fun _ _ ↦
    .bind (.ite (fun _ ↦ keeps_setChain hI _) fun _ ↦ .pure trivial) fun _ _ ↦ .pure trivial

theorem keeps_cmdList (data : Bytes) : Preserves I (cmdList C data) := by
  rw [cmdList, oathListNext]
  exact keeps_oathChainNext hI

theorem keeps_cmdCalculateAll (p2 : UInt8) (data : Bytes) :
    Preserves I (cmdCalculateAll C p2 data) :=
  .bind keeps_guardSw fun _ _ ↦ .bind keeps_requireValidated fun _ _ ↦
    .bind keeps_orSw fun _ _ ↦ .bind keeps_guardSw fun _ _ ↦
    keeps_oathChainNext hI

theorem keeps_cmdSendRemaining : Preserves I (cmdSendRemaining C) := by
  refine .get fun d ↦ ?_
  rcases d.ram.chain with - | ⟨next, ext⟩ | ⟨next, p2, challenge⟩
  · exact .pure trivial
  · exact keeps_oathChainNext hI
  · exact keeps_oathChainNext hI

end ChainClosed

/-! ### What the commands on the protections are made of -/

/-- `I` survives what the commands on the PIN do. -/
structure PinClosed (I : OathDevice → Prop) : Prop where
  ram : ∀ g : OathRam → OathRam, Keeps I (fun _ ↦ True) (oathModifyRam g)
  write : ∀ data : Bytes, data ≠ [] →
    Keeps I (fun _ ↦ True) (put OathError.storage .otpPin (some (.plain data)))
  sync : Keeps I (fun _ ↦ True) (sync OathError.storage .otpPin)

namespace PinClosed

variable {I : OathDevice → Prop}

section

variable (hI : PinClosed I)
include hI

theorem otpPinWrite (pin : Bytes) : Preserves I (otpPinWrite C pin) :=
  keeps_onStorageError _ (hI.write _ (by simp [otpPinRecordV1]))

theorem oathCheckPin (pin : Bytes) : Preserves I (oathCheckPin C pin) := by
  have hspend : ∀ (retries : UInt8) (record : Bytes),
      Preserves I (otpPinSpend (retries :: record)) := fun _ _ ↦
    .bind (hI.write _ (by simp)) fun _ _ ↦ hI.sync
  refine .get fun d ↦ .ite (fun _ ↦ .pure trivial) fun _ ↦
    .ite (fun _ ↦ .pure trivial) fun _ ↦ .bind (Keeps.resultOf (hspend _ _)) fun r _ ↦ ?_
  rcases r with e | u
  · exact .pure trivial
  · exact .get fun _ ↦ .ite (fun _ ↦ .pure trivial) fun _ ↦
      .bind (hI.ram _) fun _ _ ↦ .pure trivial

theorem cmdVerifyOtpPin (data : Bytes) : Preserves I (cmdVerifyOtpPin C data) :=
  .get fun _ ↦ .bind keeps_guardSw fun _ _ ↦ .bind (hI.ram _) fun _ _ ↦
    .bind keeps_orSw fun _ _ ↦ .bind (hI.oathCheckPin _) fun _ _ ↦ .ite (fun _ ↦ .fail _) fun _ ↦
    .ite (fun _ ↦ .bind (hI.ram _) fun _ _ ↦ .fail _) fun _ ↦
    .bind (hI.otpPinWrite _) fun _ _ ↦ .bind (hI.ram _) fun _ _ ↦ .pure trivial

theorem cmdChangeOtpPin (data : Bytes) : Preserves I (cmdChangeOtpPin C data) :=
  .get fun _ ↦ .bind keeps_guardSw fun _ _ ↦ .bind keeps_orSw fun _ _ ↦
    .bind keeps_orSw fun _ _ ↦ .bind (hI.oathCheckPin _) fun _ _ ↦
    .ite (fun _ ↦ .bind (hI.ram _) fun _ _ ↦ .fail _) fun _ ↦
    .bind (hI.otpPinWrite _) fun _ _ ↦ .bind (hI.ram _) fun _ _ ↦ .pure trivial

theorem cmdSetOtpPin (data : Bytes) : Preserves I (cmdSetOtpPin C data) :=
  .bind keeps_requireValidated fun _ _ ↦ .get fun _ ↦
    .bind keeps_guardSw fun _ _ ↦ .bind keeps_orSw fun _ _ ↦ .bind (hI.ram _) fun _ _ ↦
    .bind (hI.otpPinWrite _) fun _ _ ↦ .bind (hI.ram _) fun _ _ ↦ .pure trivial

end

end PinClosed

/-- A change of the memory that leaves the history alone, but for a selection. -/
def QuietRam (g : OathRam → OathRam) : Prop :=
  ∀ ram, (g ram).history = ram.history ∨ (g ram).history = .selected :: ram.history

section Select

variable {I : OathDevice → Prop}
  (hram : ∀ g, QuietRam g → Keeps I (fun _ ↦ True) (oathModifyRam g))
  (hkey : ∀ key, Keeps I (fun _ ↦ True) (oathPutCodeKey C key))
  (hmigrate : ∀ i, Keeps I (fun _ ↦ True) (oathMigrateCredential C i))

include hram hkey hmigrate

theorem keeps_oathSelect : Preserves I (oathSelect C) := by
  have hsame : ∀ g : OathRam → OathRam, (∀ ram, (g ram).history = ram.history) →
      Preserves I (oathModifyRam g) := fun g hg ↦ hram g fun ram ↦ .inl (hg ram)
  have hsecrets : Preserves I (oathMigrateSecrets C) :=
    .get fun d ↦ .ite (fun _ ↦ .pure trivial) fun _ ↦
      .bind (keeps_forM fun i _ ↦ hmigrate i) fun _ _ ↦ .get fun d ↦
      .bind (.ite (fun _ ↦ hkey _) fun _ ↦ .pure trivial) fun _ _ ↦ hsame _ fun _ ↦ rfl
  exact .bind keeps_guardSw fun _ _ ↦ .get fun d ↦
    .bind (hsame _ fun _ ↦ rfl) fun _ _ ↦ .bind (hram _ fun _ ↦ .inr rfl) fun _ _ ↦
    .bind hsecrets fun _ _ ↦
    .bind (.ite (fun _ ↦ hsame _ fun _ ↦ rfl) fun _ ↦ .pure trivial) fun _ _ ↦
    .bind (hsame _ fun _ ↦ rfl) fun _ _ ↦ .get fun _ ↦ .pure trivial

theorem keeps_selectOath : Preserves I (selectOath C) := by
  refine .get fun d ↦
    .bind (Keeps.resultOf (keeps_oathSelect hram hkey hmigrate)) fun r _ ↦ ?_
  rcases r with e | reply
  · exact .bind (.ite (fun _ ↦ .pure trivial) fun _ ↦ hram _ fun _ ↦ .inl rfl) fun _ _ ↦ .fail _
  · exact .pure trivial

end Select

variable {I : OathDevice → Prop} {c : OathCommand}

theorem keeps_cmdValidate
    (hram : ∀ g : OathRam → OathRam, (∀ ram, (g ram).history = ram.history) →
      Preserves I (oathModifyRam g))
    (hproven : Preserves I (noteOath .codeProven)) (data : Bytes) :
    Preserves I (cmdValidate C data) :=
  .bind keeps_orSw fun _ _ ↦ .bind keeps_orSw fun _ _ ↦ .get fun _ ↦
    .ite (fun _ ↦ .bind (hram _ fun _ ↦ rfl) fun _ _ ↦ .fail _) fun _ ↦ .bind keeps_liftSw fun _ _ ↦
    .bind keeps_guardSw fun _ _ ↦ .bind hproven fun _ _ ↦
    .bind (hram _ fun _ ↦ rfl) fun _ _ ↦ .pure trivial

/-! ### What the commands on the credentials leave alone -/

/-- The access code and the OTP PIN. -/
def OathFile.IsProtection (f : OathFile) : Prop :=
  f = .code ∨ f = .otpPin

/-- The protections, the proofs of the caller and the history are the same. -/
structure SameAccess (d d' : OathDevice) : Prop where
  view : ∀ f : OathFile, f.IsProtection → d'.files.view f = d.files.view f
  stale : ∀ f : OathFile, f.IsProtection → d'.files.stale f = d.files.stale f
  current : d'.ram.current = d.ram.current
  validated : d'.ram.validated = d.ram.validated
  history : d'.ram.history = d.ram.history

namespace SameAccess

theorem refl (d : OathDevice) : SameAccess d d :=
  ⟨fun _ _ ↦ rfl, fun _ _ ↦ rfl, rfl, rfl, rfl⟩

theorem trans {d₁ d₂ d₃ : OathDevice} (h : SameAccess d₁ d₂) (h' : SameAccess d₂ d₃) :
    SameAccess d₁ d₃ where
  view f hf := (h'.view f hf).trans (h.view f hf)
  stale f hf := (h'.stale f hf).trans (h.stale f hf)
  current := h'.current.trans h.current
  validated := h'.validated.trans h.validated
  history := h'.history.trans h.history

theorem attempted (d : OathDevice) (f : OathFile) : SameAccess d (d.attempted f) :=
  ⟨fun _ _ ↦ rfl, fun _ _ ↦ rfl, rfl, rfl, rfl⟩

theorem written (d : OathDevice) (i : Fin maxOathCred) (a : Option OathContent) :
    SameAccess d (d.written (.cred i) a) where
  view f hf := WriteBack.write_view_of_ne (by rintro rfl; simp [OathFile.IsProtection] at hf)
  stale f hf := WriteBack.write_stale_of_ne (by rintro rfl; simp [OathFile.IsProtection] at hf)
  current := rfl
  validated := rfl
  history := rfl

theorem setRam (d : OathDevice) {g : OathRam → OathRam}
    (hg : ∀ ram, (g ram).current = ram.current ∧ (g ram).validated = ram.validated ∧
      (g ram).history = ram.history) : SameAccess d (d.setRam g) :=
  ⟨fun _ _ ↦ rfl, fun _ _ ↦ rfl, (hg _).1, (hg _).2.1, (hg _).2.2⟩

end SameAccess

/-- `I` is about the protections, the proofs and the history only. -/
def OfAccess (I : OathDevice → Prop) : Prop :=
  ∀ d d', SameAccess d d' → I d → I d'

theorem SameAccess.ofAccess (d : OathDevice) : OfAccess (SameAccess d) :=
  fun _ _ h h' ↦ h'.trans h

/-- `I` survives a write of slot `i`. -/
structure SlotClosed (i : Fin maxOathCred) (I : OathDevice → Prop) : Prop where
  draw : Keeps I (fun _ ↦ True) (oathModifyRam fun ram ↦ { ram with draws := ram.draws + 1 })
  put : ∀ a, Keeps I (fun _ ↦ True) (put OathError.storage (.cred i) a)

section SlotClosed

variable {I : OathDevice → Prop} {i : Fin maxOathCred} (hI : SlotClosed i I)

include hI

theorem keeps_oathPutCredentialData (data : Bytes) :
    Preserves I (oathPutCredentialData C i data) := by
  refine .get fun d ↦ ?_
  rcases oathSealedData C d.ram.draws data with - | content
  · exact .fail _
  · exact .bind hI.draw fun _ _ ↦ hI.put _

theorem keeps_oathMigrateCredential : Preserves I (oathMigrateCredential C i) := by
  refine .get fun d ↦ ?_
  rcases d.read (.cred i) with - | (data | _)
  · exact .pure trivial
  · dsimp only
    rcases tlvFindTag tagKey data with - | key
    · exact .pure trivial
    · exact .ite (fun _ ↦ .pure trivial) fun _ ↦ keeps_oathPutCredentialData hI data
  · exact .pure trivial

theorem keeps_oathContainerWrite (data : Bytes) : Preserves I (oathContainerWrite i data) := by
  rw [oathContainerWrite]
  rcases oathCredentialMetadata data with - | metadata
  · exact .fail _
  · exact hI.put _

theorem keeps_oathCredentialWrite (data : Bytes) : Preserves I (oathCredentialWrite C i data) := by
  refine .get fun d ↦ ?_
  rcases d.read (.cred i) with - | ((- | _) | _)
  · exact keeps_oathContainerWrite hI _
  · exact keeps_oathContainerWrite hI _
  · exact keeps_oathPutCredentialData hI _
  · exact keeps_oathContainerWrite hI _

theorem keeps_hotpAdvance (record : Bytes) (imf : TlvItem) :
    Preserves I (hotpAdvance C i record imf) :=
  .bind keeps_guardSw fun _ _ ↦
    .bind (keeps_onStorageError _ (keeps_oathCredentialWrite hI _)) fun _ _ ↦ .pure trivial

end SlotClosed

section OfAccess

variable {I : OathDevice → Prop} (hI : OfAccess I)

include hI

theorem OfAccess.slotClosed (i : Fin maxOathCred) : SlotClosed i I where
  draw := keeps_oathModifyRam fun d ↦ hI d _ (.setRam d fun _ ↦ ⟨rfl, rfl, rfl⟩)
  put a := Keeps.put (fun d ↦ hI d _ (.attempted d _)) fun d ↦ hI d _ (.written d i a)

theorem keeps_cmdPut (data : Bytes) : Preserves I (cmdPut C data) :=
  .bind keeps_requireValidated fun _ _ ↦ .bind keeps_orSw fun _ _ ↦
    .bind keeps_guardSw fun _ _ ↦ .bind keeps_orSw fun _ _ ↦
    .bind keeps_guardSw fun _ _ ↦ .get fun _ ↦ .bind keeps_orSw fun i _ ↦
    .bind (keeps_onStorageError _ (keeps_oathCredentialWrite (hI.slotClosed i) _)) fun _ _ ↦ .pure trivial

theorem keeps_cmdDelete (data : Bytes) : Preserves I (cmdDelete data) :=
  .bind keeps_requireValidated fun _ _ ↦ .bind keeps_orSw fun _ _ ↦
    .get fun _ ↦ .bind keeps_orSw fun i _ ↦
    .bind (keeps_onStorageError _ ((hI.slotClosed i).put none)) fun _ _ ↦ .pure trivial

theorem keeps_cmdRename (data : Bytes) : Preserves I (cmdRename C data) :=
  .bind keeps_requireValidated fun _ _ ↦ .bind keeps_orSw fun _ _ ↦
    .get fun _ ↦ .bind keeps_orSw fun i _ ↦ .bind keeps_orSw fun _ _ ↦
    .bind keeps_orSw fun _ _ ↦
    .bind (keeps_onStorageError _ (keeps_oathCredentialWrite (hI.slotClosed i) _)) fun _ _ ↦ .pure trivial

theorem keeps_cmdCalculate (p2 : UInt8) (data : Bytes) (touched : Bool) :
    Preserves I (cmdCalculate C p2 data touched) := by
  refine .bind keeps_guardSw fun _ _ ↦ .bind keeps_requireValidated fun _ _ ↦
    .bind keeps_orSw fun challenge _ ↦ .bind keeps_orSw fun _ _ ↦
    .get fun _ ↦ .bind keeps_orSw fun i _ ↦ .bind keeps_orSw fun record _ ↦
    .bind keeps_liftSw fun key _ ↦ .bind keeps_guardSw fun _ _ ↦
    .bind keeps_guardSw fun _ _ ↦ .bind (R := fun _ ↦ True) ?_ fun _ _ ↦
    .bind keeps_orSw fun _ _ ↦ .pure trivial
  rcases tlvFind tagImf record with - | imf
  · exact .pure trivial
  · exact .ite (fun _ ↦ keeps_hotpAdvance (hI.slotClosed i) record imf) fun _ ↦ .pure trivial

omit hI in
theorem keeps_oathRequireOtpPin : Preserves I oathRequireOtpPin :=
  .get fun _ ↦
    .weaken keeps_guardSw fun _ _ ↦ trivial

omit hI in
theorem keeps_cmdVerifyHotp (data : Bytes) (touched : Bool) :
    Preserves I (cmdVerifyHotp C data touched) :=
  .bind keeps_requireValidated fun _ _ ↦ .bind keeps_oathRequireOtpPin fun _ _ ↦
    .bind keeps_orSw fun _ _ ↦ .get fun _ ↦ .bind keeps_orSw fun _ _ ↦
    .bind keeps_orSw fun _ _ ↦ .bind keeps_liftSw fun _ _ ↦
    .bind keeps_guardSw fun _ _ ↦ .bind keeps_orSw fun _ _ ↦
    .bind keeps_guardSw fun _ _ ↦ .bind keeps_orSw fun _ _ ↦
    .bind keeps_guardSw fun _ _ ↦ .bind keeps_orSw fun _ _ ↦
    .bind keeps_guardSw fun _ _ ↦ .pure trivial

omit hI in
theorem keeps_cmdGetCredential (data : Bytes) : Preserves I (cmdGetCredential data) :=
  .bind keeps_requireValidated fun _ _ ↦ .bind keeps_oathRequireOtpPin fun _ _ ↦
    .bind keeps_guardSw fun _ _ ↦ .bind keeps_guardSw fun _ _ ↦
    .bind keeps_orSw fun _ _ ↦ .get fun _ ↦ .bind keeps_orSw fun _ _ ↦
    .bind keeps_orSw fun _ _ ↦ .bind keeps_orSw fun _ _ ↦ .pure trivial

theorem OfAccess.chainClosed : ChainClosed I :=
  fun d _ ↦ hI d _ (.setRam d fun _ ↦ ⟨rfl, rfl, rfl⟩)

theorem keeps_resetCredential (i : Fin maxOathCred) : Preserves I (resetCredential i) := by
  refine .get fun d ↦ ?_
  rcases d.read (.cred i) with - | ((- | ⟨b, bs⟩) | ⟨credential, metadata⟩)
  · exact .pure trivial
  · exact .pure trivial
  · exact Keeps.putIgnoring (fun d ↦ hI d _ (.attempted d _)) fun d ↦ hI d _ (.written d i none)
  · exact keeps_onStorageError _ ((hI.slotClosed i).put none)

end OfAccess

/-- The commands that list, calculate, add, rename or delete credentials. -/
def OathCommand.IsCredential : OathCommand → Prop
  | put _ | delete _ | rename _ | list _ | calculate .. | calculateAll .. | sendRemaining => True
  | _ => False

/-- The commands that only read credentials. -/
def OathCommand.IsReading : OathCommand → Prop
  | verifyCode .. | getCredential _ => True
  | _ => False

/-- **The commands on the credentials** keep what is about the protections, the proofs and the history
only. -/
theorem keeps_credentialCommand (hI : OfAccess I) (hc : c.IsCredential ∨ c.IsReading) :
    Preserves I (c.handler C) := by
  cases c with
  | put data => exact keeps_cmdPut hI data
  | delete data => exact keeps_cmdDelete hI data
  | rename data => exact keeps_cmdRename hI data
  | list data => exact keeps_cmdList hI.chainClosed data
  | calculate p2 data touched => exact keeps_cmdCalculate hI p2 data touched
  | calculateAll p2 data => exact keeps_cmdCalculateAll hI.chainClosed p2 data
  | sendRemaining => exact keeps_cmdSendRemaining hI.chainClosed
  | verifyCode data touched => exact keeps_cmdVerifyHotp data touched
  | getCredential data => exact keeps_cmdGetCredential data
  | select | deselect | setCode | reset | validate | verifyPin | changePin | setPin =>
    exact absurd hc (by simp [OathCommand.IsCredential, OathCommand.IsReading])

variable {R : OathReply → Prop} {Q : OathReply → OathDevice → Prop}
  {E : Exit OathError → OathDevice → Prop}

/-- What `oath_process_apdu` does before the handler keeps it too. -/
theorem keeps_run (hchain : ∀ d, I d → I (d.setRam fun ram ↦ { ram with chain := .none }))
    (hc : Keeps I R (c.handler C)) : Keeps I R (c.run C) := by
  refine .ite (fun _ ↦ hc) fun _ ↦ .get fun _ ↦ .bind keeps_guardSw fun _ _ ↦
    .bind (R := fun _ ↦ True) ?_ fun _ _ ↦ .bind keeps_guardSw fun _ _ ↦ hc
  exact .ite (fun _ ↦ .pure trivial) fun _ ↦ keeps_oathModifyRam hchain

/-- The device with another `oath_chain_state`. -/
def OathDevice.withChain (d : OathDevice) (chain : OathChain) : OathDevice :=
  d.setRam fun ram ↦ { ram with chain := chain }

/-- A command is refused, or its handler runs. -/
theorem wp_run_handler (hselect : ¬(c = .select ∨ c = .deselect))
    (hrefused : d.ram.current = false ∨ C.capSupported = false →
      ∀ w, w = swFileNotFound ∨ w = swInsNotSupported →
      ∀ chain, E (.code (.sw w)) (d.withChain chain))
    (hgo : d.ram.current = true → C.capSupported = true →
      ∀ chain, wp A (c.handler C) Q E (d.withChain chain)) :
    wp A (c.run C) Q E d := by
  rw [OathCommand.run, if_neg hselect]
  refine wp_get (wp_bind (wp_guardSw (fun hcurrent ↦ ?_) fun hcurrent ↦
    hrefused (.inl hcurrent) _ (.inl rfl) d.ram.chain))
  have hrest : ∀ chain, wp A (do
      guardSw swInsNotSupported C.capSupported
      c.handler C) Q E (d.withChain chain) := fun chain ↦
    wp_bind (wp_guardSw (fun hcap ↦ hgo hcurrent hcap chain) fun hcap ↦
      hrefused (.inr hcap) _ (.inr rfl) chain)
  exact wp_bind (wp_return (hrest d.ram.chain) fun _ ↦ wp_oathModifyRam (hrest .none))

/-- What holds of the answer and the device after a command. -/
theorem runOath_of_wp {P : Option OathReply → OathDevice → Prop}
    (h : wp (fun _ ↦ True) (c.run C) Q E d) (hok : ∀ r d', Q r d' → P (some r) d')
    (herror : ∀ r d', E (.code r) d' → P (oathOutput (.error (.code r))) d')
    (hcut : ∀ d', E .cut d' → P none (d'.setRam fun ram ↦ { ram with off := true })) :
    P (runOath C c d).1 (runOath C c d).2 := by
  rw [runOath]
  rcases run_of_wp h (fun o (_ : o ∈ []) ↦ trivial) with ⟨r, hr, hQ⟩ | ⟨e, he, hE⟩
  · rw [hr]
    exact hok r _ hQ
  · rw [he]
    rcases e with r | r
    · exact herror r _ hE
    · exact hcut _ hE

/-- What a command keeps is kept when it runs, if it does not depend on the power. -/
theorem runOath_of_keeps (h : Keeps I R (c.run C))
    (hoff : ∀ d, I d → I (d.setRam fun ram ↦ { ram with off := true })) (hd : I d) :
    I (runOath C c d).2 :=
  runOath_of_wp (P := fun _ ↦ I) (h _ d hd) (fun _ _ h ↦ h.1) (fun _ _ h ↦ h) hoff

end PicoAll
