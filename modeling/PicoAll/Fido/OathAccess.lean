import PicoAll.Fido.OathStep

/-!
# Access to the OATH credentials

One flag, `validated`, stands for two protections, the access code and the OTP PIN, and several
commands set it. As long as they are used with care (`OathCommand.Careful`), the flag says that each
protection that is stored was proven since the application was selected, or is a PIN that was stored
since then (`FlagTells`); no command leaves the store with less than it had and was to have; and the
retry counter of the PIN bounds the wrong PINs that are compared (`RetriesHold`), in every run.
-/

namespace PicoAll

open FaultProgram OathEvent List

variable {A : Outcome → Prop} {C : OathCrypto} {d d' : OathDevice}

/-! ### What a history says -/

/-- The code was proven since the application was selected and the code was stored. -/
def codeProven : List OathNote → Bool
  | [] => false
  | .codeProven :: _ => true
  | .selected :: _ | .codeSet :: _ => false
  | _ :: history => codeProven history

/-- The PIN was proven since the application was selected and the PIN was stored. -/
def pinProven : List OathNote → Bool
  | [] => false
  | .pinCompared true :: _ => true
  | .selected :: _ | .pinSet :: _ => false
  | _ :: history => pinProven history

/-- A PIN was stored since the application was selected, and has not been proven. -/
def pinPending : List OathNote → Bool
  | [] => false
  | .pinSet :: _ => true
  | .selected :: _ | .pinCompared true :: _ => false
  | _ :: history => pinPending history

/-- The wrong PINs that were compared since the last right one, or since a PIN was stored. -/
def wrongPins : List OathNote → ℕ
  | [] => 0
  | .pinCompared false :: history => wrongPins history + 1
  | .pinCompared true :: _ | .pinSet :: _ => 0
  | _ :: history => wrongPins history

/-! ### The three properties -/

/-- Each protection that is stored was proven since the application was selected. -/
def Granted (d : OathDevice) : Prop :=
  (codeStored d → codeProven d.ram.history) ∧ (otpPinStored d → pinProven d.ram.history)

/-- The store of `d'` has the protections that the one of `d` has. -/
def Protects (d d' : OathDevice) : Prop :=
  (codeStored d → codeStored d') ∧ (otpPinStored d → otpPinStored d')

/-- The device after a loss of power. -/
def survivor (d : OathDevice) (keep : OathFile → ℕ) : OathDevice :=
  ⟨d.files.powerCut keep, fun _ ↦ [], d.ram.reboot⟩

/-- The contents that a file may have after a loss of power. -/
def oathContents (d : OathDevice) (f : OathFile) : List (Option OathContent) :=
  d.files.view f :: d.files.stale f

/-- The wrong PINs that were compared and what the counter has left, in the flash as well, are no more
than what it starts from. -/
structure RetriesHold (d : OathDevice) : Prop where
  wrong : wrongPins d.ram.history ≤ 3
  counter : ∀ retries record, some (.plain (retries :: record)) ∈ oathContents d .otpPin →
    retries.toNat + wrongPins d.ram.history ≤ 3

/-! ### Care -/

/-- What is asked of a command. -/
def OathCommand.Careful (C : OathCrypto) (d : OathDevice) (faults : OathFile → List Outcome) :
    OathCommand → Prop
  -- it takes the place of a proof of the PIN
  | validate _ => otpPinStored d → pinProven d.ram.history ∨ pinPending d.ram.history
  -- it takes the place of a proof of the code
  | verifyPin _ => codeStored d → codeProven d.ram.history
  -- the PIN is deleted before the code is stored
  | setCode data => otpPinStored d → ∀ key, setCodeKey C data = .ok key → key = []
  -- whether the deletions succeed is not looked at
  | reset _ _ => (faults .code).headD .ok ≠ .fail ∧ (faults .otpPin).headD .ok ≠ .fail
  -- the flag stays set when a PIN is stored
  | put _ | delete _ | rename _ | list _ | calculate .. | calculateAll .. | sendRemaining =>
    otpPinStored d → pinPending d.ram.history = false
  | _ => True

/-- What is asked of an event. -/
def OathEvent.Careful (C : OathCrypto) (d : OathDevice) : OathEvent → Prop
  | command c faults => c.Careful C d faults
  | _ => True

/-- What is asked of a run. -/
def CarefulRun (C : OathCrypto) : OathDevice → List OathEvent → Prop
  | _, [] => True
  | d, event :: events => event.Careful C d ∧ CarefulRun C (event.step C d).2 events

/-- A device before anything has happened: whatever it stores has reached the flash, and the retry
counter is one that the application writes. -/
structure OathStart (d : OathDevice) : Prop where
  current : d.ram.current = false
  history : d.ram.history = []
  settled : ∀ f, d.files.stale f = []
  retries : ∀ retries record, d.read .otpPin = some (.plain (retries :: record)) →
    retries.toNat ≤ 3

/-- **What holds in every state** of a run. -/
structure OathGuarded (C : OathCrypto) (d : OathDevice) : Prop where
  /-- Without the proofs no command lists, calculates, adds, renames or deletes a credential. -/
  access : ∀ (c : OathCommand) faults, c.IsCredential → c.Careful C d faults → ¬Granted d →
    let after := step C d (.command c faults)
    after.2.files.view = d.files.view ∧ ∀ reply ∈ after.1, reply.data = []
  /-- A command that fails leaves the protections there were, or those there would be if it did
  not. -/
  protects : ∀ (c : OathCommand) faults, c.Careful C d faults →
    Protects d (step C d (.command c faults)).2 ∨
      Protects (step C d (.command c fun _ ↦ [])).2
        (step C d (.command c faults)).2
  /-- And so does one that is cut, or cut before it has reached the flash. -/
  survives : ∀ (c : OathCommand) faults, c.Careful C d faults →
    d.files.stale .code = [] → d.files.stale .otpPin = [] →
    ∀ keep, Protects d (survivor (step C d (.command c faults)).2 keep) ∨
      Protects (step C d (.command c fun _ ↦ [])).2
        (survivor (step C d (.command c faults)).2 keep)
  /-- Each wrong PIN that is compared is paid for. -/
  retries : RetriesHold d

/-! ### Without the proofs -/

section Denied

variable {J : OathDevice → Prop} (hdenied : ∀ d, J d → d.ram.validated = false)
  (hchain : ∀ d chain, J d → J (d.setRam fun ram ↦ { ram with chain := chain }))

include hdenied

theorem keeps_requireValidated_denied : Keeps J (fun _ ↦ False) requireValidated :=
  fun _ d h ↦ wp_requireValidated
    (fun htrue ↦ absurd (htrue.symm.trans (hdenied d h)) Bool.noConfusion) fun _ ↦ h

include hchain

theorem keeps_oathChainNext_denied {object : OathObject} {entry : ℕ → Bytes → ChainEntry} {next : ℕ}
    {resume : ℕ → OathChain} :
    Keeps J (fun reply ↦ reply.data = []) (oathChainNext object entry next resume) :=
  .bind (keeps_oathModifyRam fun d ↦ hchain d _) fun _ _ ↦
    .bind (keeps_requireValidated_denied hdenied) fun _ h ↦ h.elim

theorem keeps_cmdSendRemaining_denied :
    Keeps J (fun reply ↦ reply.data = []) (cmdSendRemaining C) := by
  refine .get fun d ↦ ?_
  rcases d.ram.chain with - | ⟨next, ext⟩ | ⟨next, p2, challenge⟩
  · exact .pure rfl
  · exact keeps_oathChainNext_denied hdenied hchain
  · exact keeps_oathChainNext_denied hdenied hchain

theorem keeps_cmdList_denied (data : Bytes) :
    Keeps J (fun reply ↦ reply.data = []) (cmdList C data) := by
  rw [cmdList, oathListNext]
  exact keeps_oathChainNext_denied hdenied hchain

/-- A command on the credentials ends before it does anything. -/
theorem keeps_credentialCommand_denied {c : OathCommand} (hc : c.IsCredential) :
    Keeps J (fun reply ↦ reply.data = []) (c.handler C) := by
  have hstop := keeps_requireValidated_denied hdenied
  cases c with
  | put data => exact .bind hstop fun _ h ↦ h.elim
  | delete data => exact .bind hstop fun _ h ↦ h.elim
  | rename data => exact .bind hstop fun _ h ↦ h.elim
  | list data => exact keeps_cmdList_denied hdenied hchain data
  | calculate p2 data touched =>
    exact .bind keeps_guardSw fun _ _ ↦ .bind hstop fun _ h ↦ h.elim
  | calculateAll p2 data => exact .bind keeps_guardSw fun _ _ ↦ .bind hstop fun _ h ↦ h.elim
  | sendRemaining => exact keeps_cmdSendRemaining_denied hdenied hchain
  | select | deselect | setCode | reset | validate | verifyCode | verifyPin | changePin | setPin
  | getCredential => exact absurd hc (by simp [OathCommand.IsCredential])

end Denied

/-- What the flag says: each protection that is stored was proven, or is a PIN that has just been
stored. -/
def FlagTells (d : OathDevice) : Prop :=
  d.ram.current = true → d.ram.validated = true →
    (codeStored d → codeProven d.ram.history) ∧
      (otpPinStored d → pinProven d.ram.history ∨ pinPending d.ram.history)

variable {c : OathCommand} {faults : OathFile → List Outcome} {f : OathFile}
  {E : Exit OathError → OathDevice → Prop}

/-- Without the flag, or when another application is selected, a command on the credentials does
nothing. -/
theorem wp_run_denied (hc : c.IsCredential)
    (hdenied : d.ram.current = true → d.ram.validated = false) :
    wp A (c.run C) (fun reply d' ↦ d'.files = d.files ∧ reply.data = [])
      (fun _ d' ↦ d'.files = d.files) d := by
  have hselect : ¬(c = .select ∨ c = .deselect) := by
    rintro (rfl | rfl) <;> exact hc
  rw [OathCommand.run, if_neg hselect]
  refine wp_get (wp_bind (wp_guardSw (fun hcurrent ↦ ?_) fun _ ↦ rfl))
  have hrest : Keeps (fun d' : OathDevice ↦ d'.files = d.files ∧ d'.ram.validated = false)
      (fun reply : OathReply ↦ reply.data = []) (do
        (if c = .sendRemaining then pure ()
          else oathModifyRam fun ram ↦ { ram with chain := .none })
        guardSw swInsNotSupported C.capSupported
        c.handler C) :=
    .bind (R := fun _ ↦ True) (.ite (fun _ ↦ .pure trivial) fun _ ↦
      keeps_oathModifyRam fun _ h ↦ h) fun _ _ ↦ .bind keeps_guardSw fun _ _ ↦
        keeps_credentialCommand_denied (fun _ h ↦ h.2) (fun _ _ h ↦ h) hc
  exact wp_mono (hrest A d ⟨rfl, hdenied hcurrent⟩) (fun _ _ h ↦ ⟨h.1.1, h.2⟩) fun _ _ h ↦ h.1

theorem FlagTells.access (h : FlagTells d) (hc : c.IsCredential) (hcare : c.Careful C d faults)
    (hgranted : ¬Granted d) :
    (step C d (.command c faults)).2.files.view = d.files.view ∧
      ∀ reply ∈ (step C d (.command c faults)).1, reply.data = [] := by
  rcases hoff : d.ram.off with - | -
  · -- the flag is not set: it would tell that the proofs were given
    have hdenied : d.ram.current = true → d.ram.validated = false := by
      intro hcurrent
      by_contra hvalidated
      obtain ⟨hcode, hpin⟩ := h hcurrent (Bool.not_eq_false _ ▸ hvalidated)
      have hpending : otpPinStored d → pinPending d.ram.history = false := by
        cases c <;> first | exact hcare | exact hc.elim
      exact hgranted ⟨hcode, fun hstored ↦ (hpin hstored).resolve_right (by simp [hpending hstored])⟩
    rw [step, if_neg (by simp [hoff])]
    refine runOath_of_wp (P := fun r d' ↦ d'.files.view = d.files.view ∧ ∀ reply ∈ r, reply.data = [])
      (wp_run_denied (d := { d with faults := faults }) hc hdenied) (fun r d' h ↦ ?_)
      (fun r d' h ↦ ?_) fun d' h ↦ ?_
    · exact ⟨congrArg _ h.1, by simpa using h.2⟩
    · refine ⟨congrArg _ h, fun reply hreply ↦ ?_⟩
      rcases r with - | w <;> · obtain rfl := Option.some.inj hreply; rfl
    · exact ⟨congrArg _ h, by simp⟩
  · rw [step, if_pos hoff]
    exact ⟨rfl, by simp⟩

/-! ### Selection -/

/-- `I` is about the protections and the wrong PINs only, and a write of a code keeps it. -/
structure KeptByCode (I : OathDevice → Prop) : Prop where
  same : ∀ d d' : OathDevice, (∀ f : OathFile, f.IsProtection →
    d'.files.view f = d.files.view f ∧ d'.files.stale f = d.files.stale f) →
    wrongPins d'.ram.history = wrongPins d.ram.history → I d → I d'
  code : ∀ (d : OathDevice) (data : Bytes), data ≠ [] → I d →
    I (d.written .code (some (.plain data)))

theorem oathKeyIsSecure_ne_nil {key : Bytes} (h : oathKeyIsSecure key = true) : key ≠ [] := by
  rintro rfl
  cases h

section KeptByCode

variable {I : OathDevice → Prop} (hI : KeptByCode I)

include hI

theorem KeptByCode.ofAccess : OfAccess I :=
  fun d d' h ↦ hI.same d d' (fun f hf ↦ ⟨h.view f hf, h.stale f hf⟩) (congrArg wrongPins h.history)

theorem KeptByCode.ram {g : OathRam → OathRam}
    (hg : ∀ ram, wrongPins (g ram).history = wrongPins ram.history) :
    Preserves I (oathModifyRam g) :=
  keeps_oathModifyRam fun d ↦ hI.same d _ (fun _ _ ↦ ⟨rfl, rfl⟩) (hg _)

theorem KeptByCode.oathPutCodeKey (key : Bytes) : Preserves I (oathPutCodeKey C key) := by
  refine .get fun d ↦ ?_
  rcases hkey : (if oathKeyIsSecure key = true then some key
    else oathEncryptKey C d.ram.draws key) with - | content
  · exact .fail _
  · refine .bind (hI.ram fun _ ↦ rfl) fun _ _ ↦
      Keeps.put (fun d ↦ hI.same d _ (fun _ _ ↦ ⟨rfl, rfl⟩) rfl) fun d ↦ hI.code d content ?_
    split_ifs at hkey with hsecure
    · obtain rfl := Option.some.inj hkey
      exact oathKeyIsSecure_ne_nil hsecure
    · rw [oathEncryptKey] at hkey
      split_ifs at hkey
      obtain rfl := Option.some.inj hkey
      simp [oathSecureKeyHeader]

theorem KeptByCode.selectOath : Preserves I (selectOath C) := by
  refine keeps_selectOath (fun g hg ↦ hI.ram fun ram ↦ ?_) hI.oathPutCodeKey
    fun i ↦ keeps_oathMigrateCredential (hI.ofAccess.slotClosed i)
  rcases hg ram with h | h <;> rw [h]
  rfl

theorem KeptByCode.cmdValidate (data : Bytes) : Preserves I (cmdValidate C data) :=
  keeps_cmdValidate (fun _ hg ↦ hI.ram fun ram ↦ congrArg wrongPins (hg ram)) (hI.ram fun _ ↦ rfl) data

end KeptByCode

/-! ### What protects the store -/

/-- `I` says of a protection that it is stored: it depends on the one file, and a write of bytes keeps
it. -/
structure GuardsFile (f : OathFile) (I : OathDevice → Prop) : Prop where
  isProtection : f.IsProtection
  same : ∀ d d' : OathDevice, d'.files.view f = d.files.view f →
    d'.files.stale f = d.files.stale f → I d → I d'
  write : ∀ (d : OathDevice) (data : Bytes), data ≠ [] → I d → I (d.written f (some (.plain data)))
  sync : ∀ (d : OathDevice) (g : OathFile), I d → I (d.synced g)

/-- A command deletes a protection. -/
def OathCommand.Deletes (C : OathCrypto) (f : OathFile) : OathCommand → Prop
  | setCode data => (f = .code → data = [] ∨ setCodeKey C data = .ok []) ∧
    (f = .otpPin → ∃ key, setCodeKey C data = .ok key ∧ key ≠ [])
  | reset _ _ => True
  | _ => False

section GuardsFile

variable {f : OathFile} {I : OathDevice → Prop} (hI : GuardsFile f I)

include hI

variable {a : Option OathContent}

theorem GuardsFile.written {g : OathFile} (h : g = f → ∃ data, data ≠ [] ∧ a = some (.plain data))
    (hd : I d) : I (d.written g a) := by
  rcases eq_or_ne f g with rfl | hne
  · obtain ⟨data, hdata, rfl⟩ := h rfl
    exact hI.write d data hdata hd
  · exact hI.same d _ (WriteBack.write_view_of_ne hne) (WriteBack.write_stale_of_ne hne) hd

theorem GuardsFile.keptByCode : KeptByCode I where
  same d d' hfiles _ := hI.same d d' (hfiles f hI.isProtection).1 (hfiles f hI.isProtection).2
  code _ data hdata hd := hI.written (fun _ ↦ ⟨data, hdata, rfl⟩) hd

theorem GuardsFile.ram {g : OathRam → OathRam} : Preserves I (oathModifyRam g) :=
  keeps_oathModifyRam fun d ↦ hI.same d _ rfl rfl

theorem GuardsFile.put {g : OathFile} (h : g = f → ∃ data, data ≠ [] ∧ a = some (.plain data)) :
    Preserves I (put OathError.storage g a) :=
  Keeps.put (fun d ↦ hI.same d _ rfl rfl) fun _ ↦ hI.written h

theorem GuardsFile.pinClosed : PinClosed I where
  ram _ := hI.ram
  write data hdata := hI.put fun _ ↦ ⟨data, hdata, rfl⟩
  sync _ d hd := by
    have hattempted : I (d.attempted .otpPin) := hI.same d _ rfl rfl hd
    exact wp_sync (fun _ ↦ ⟨hI.sync d _ hd, trivial⟩) (fun _ ↦ hattempted)
      (fun _ ↦ hI.sync d _ hd) fun _ ↦ hattempted

theorem GuardsFile.cmdSetCode {data : Bytes} (hdelete : ¬(OathCommand.setCode data).Deletes C f) :
    Preserves I (cmdSetCode C data) := by
  -- the other protection may be deleted
  have hdeleteCode : f ≠ .code → Preserves I deleteCode := by
    intro hne
    refine .get fun d ↦ .bind (Keeps.resultOf (.ite (fun _ ↦ hI.put fun h ↦
      absurd h.symm hne) fun _ ↦ .pure trivial)) fun r _ ↦ .bind hI.ram fun _ _ ↦ ?_
    rcases r with e | u
    · exact .fail _
    · exact .pure trivial
  refine .bind keeps_requireValidated fun _ _ ↦ .ite (fun hdata ↦ ?_) fun hdata ↦
    .bind keeps_liftSw fun key hkey ↦ .ite (fun hnil ↦ ?_) fun hnil ↦ ?_
  · refine hdeleteCode fun hf ↦ hdelete ⟨fun _ ↦ .inl hdata, fun h ↦ ?_⟩
    exact absurd (hf.symm.trans h) (by simp)
  · refine hdeleteCode fun hf ↦ hdelete ⟨fun _ ↦ .inr (hnil ▸ hkey), fun h ↦ ?_⟩
    exact absurd (hf.symm.trans h) (by simp)
  · have hpin : f ≠ .otpPin := fun hf ↦ hdelete ⟨fun h ↦ absurd (hf.symm.trans h) (by simp),
      fun _ ↦ ⟨key, hkey, hnil⟩⟩
    exact .bind hI.ram fun _ _ ↦ .get fun _ ↦
      .bind (.ite (fun _ ↦ keeps_onStorageError _ (hI.put fun h ↦ absurd h.symm hpin)) fun _ ↦
        .pure trivial) fun _ _ ↦ .bind hI.ram fun _ _ ↦
      .bind (keeps_onStorageError _ (hI.keptByCode.oathPutCodeKey key)) fun _ _ ↦ .bind hI.ram fun _ _ ↦
      .pure trivial

/-- **A command that does not delete a protection** leaves it stored. -/
theorem GuardsFile.run {c : OathCommand} (hdelete : ¬c.Deletes C f) : Preserves I (c.run C) := by
  refine keeps_run (fun d ↦ hI.same d _ rfl rfl) ?_
  have hcred : c.IsCredential ∨ c.IsReading → Preserves I (c.handler C) :=
    keeps_credentialCommand hI.keptByCode.ofAccess
  cases c with
  | put | delete | rename | list | calculate | calculateAll | sendRemaining =>
    exact hcred (.inl trivial)
  | verifyCode | getCredential => exact hcred (.inr trivial)
  | select => exact hI.keptByCode.selectOath
  | deselect => exact .bind hI.ram fun _ _ ↦ .pure trivial
  | setCode data => exact hI.cmdSetCode hdelete
  | reset => exact absurd trivial hdelete
  | validate data => exact hI.keptByCode.cmdValidate data
  | verifyPin data => exact hI.pinClosed.cmdVerifyOtpPin data
  | changePin data => exact hI.pinClosed.cmdChangeOtpPin data
  | setPin data => exact hI.pinClosed.cmdSetOtpPin data

end GuardsFile

theorem guardsFile_stored (hf : f.IsProtection) : GuardsFile f fun d ↦ oathBytes d f ≠ [] where
  isProtection := hf
  same d d' hview _ h := by
    rwa [oathBytes, Device.read, hview]
  write d data hdata _ := by
    rwa [oathBytes, Device.read_written_self]
  sync _ _ h := h

theorem guardsFile_contents (hf : f.IsProtection) :
    GuardsFile f fun d ↦ ∀ a ∈ oathContents d f, contentBytes a ≠ [] where
  isProtection := hf
  same d d' hview hstale h := by
    rwa [oathContents, hview, hstale]
  write d data hdata h := by
    intro a ha
    rw [oathContents, mem_cons] at ha
    rcases ha with rfl | ha
    · rwa [show (d.written f (some (.plain data))).files.view f = _ from d.read_written_self f _]
    · rw [show (d.written f (some (.plain data))).files.stale f = _ from
        d.files.write_stale_self f _] at ha
      exact h a ha
  sync d g h := fun a ha ↦ h a (by
    rw [oathContents, mem_cons] at ha
    rcases ha with rfl | ha
    · exact mem_cons_self ..
    · exact absurd ha not_mem_nil)

theorem stored_iff : (!(oathBytes d f).isEmpty) = true ↔ oathBytes d f ≠ [] := by
  simp

/-- What may be found after a loss of power. -/
theorem survivor_contents (d : OathDevice) (keep : OathFile → ℕ) (f : OathFile) :
    (survivor d keep).read f ∈ oathContents d f :=
  d.files.powerCut_view_mem keep f

/-! ### Commands that delete a protection -/

/-- Every write succeeds. -/
def Smooth (d : OathDevice) : Prop :=
  ∀ f, d.faults f = []

theorem Smooth.outcome (h : Smooth d) (f : OathFile) : d.outcome f = .ok := by
  rw [Device.outcome, h f]
  rfl

theorem Smooth.written (h : Smooth d) (f : OathFile) (a : Option OathContent) :
    Smooth (d.written f a) := by
  intro g
  show Function.update d.faults f (d.faults f).tail g = []
  rcases eq_or_ne g f with rfl | hne
  · rw [Function.update_self, h g]
    rfl
  · rw [Function.update_of_ne hne, h g]

variable {a : Option OathContent} {Q : Unit → OathDevice → Prop}

theorem wp_put_smooth (hsmooth : Smooth d) (h : Q () (d.written f a)) :
    wp A (put OathError.storage f a) Q E d :=
  wp_put (fun _ ↦ h) (fun hfail ↦ by simp [hsmooth.outcome] at hfail)
    (fun hlate ↦ by simp [hsmooth.outcome] at hlate) fun hcut ↦ by simp [hsmooth.outcome] at hcut

theorem wp_putIgnoring_smooth (hsmooth : Smooth d) (h : Q () (d.written f a)) :
    wp A (putIgnoring OathError.storage f a) Q E d :=
  wp_onError (wp_put_smooth hsmooth h)

/-- A protection is not stored. -/
def Unstored (f : OathFile) (d : OathDevice) : Prop :=
  oathBytes d f = []

theorem unstored_of_none (h : (d.read f).isSome ≠ true) : Unstored f d := by
  rw [Unstored, oathBytes, Option.not_isSome_iff_eq_none.mp h]
  rfl

theorem unstored_written (d : OathDevice) (f : OathFile) : Unstored f (d.written f none) := by
  rw [Unstored, oathBytes, Device.read_written_self]
  rfl

/-- The code is deleted when nothing goes wrong, and the PIN is left alone. -/
theorem wp_deleteCode_smooth (hsmooth : Smooth d) :
    wp A deleteCode (fun _ d' ↦ Unstored .code d' ∧ oathBytes d' .otpPin = oathBytes d .otpPin) E
      d := by
  refine wp_get (wp_bind (wp_resultOf (wp_ite (fun _ ↦ wp_put_smooth hsmooth ?_)
    fun hnone ↦ wp_pure ?_)))
  · refine wp_bind (wp_oathModifyRam (wp_pure ⟨unstored_written d .code, ?_⟩))
    exact congrArg contentBytes (Device.read_written_of_ne (by simp))
  · exact wp_bind (wp_oathModifyRam (wp_pure ⟨unstored_of_none hnone, rfl⟩))

theorem smooth_resetCredentials (l : List (Fin maxOathCred)) (hsmooth : Smooth d) :
    wp A (l.forM resetCredential) (fun _ ↦ Smooth) E d := by
  induction l generalizing d with
  | nil => exact wp_pure hsmooth
  | cons i l ih =>
    refine wp_bind (wp_mono (Q := fun _ ↦ Smooth) (E := E) ?_ (fun _ _ h ↦ ih h) fun _ _ h ↦ h)
    refine wp_get ?_
    rcases d.read (.cred i) with - | ((- | ⟨b, bs⟩) | ⟨credential, metadata⟩)
    · exact wp_pure hsmooth
    · exact wp_pure hsmooth
    · exact wp_putIgnoring_smooth hsmooth (hsmooth.written _ _)
    · exact wp_onError (wp_put_smooth hsmooth (hsmooth.written _ _))

/-- Nothing is left after a reset when nothing goes wrong. -/
theorem wp_cmdReset_smooth (hsmooth : Smooth d) :
    wp A (cmdReset 0xde 0xad) (fun _ d' ↦ Unstored .code d' ∧ Unstored .otpPin d')
      (fun _ _ ↦ False) d := by
  refine wp_bind (wp_guardSw (fun _ ↦ wp_get ?_) fun h ↦ nomatch h)
  have hcreds := wp_and (E := fun _ _ ↦
    False) (smooth_resetCredentials (A := A) (presentOathCreds d) hsmooth)
    (keeps_forM (fun i _ ↦ keeps_resetCredential (SameAccess.ofAccess d) i) A d (.refl d))
  refine wp_seq hcreds (fun _ d₁ h₁ ↦ ?_) fun _ _ h ↦ h.1
  obtain ⟨hsmooth₁, hsame, -⟩ := h₁
  have hread : ∀ f : OathFile, f.IsProtection → (d.read f).isSome ≠ true → Unstored f d₁ :=
    fun f hf hnone ↦ unstored_of_none (by rwa [Device.read, hsame.view f hf])
  have hcode : wp A (if (d.read .code).isSome then putIgnoring OathError.storage .code none
      else pure ()) (fun _ d' ↦ Smooth d' ∧ Unstored .code d' ∧
        oathBytes d' .otpPin = oathBytes d₁ .otpPin) (fun _ _ ↦ False) d₁ := by
    refine wp_ite (fun _ ↦ wp_putIgnoring_smooth hsmooth₁ ⟨hsmooth₁.written _ _,
      unstored_written d₁ _, congrArg contentBytes (Device.read_written_of_ne (by simp))⟩)
      fun hnone ↦ wp_pure ⟨hsmooth₁, hread _ (.inl rfl) hnone, rfl⟩
  refine wp_then hcode fun _ d₂ h₂ ↦ ?_
  obtain ⟨hsmooth₂, hcode₂, hpin₂⟩ := h₂
  have hpin : wp A (if (d.read .otpPin).isSome then putIgnoring OathError.storage .otpPin none
      else pure ()) (fun _ d' ↦ Unstored .code d' ∧ Unstored .otpPin d') (fun _ _ ↦ False) d₂ := by
    refine wp_ite (fun _ ↦ wp_putIgnoring_smooth hsmooth₂ ⟨?_, unstored_written d₂ _⟩)
      fun hnone ↦ wp_pure ⟨hcode₂, hpin₂.trans (hread _ (.inr rfl) hnone)⟩
    exact (congrArg contentBytes (Device.read_written_of_ne (by simp))).trans hcode₂
  exact wp_then hpin fun _ _ h ↦ wp_bind (wp_oathModifyRam (wp_pure h))

/-- A command whose handler ends well when nothing goes wrong. -/
theorem runOath_of_smooth {P : OathDevice → Prop} (hselect : ¬(c = .select ∨ c = .deselect))
    (hcurrent : d.ram.current = true) (hcap : C.capSupported = true)
    (h : ∀ d' : OathDevice, d'.files = d.files → Smooth d' → d'.ram.validated = d.ram.validated →
      wp (fun _ ↦ True) (c.handler C) (fun _ ↦ P) (fun _ _ ↦ False) d') :
    P (runOath C c { d with faults := fun _ ↦ [] }).2 := by
  refine runOath_of_wp (P := fun _ ↦ P) (Q := fun _ ↦ P) (E := fun _ _ ↦ False)
    (wp_run_handler hselect (fun hno _ _ ↦ ?_) fun _ _ chain ↦ h _ rfl (fun _ ↦ rfl) rfl)
    (fun _ _ h ↦ h) (fun _ _ h ↦ h.elim) fun _ h ↦ h.elim
  rcases hno with hno | hno
  · exact absurd (hcurrent.symm.trans hno) Bool.noConfusion
  · exact absurd (hcap.symm.trans hno) Bool.noConfusion

/-- A command that is refused leaves the files alone. -/
theorem runOath_of_refused (hselect : ¬(c = .select ∨ c = .deselect))
    (h : d.ram.current = true → C.capSupported = true → ∀ d' : OathDevice, d'.files = d.files →
      d'.ram.validated = d.ram.validated →
      wp (fun _ ↦ True) (c.handler C) (fun _ _ ↦ False) (fun _ d₁ ↦ d₁.files = d.files) d') :
    (runOath C c { d with faults := faults }).2.files = d.files :=
  runOath_of_wp (P := fun _ d₁ ↦ d₁.files = d.files) (wp_run_handler hselect
    (fun _ _ _ _ ↦ rfl) fun hcurrent hcap _ ↦ h hcurrent hcap _ rfl rfl)
    (fun _ _ h ↦ h.elim) (fun _ _ h ↦ h) fun _ h ↦ h

/-- What a command does to the protections: it leaves those that are stored alone, or it is refused,
or it is one that deletes the code, and perhaps the PIN. -/
theorem protections_cases (hcare : c.Careful C d faults) :
    (∀ f : OathFile, f.IsProtection → oathBytes d f ≠ [] → ¬c.Deletes C f) ∨
      (runOath C c { d with faults := faults }).2.files = d.files ∨
      Unstored .code (runOath C c { d with faults := fun _ ↦ [] }).2 ∧
        (Unstored .otpPin (runOath C c { d with faults := fun _ ↦ [] }).2 ∨
          ¬c.Deletes C .otpPin ∧
            oathBytes (runOath C c { d with faults := fun _ ↦ [] }).2 .otpPin =
              oathBytes d .otpPin) := by
  cases c with
  | select | deselect | put | delete | rename | list | calculate | validate | calculateAll
  | sendRemaining | verifyCode | verifyPin | changePin | setPin | getCredential =>
    exact .inl fun _ _ _ h ↦ h
  | reset p1 p2 =>
    right
    by_cases hgo : (d.ram.current = true ∧ C.capSupported = true) ∧ p1 = 0xde ∧ p2 = 0xad
    · obtain ⟨⟨hcurrent, hcap⟩, rfl, rfl⟩ := hgo
      obtain ⟨hcode, hpin⟩ := runOath_of_smooth (c := .reset 0xde 0xad) (by simp) hcurrent hcap
        fun d' _ hsmooth _ ↦ wp_cmdReset_smooth hsmooth
      exact .inr ⟨hcode, .inl hpin⟩
    · refine .inl (runOath_of_refused (by simp) fun hcurrent hcap d' hfiles _ ↦ ?_)
      exact wp_bind (wp_guardSw (fun h ↦ absurd ⟨⟨hcurrent, hcap⟩, of_decide_eq_true h⟩ hgo)
        fun _ ↦ hfiles)
  | setCode data =>
    have hcode : ¬(OathCommand.setCode data).Deletes C .code ∨
        data = [] ∨ setCodeKey C data = .ok [] := by
      by_cases h : data = [] ∨ setCodeKey C data = .ok []
      · exact .inr h
      · exact .inl fun hdelete ↦ h (hdelete.1 rfl)
    rcases hcode with hkept | hdelete
    · -- the code is kept, and there is no PIN, or none is deleted
      refine .inl fun f hf hstored hdelete ↦ ?_
      rcases hf with rfl | rfl
      · exact hkept hdelete
      · obtain ⟨key, hkey, hne⟩ := hdelete.2 rfl
        exact hne (hcare (stored_iff.mpr hstored) key hkey)
    · right
      have hpin : ¬(OathCommand.setCode data).Deletes C .otpPin := by
        rintro ⟨-, hpin⟩
        obtain ⟨key, hkey, hne⟩ := hpin rfl
        rcases hdelete with rfl | hnil
        · exact absurd hkey (by simp [setCodeKey, tlvFindTag, tlvFind, tlvItems, tlvItemsFuel])
        · exact hne (Except.ok.inj (hkey.symm.trans hnil))
      by_cases hgo : (d.ram.current = true ∧ C.capSupported = true) ∧ d.ram.validated = true
      · obtain ⟨⟨hcurrent, hcap⟩, hvalidated⟩ := hgo
        obtain ⟨hgone, hsame⟩ := runOath_of_smooth (c := .setCode data)
          (P := fun d' ↦ Unstored .code d' ∧ oathBytes d' .otpPin = oathBytes d .otpPin)
          (by simp) hcurrent hcap fun d' hfiles hsmooth hflag ↦ by
            have hread : oathBytes d' .otpPin = oathBytes d .otpPin := by
              rw [oathBytes, Device.read, hfiles]
              rfl
            have hdeleted := wp_mono (wp_deleteCode_smooth (A := fun _ ↦ True)
              (E := fun _ _ ↦ False) hsmooth)
              (fun _ _ h ↦ (⟨h.1, h.2.trans hread⟩ : _ ∧ oathBytes _ .otpPin = oathBytes d .otpPin))
              fun _ _ h ↦ h
            refine wp_bind (wp_requireValidated (fun _ ↦ wp_ite (fun _ ↦ hdeleted) fun hdata ↦
              wp_bind (wp_liftSw (fun key hkey ↦ wp_ite (fun _ ↦ hdeleted) fun hne ↦ ?_)
                fun w hw ↦ ?_)) fun hno ↦ absurd ((hflag.trans hvalidated).symm.trans hno) (by simp))
            · exact absurd (Except.ok.inj (hkey.symm.trans (hdelete.resolve_left hdata))) hne
            · exact absurd (hw.symm.trans (hdelete.resolve_left hdata)) (by simp)
        exact .inr ⟨hgone, .inr ⟨hpin, hsame⟩⟩
      · refine .inl (runOath_of_refused (by simp) fun hcurrent hcap d' hfiles hflag ↦ ?_)
        exact wp_bind (wp_requireValidated
          (fun h ↦ absurd ⟨⟨hcurrent, hcap⟩, hflag.symm.trans h⟩ hgo) fun _ ↦ hfiles)

/-- The protections of one store are those of another, file by file. -/
theorem protects_of {d₁ d₂ : OathDevice}
    (h : ∀ f : OathFile, f.IsProtection → oathBytes d₁ f ≠ [] → oathBytes d₂ f ≠ []) :
    Protects d₁ d₂ :=
  ⟨fun hcode ↦ stored_iff.mpr (h .code (.inl rfl) (stored_iff.mp hcode)),
    fun hpin ↦ stored_iff.mpr (h .otpPin (.inr rfl) (stored_iff.mp hpin))⟩

/-- **A command leaves the protections** there were or those there would be: of the contents `found`
that a file may have after it, that they are stored is kept by whatever does not delete them. -/
theorem protects_found (hcare : c.Careful C d faults) (found : OathDevice)
    (hkept : ∀ f : OathFile, f.IsProtection → ¬c.Deletes C f → oathBytes d f ≠ [] → oathBytes found f ≠ [])
    (hrefused : (runOath C c { d with faults := faults }).2.files = d.files → Protects d found) :
    Protects d found ∨ Protects (runOath C c { d with faults := fun _ ↦ [] }).2 found := by
  rcases protections_cases hcare with hleft | hfiles | ⟨hcode, hpin⟩
  · exact .inl (protects_of fun f hf hstored ↦ hkept f hf (hleft f hf hstored) hstored)
  · exact .inl (hrefused hfiles)
  · refine .inr (protects_of fun f hf hstored ↦ ?_)
    rcases hf with rfl | rfl
    · exact absurd hcode hstored
    · rcases hpin with hpin | ⟨hdelete, hsame⟩
      · exact absurd hpin hstored
      · exact hkept _ (.inr rfl) hdelete (hsame ▸ hstored)

theorem protects_step (hcare : c.Careful C d faults) :
    Protects d (step C d (.command c faults)).2 ∨
      Protects (step C d (.command c fun _ ↦ [])).2
        (step C d (.command c faults)).2 := by
  rw [step, step]
  split_ifs with hoff
  · exact .inl ⟨id, id⟩
  · refine protects_found hcare _ (fun f hf hdelete hstored ↦ ?_) fun hfiles ↦ ?_
    · exact runOath_of_keeps ((guardsFile_stored hf).run hdelete) (fun _ h ↦ h)
        (d := { d with faults := faults }) hstored
    · refine protects_of fun f _ hstored ↦ ?_
      rwa [oathBytes, Device.read, hfiles]

theorem survives_step (hcare : c.Careful C d faults) (hcode : d.files.stale .code = [])
    (hpin : d.files.stale .otpPin = []) (keep : OathFile → ℕ) :
    Protects d (survivor (step C d (.command c faults)).2 keep) ∨
      Protects (step C d (.command c fun _ ↦ [])).2
        (survivor (step C d (.command c faults)).2 keep) := by
  -- before the command nothing but what is read may be found
  have hcontents : ∀ f : OathFile, f.IsProtection → oathContents d f = [d.read f] := by
    rintro f (rfl | rfl)
    · rw [oathContents, hcode]; rfl
    · rw [oathContents, hpin]; rfl
  have hfound : ∀ d' : OathDevice, d'.files = d.files → Protects d (survivor d' keep) := by
    refine fun d' hfiles ↦ protects_of fun f hf hstored ↦ ?_
    have hmem := survivor_contents d' keep f
    rw [show oathContents d' f = oathContents d f by rw [oathContents, hfiles]; rfl,
      hcontents f hf, mem_singleton] at hmem
    rwa [oathBytes, hmem]
  rw [step, step]
  split_ifs with hoff
  · exact .inl (hfound d rfl)
  · refine protects_found hcare _ (fun f hf hdelete hstored ↦ ?_) fun hfiles ↦ hfound _ hfiles
    refine runOath_of_keeps ((guardsFile_contents hf).run hdelete) (fun _ h ↦ h)
      (d := { d with faults := faults }) (fun a ha ↦ ?_) _ (survivor_contents _ keep f)
    change a ∈ oathContents d f at ha
    rw [hcontents f hf, mem_singleton] at ha
    rwa [ha]

end PicoAll
