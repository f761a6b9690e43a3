import PicoAll.Fido.OathAccess

/-!
# Runs of the OATH application

What a command does to the flag and to the retry counter of the OTP PIN, and with it the run lemma:
in every state that a careful run reaches, the credentials are guarded (`oath_access_controlled`).
-/

namespace PicoAll

open FaultProgram List

variable {A : Outcome → Prop} {C : OathCrypto} {d d' : OathDevice} {pin : Bytes}

/-! ### Checking a PIN -/

/-- The record of the PIN with one try less. -/
def spentRecord (d : OathDevice) : Bytes :=
  ((oathBytes d .otpPin).headD 0 - 1) :: (oathBytes d .otpPin).tail

/-- The device with one try less. -/
def oathSpend (d : OathDevice) : OathDevice :=
  d.written .otpPin (some (.plain (spentRecord d)))

/-- What becomes of the device when the counter cannot be brought into the flash. -/
inductive SpendPart (d : OathDevice) : OathDevice → Prop
  | refused : SpendPart d (d.attempted .otpPin)
  | written : SpendPart d (oathSpend d)
  | unflushed : SpendPart d ((oathSpend d).attempted .otpPin)
  | flushed : SpendPart d ((oathSpend d).synced .otpPin)

/-- The device with one more note. -/
def oathNoted (d : OathDevice) (note : OathNote) : OathDevice :=
  d.setRam fun ram ↦ { ram with history := note :: ram.history }

/-- **Checking a PIN.** It is compared when one try less is in the flash. -/
theorem wp_oathCheckPin {Q : OtpPinMatchResult → OathDevice → Prop}
    {E : Exit OathError → OathDevice → Prop} (hstop : ∀ result, result ≠ .pinMatch → Q result d)
    (hpart : ∀ d', SpendPart d d' → (oathBytes d .otpPin).headD 0 ≠ 0 →
      Q .storageError d' ∧ E .cut d')
    (hcompared : otpPinSizeValid (oathBytes d .otpPin) = true →
      (oathBytes d .otpPin).headD 0 ≠ 0 → ∀ correct : Bool,
        Q (if correct then .pinMatch else .mismatch)
          (oathNoted ((oathSpend d).synced .otpPin) (.pinCompared correct))) :
    wp A (oathCheckPin C pin) Q E d := by
  refine wp_get (wp_return (hstop _ (by simp)) fun hsize ↦
    wp_return (hstop _ (by simp)) fun hne ↦ wp_bind (wp_resultOf ?_))
  have hsize : otpPinSizeValid (oathBytes d .otpPin) = true := by simpa using hsize
  refine wp_bind (wp_put (fun _ ↦ wp_sync (fun _ ↦ ?_) (fun _ ↦ ?_) (fun _ ↦ ?_) fun _ ↦ ?_)
    (fun _ ↦ ?_) (fun _ ↦ ?_) fun _ ↦ ?_)
  · refine wp_get ?_
    have hstored : oathBytes ((oathSpend d).synced .otpPin) .otpPin = spentRecord d := by
      rfl
    have hlength : (spentRecord d).length = (oathBytes d .otpPin).length := by
      rcases hrecord : oathBytes d .otpPin with - | ⟨retries, record⟩
      · rw [hrecord] at hsize
        cases hsize
      · rw [spentRecord, hrecord]
        rfl
    refine wp_ite (fun hbad ↦ ?_) fun _ ↦ wp_bind (wp_oathModifyRam (wp_pure ?_))
    · change (oathBytes ((oathSpend d).synced .otpPin) .otpPin).length ≠ _ ∨
        (oathBytes ((oathSpend d).synced .otpPin) .otpPin).headD 0 ≠ (spentRecord d).headD 0 at hbad
      rw [hstored] at hbad
      exact absurd hbad (by simp [hlength])
    · exact hcompared hsize hne _
  · exact wp_pure (hpart _ .unflushed hne).1
  · exact wp_pure (hpart _ .flushed hne).1
  · exact (hpart _ .unflushed hne).2
  · exact wp_pure (hpart _ .refused hne).1
  · exact wp_pure (hpart _ .written hne).1
  · exact (hpart _ .refused hne).2

/-! ### The retry counter -/

theorem RetriesHold.of_contents (h : RetriesHold d)
    (hcontents : ∀ a ∈ oathContents d' .otpPin, a ∈ oathContents d .otpPin)
    (hwrong : wrongPins d'.ram.history = wrongPins d.ram.history) : RetriesHold d' where
  wrong := hwrong ▸ h.wrong
  counter retries record hmem := hwrong ▸ h.counter retries record (hcontents _ hmem)

theorem keptByCode_retriesHold : KeptByCode RetriesHold where
  same d d' hfiles hwrong h := h.of_contents (fun a ha ↦ by
    rwa [oathContents, (hfiles .otpPin (.inr rfl)).1, (hfiles .otpPin (.inr rfl)).2] at ha)
    hwrong
  code d data _ h := h.of_contents (fun a ha ↦ by
    rwa [oathContents, show (d.written .code (some (.plain data))).files.view .otpPin = _ from
      WriteBack.write_view_of_ne (by simp), show (d.written .code (some (.plain data))).files.stale
      .otpPin = _ from WriteBack.write_stale_of_ne (by simp)] at ha) rfl

theorem contents_written (d : OathDevice) (f : OathFile) (a : Option OathContent) :
    oathContents (d.written f a) f = a :: oathContents d f := by
  rw [oathContents, show (d.written f a).files.view f = a from d.read_written_self f a,
    show (d.written f a).files.stale f = _ from d.files.write_stale_self f a]
  rfl

variable {a : Option OathContent} {f : OathFile}

section

variable (h : RetriesHold d)
include h

/-- A content is written that allows no more tries than are left. -/
theorem RetriesHold.written
    (ha : ∀ retries record, a = some (.plain (retries :: record)) →
      retries.toNat + wrongPins d.ram.history ≤ 3) :
    RetriesHold (d.written .otpPin a) where
  wrong := h.wrong
  counter retries record hmem := by
    rw [contents_written, mem_cons] at hmem
    rcases hmem with hmem | hmem
    · exact ha retries record hmem.symm
    · exact h.counter retries record hmem

theorem RetriesHold.synced (f : OathFile) : RetriesHold (d.synced f) :=
  h.of_contents (fun a ha ↦ by
    rw [oathContents, mem_cons] at ha
    rcases ha with rfl | ha
    · exact mem_cons_self ..
    · exact absurd ha not_mem_nil) rfl

/-- After a note that forgives, the counter may stand at its maximum. -/
theorem RetriesHold.forgiven {note : OathNote}
    (hnote : ∀ history, wrongPins (note :: history) = 0) : RetriesHold (oathNoted d note) where
  wrong := (hnote d.ram.history).trans_le (by omega)
  counter retries record hmem := by
    have hle := h.counter retries record hmem
    rw [show wrongPins (oathNoted d note).ram.history = 0 from hnote d.ram.history]
    omega

/-- What is left of the counter of the record that is stored. -/
theorem spentRecord_le (hne : (oathBytes d .otpPin).headD 0 ≠ 0) :
    ((oathBytes d .otpPin).headD 0 - 1).toNat + 1 + wrongPins d.ram.history ≤ 3 := by
  rcases hread : d.read .otpPin with - | (data | _)
  · exact absurd (by rw [oathBytes, hread]; rfl) hne
  · rcases data with - | ⟨retries, record⟩
    · exact absurd (by rw [oathBytes, hread]; rfl) hne
    · have hle := h.counter retries record (hread ▸ mem_cons_self ..)
      rw [show oathBytes d .otpPin = retries :: record by rw [oathBytes, hread]; rfl] at hne ⊢
      have hpos : retries.toNat ≠ 0 := fun hzero ↦ hne (UInt8.toNat_inj.mp hzero)
      have hsub : (retries - 1).toNat = retries.toNat - 1 :=
        UInt8.toNat_sub_of_le _ _ (UInt8.le_iff_toNat_le.mpr
          (by simpa using Nat.one_le_iff_ne_zero.mpr hpos))
      simp only [headD_cons, hsub]
      omega
  · exact absurd (by rw [oathBytes, hread]; rfl) hne

/-- One try less. -/
theorem RetriesHold.spend (hne : (oathBytes d .otpPin).headD 0 ≠ 0) :
    RetriesHold (oathSpend d) := by
  refine h.written fun retries record ha ↦ ?_
  have hle := spentRecord_le h hne
  rw [spentRecord] at ha
  obtain ⟨rfl, -⟩ : (oathBytes d .otpPin).headD 0 - 1 = retries ∧ _ := by simpa using ha
  omega

theorem RetriesHold.spendPart (hne : (oathBytes d .otpPin).headD 0 ≠ 0)
    (hpart : SpendPart d d') : RetriesHold d' := by
  cases hpart with
  | refused => exact h.of_contents (fun _ ha ↦ ha) rfl
  | written => exact h.spend hne
  | unflushed => exact (h.spend hne).of_contents (fun _ ha ↦ ha) rfl
  | flushed => exact (h.spend hne).synced _

/-- A PIN is compared when the try it costs is gone from the flash as well. -/
theorem RetriesHold.compared (hne : (oathBytes d .otpPin).headD 0 ≠ 0) (correct : Bool) :
    RetriesHold (oathNoted ((oathSpend d).synced .otpPin) (.pinCompared correct)) := by
  have hspent := (h.spend hne).synced .otpPin
  cases correct with
  | true => exact hspent.forgiven fun _ ↦ rfl
  | false =>
    have hle := spentRecord_le h hne
    refine ⟨?_, fun retries record hmem ↦ ?_⟩
    · show wrongPins d.ram.history + 1 ≤ 3
      omega
    · -- nothing is left of the older contents
      change some (OathContent.plain (retries :: record)) ∈ [(oathSpend d).read .otpPin] at hmem
      rw [mem_singleton, oathSpend, Device.read_written_self, spentRecord] at hmem
      obtain ⟨rfl, -⟩ : retries = (oathBytes d .otpPin).headD 0 - 1 ∧ _ := by simpa using hmem
      show _ + (wrongPins d.ram.history + 1) ≤ 3
      omega

theorem wp_oathCheckPin_retries : wp A (oathCheckPin C pin)
    (fun result d' ↦ RetriesHold d' ∧ (result = .pinMatch → wrongPins d'.ram.history = 0))
    (fun _ ↦ RetriesHold) d := by
  refine wp_oathCheckPin (fun result hresult ↦ ⟨h, fun h ↦ absurd h hresult⟩)
    (fun d' hpart hne ↦ ⟨⟨h.spendPart hne hpart, by simp⟩, h.spendPart hne hpart⟩)
    fun _ hne correct ↦ ⟨h.compared hne correct, fun hmatch ↦ ?_⟩
  cases correct with
  | true => rfl
  | false => cases hmatch

/-- A PIN is written when the counter may stand at its maximum. -/
theorem wp_otpPinWrite_retries (hwrong : wrongPins d.ram.history = 0) :
    wp A (otpPinWrite C pin) (fun _ ↦ RetriesHold) (fun _ ↦ RetriesHold) d := by
  have hattempted : RetriesHold (d.attempted .otpPin) := h.of_contents (fun _ ha ↦ ha) rfl
  have hwritten : RetriesHold (d.written .otpPin (some (.plain (otpPinRecordV1 C pin)))) := by
    refine h.written fun retries record ha ↦ ?_
    obtain ⟨rfl, -⟩ : maxOtpCounter = retries ∧ _ := by simpa [otpPinRecordV1] using ha
    rw [hwrong]
    decide
  exact wp_onError (wp_put (fun _ ↦ hwritten) (fun _ ↦ wp_fail hattempted)
    (fun _ ↦ wp_fail hwritten) fun _ ↦ hattempted)

/-- Changes of the memory but not of the history. -/
theorem RetriesHold.ram {g : OathRam → OathRam}
    (hg : (g d.ram).history = d.ram.history) : RetriesHold (d.setRam g) :=
  h.of_contents (fun _ ha ↦ ha) (congrArg wrongPins hg)

end

/-- **The retry counter** bounds the wrong PINs whatever the command. -/
theorem keeps_retries (c : OathCommand) : Preserves RetriesHold (c.run C) := by
  have hI := keptByCode_retriesHold
  have hram : ∀ {g : OathRam → OathRam}, (∀ ram, wrongPins (g ram).history = wrongPins ram.history) →
      Preserves RetriesHold (oathModifyRam g) := hI.ram
  have hdelete : ∀ f : OathFile, f.IsProtection →
      (∀ d, RetriesHold d → RetriesHold (d.attempted f)) ∧
        ∀ d, RetriesHold d → RetriesHold (d.written f none) := by
    refine fun f hf ↦ ⟨fun d h ↦ h.of_contents (fun _ ha ↦ ha) rfl, fun d h ↦ ?_⟩
    rcases hf with rfl | rfl
    · exact h.of_contents (fun a ha ↦ by
        rwa [oathContents, show (d.written .code none).files.view .otpPin = _ from
          WriteBack.write_view_of_ne (by simp), show (d.written .code none).files.stale .otpPin = _
          from WriteBack.write_stale_of_ne (by simp)] at ha) rfl
    · exact h.written fun _ _ ha ↦ by cases ha
  refine keeps_run (fun d h ↦ h.ram rfl) ?_
  have hcred : c.IsCredential ∨ c.IsReading → Preserves RetriesHold (c.handler C) :=
    keeps_credentialCommand hI.ofAccess
  cases c with
  | put | delete | rename | list | calculate | calculateAll | sendRemaining =>
    exact hcred (.inl trivial)
  | verifyCode | getCredential => exact hcred (.inr trivial)
  | select => exact hI.selectOath
  | deselect =>
    refine .bind (keeps_oathModifyRam fun d h ↦ h.ram ?_) fun _ _ ↦ .pure trivial
    split_ifs <;> rfl
  | validate data => exact hI.cmdValidate data
  | setCode data =>
    have hcode : Preserves RetriesHold deleteCode := by
      refine .get fun _ ↦ .bind (Keeps.resultOf (.ite (fun _ ↦
        Keeps.put (hdelete .code (.inl rfl)).1 (hdelete .code (.inl rfl)).2) fun _ ↦ .pure trivial))
        fun r _ ↦ .bind (hram fun _ ↦ rfl) fun _ _ ↦ ?_
      rcases r with e | u
      · exact .fail _
      · exact .pure trivial
    exact .bind keeps_requireValidated fun _ _ ↦ .ite (fun _ ↦ hcode) fun _ ↦
      .bind keeps_liftSw fun key _ ↦ .ite (fun _ ↦ hcode) fun _ ↦ .bind (hram fun _ ↦ rfl) fun _ _ ↦
      .get fun _ ↦ .bind (.ite (fun _ ↦ keeps_onStorageError _
        (Keeps.put (hdelete .otpPin (.inr rfl)).1 (hdelete .otpPin (.inr rfl)).2)) fun _ ↦
        .pure trivial) fun _ _ ↦ .bind (hram fun _ ↦ rfl) fun _ _ ↦
      .bind (keeps_onStorageError _ (hI.oathPutCodeKey key)) fun _ _ ↦
      .bind (hram fun _ ↦ rfl) fun _ _ ↦ .pure trivial
  | reset p1 p2 =>
    have hdeleted : ∀ f : OathFile, f.IsProtection → ∀ b : Bool, Preserves RetriesHold
        (if b then putIgnoring OathError.storage f none else pure ()) := fun f hf b ↦
      .ite (fun _ ↦ Keeps.putIgnoring (hdelete f hf).1 (hdelete f hf).2) fun _ ↦ .pure trivial
    exact .bind keeps_guardSw fun _ _ ↦ .get fun _ ↦
      .bind (keeps_forM fun i _ ↦ keeps_resetCredential hI.ofAccess i) fun _ _ ↦
      .bind (hdeleted .code (.inl rfl) _) fun _ _ ↦ .bind (hdeleted .otpPin (.inr rfl) _) fun _ _ ↦
      .bind (hram fun _ ↦ rfl) fun _ _ ↦ .pure trivial
  | verifyPin data =>
    refine .get fun _ ↦ .bind keeps_guardSw fun _ _ ↦ .bind (hram fun _ ↦ rfl) fun _ _ ↦
      .bind keeps_orSw fun pin _ A d h ↦ wp_then (wp_oathCheckPin_retries h) fun result d' h' ↦ ?_
    refine wp_refuse h'.1 fun _ ↦ wp_ite (fun _ ↦
      wp_bind (wp_oathModifyRam (wp_fail (h'.1.ram rfl)))) fun hmatch ↦ ?_
    exact wp_then (wp_otpPinWrite_retries h'.1 (h'.2 (not_not.mp hmatch)))
      fun _ _ h ↦ wp_bind (wp_oathModifyRam (wp_pure ⟨h.ram rfl, trivial⟩))
  | changePin data =>
    refine .get fun _ ↦ .bind keeps_guardSw fun _ _ ↦ .bind keeps_orSw fun pin _ ↦
      .bind keeps_orSw fun newPin _ A d h ↦ wp_then (wp_oathCheckPin_retries h)
      fun result d' h' ↦ ?_
    refine wp_ite (fun _ ↦ wp_bind (wp_oathModifyRam (wp_fail (h'.1.ram rfl)))) fun hmatch ↦ ?_
    exact wp_then (wp_otpPinWrite_retries h'.1 (h'.2 (not_not.mp hmatch)))
      fun _ _ h ↦ wp_bind (wp_oathModifyRam (wp_pure ⟨h.ram rfl, trivial⟩))
  | setPin data =>
    have hset : ∀ d, RetriesHold d → RetriesHold (oathNoted d .pinSet) := fun d h ↦
      h.forgiven fun _ ↦ rfl
    refine .bind keeps_requireValidated fun _ _ ↦ .get fun _ ↦
      .bind keeps_guardSw fun _ _ ↦ .bind keeps_orSw fun pin _ A d h ↦
      wp_bind (wp_oathModifyRam (wp_then (wp_otpPinWrite_retries (hset d h) rfl) fun _ _ h ↦
        wp_bind (wp_oathModifyRam (wp_pure ⟨h.ram rfl, trivial⟩))))

/-! ### The flag -/

/-- A protection may go; the rest is the same. -/
theorem FlagTells.mono (h : FlagTells d) (hcode : codeStored d' → codeStored d)
    (hpin : otpPinStored d' → otpPinStored d) (hcurrent : d'.ram.current = d.ram.current)
    (hvalidated : d'.ram.validated = true → d.ram.validated = true)
    (hhistory : d'.ram.history = d.ram.history) : FlagTells d' := by
  intro hcurrent' hvalidated'
  rw [hhistory]
  obtain ⟨hcode', hpin'⟩ := h (hcurrent ▸ hcurrent') (hvalidated hvalidated')
  exact ⟨fun hstored ↦ hcode' (hcode hstored), fun hstored ↦ hpin' (hpin hstored)⟩

theorem flagTells_of_unset (h : d.ram.validated = false) : FlagTells d :=
  fun _ hvalidated ↦ absurd (hvalidated.symm.trans h) Bool.noConfusion

theorem read_of_sameAccess (h : SameAccess d d') (hf : f.IsProtection) :
    oathBytes d' f = oathBytes d f := by
  rw [oathBytes, Device.read, h.view f hf]
  rfl

theorem ofAccess_flagTells : OfAccess FlagTells := by
  intro d d' hsame h
  refine h.mono (fun hcode ↦ ?_) (fun hpin ↦ ?_) hsame.current (fun h ↦ hsame.validated ▸ h)
    hsame.history
  · rwa [codeStored, ← read_of_sameAccess hsame (.inl rfl)]
  · rwa [otpPinStored, ← read_of_sameAccess hsame (.inr rfl)]

theorem oathBytes_written_of_ne {g : OathFile} (h : g ≠ f) :
    oathBytes (d.written f a) g = oathBytes d g :=
  congrArg contentBytes (Device.read_written_of_ne h)

/-! Selection -/

/-- The flag is set only if nothing is stored. -/
def FlagUnstored (d : OathDevice) : Prop :=
  d.ram.validated = true → oathBytes d .code = [] ∧ oathBytes d .otpPin = []

theorem FlagUnstored.flagTells (h : FlagUnstored d) : FlagTells d := by
  intro _ hvalidated
  obtain ⟨hcode, hpin⟩ := h hvalidated
  exact ⟨fun hstored ↦ absurd hcode (stored_iff.mp hstored),
    fun hstored ↦ absurd hpin (stored_iff.mp hstored)⟩

theorem ofAccess_flagUnstored : OfAccess FlagUnstored := by
  intro d d' hsame h hvalidated
  rw [read_of_sameAccess hsame (.inl rfl), read_of_sameAccess hsame (.inr rfl)]
  exact h (hsame.validated ▸ hvalidated)

theorem keeps_oathModifyRam_flag {g : OathRam → OathRam}
    (hg : ∀ ram, (g ram).validated = ram.validated) : Preserves FlagUnstored (oathModifyRam g) :=
  keeps_oathModifyRam fun d h hvalidated ↦ h ((hg d.ram).symm.trans hvalidated)

theorem keeps_oathMigrateSecrets_flag :
    Preserves FlagUnstored (oathMigrateSecrets C) := by
  refine .get fun d ↦ .ite (fun _ ↦ .pure trivial) fun _ ↦
    .bind (keeps_forM fun i _ ↦ keeps_oathMigrateCredential (ofAccess_flagUnstored.slotClosed i))
      fun _ _ A d h ↦
    wp_get (wp_bind (wp_mono (Q := fun _ ↦ FlagUnstored) (E := fun _ ↦ FlagUnstored)
    (wp_ite (fun hcode ↦ ?_) fun _ ↦ wp_pure h)
    (fun _ d' h' ↦ keeps_oathModifyRam_flag (fun _ ↦ rfl) A d' h') fun _ _ h ↦ h))
  -- a code is stored, so the flag is not set
  have hunset : d.ram.validated = false := by
    rw [Bool.and_eq_true] at hcode
    rcases hvalidated : d.ram.validated with - | -
    · rfl
    · exact absurd (h hvalidated).1 (stored_iff.mp hcode.1)
  have hkeep : Preserves (fun d' : OathDevice ↦ d'.ram.validated = false)
      (oathPutCodeKey C (oathBytes d .code)) := by
    refine .get fun d₁ ↦ ?_
    rcases (if oathKeyIsSecure (oathBytes d .code) = true then some (oathBytes d .code)
      else oathEncryptKey C d₁.ram.draws (oathBytes d .code)) with - | content
    · exact .fail _
    · exact .bind (keeps_oathModifyRam fun _ h ↦ h) fun _ _ ↦ Keeps.put (fun _ h ↦ h) fun _ h ↦ h
  exact wp_mono (hkeep A d hunset)
    (fun _ _ h hvalidated ↦ absurd (hvalidated.symm.trans h.1) Bool.noConfusion)
    fun _ _ h hvalidated ↦ absurd (hvalidated.symm.trans h) Bool.noConfusion

/-- A selection sets the flag by what is stored. -/
theorem wp_selectOath_flag (h : FlagTells d) :
    wp A (selectOath C) (fun _ ↦ FlagTells) (fun _ ↦ FlagTells) d := by
  have hselect : wp A (oathSelect C) (fun _ ↦ FlagTells) (fun _ ↦ FlagTells) d := by
    refine wp_bind (wp_guardSw (fun _ ↦ wp_get (wp_bind (wp_oathModifyRam ?_))) fun _ ↦ h)
    have hset : FlagUnstored (d.setRam fun ram ↦ { ram with
        chain := .none
        validated := !codeStored d && !otpPinStored d
        otpPinVerified := false }) := by
      intro hvalidated
      have hnone : codeStored d = false ∧ otpPinStored d = false := by
        simpa using hvalidated
      show oathBytes d .code = [] ∧ oathBytes d .otpPin = []
      exact ⟨by simpa [codeStored] using hnone.1, by simpa [otpPinStored] using hnone.2⟩
    have hrest : Preserves FlagUnstored (do
        noteOath .selected
        oathMigrateSecrets C
        (if codeStored d then oathModifyRam fun ram ↦
          { ram with challenge := C.randomChallenge ram.draws, draws := ram.draws + 1 } else pure ())
        oathModifyRam fun ram ↦ { ram with current := true }
        return (⟨swOk, selectResponse C (← getState) (codeStored d)⟩ : OathReply)) :=
      .bind (keeps_oathModifyRam_flag fun _ ↦ rfl) fun _ _ ↦ .bind keeps_oathMigrateSecrets_flag fun _ _ ↦
        .bind (.ite (fun _ ↦ keeps_oathModifyRam_flag fun _ ↦ rfl) fun _ ↦ .pure trivial) fun _ _ ↦
        .bind (keeps_oathModifyRam_flag fun _ ↦ rfl) fun _ _ ↦ .get fun _ ↦ .pure trivial
    exact wp_mono (hrest A _ hset) (fun _ _ h ↦ h.1.flagTells) fun _ _ h ↦ h.flagTells
  refine wp_get (wp_bind (wp_resultOf (wp_mono hselect (fun r d' h' ↦ wp_pure h')
    fun e d' h' ↦ ?_)))
  rcases e with e | e
  · exact wp_bind (wp_return (wp_fail h') fun _ ↦
      wp_oathModifyRam (wp_fail (flagTells_of_unset rfl)))
  · exact h'

/-! The other commands -/

/-- What checking a PIN does to what the flag tells. -/
structure PinStep (d d' : OathDevice) : Prop where
  code : oathBytes d' .code = oathBytes d .code
  current : d'.ram.current = d.ram.current
  validated : d'.ram.validated = d.ram.validated
  history : d'.ram.history = d.ram.history ∨
    ∃ correct, d'.ram.history = .pinCompared correct :: d.ram.history

theorem PinStep.of_spendPart (h : SpendPart d d') : PinStep d d' := by
  have hwritten : oathBytes (oathSpend d) .code = oathBytes d .code :=
    oathBytes_written_of_ne (by simp)
  cases h with
  | refused => exact ⟨rfl, rfl, rfl, .inl rfl⟩
  | written | unflushed | flushed => exact ⟨hwritten, rfl, rfl, .inl rfl⟩

theorem wp_oathCheckPin_flag : wp A (oathCheckPin C pin)
    (fun result d' ↦ PinStep d d' ∧
      (result = .pinMatch → d'.ram.history = .pinCompared true :: d.ram.history))
    (fun _ ↦ PinStep d) d := by
  refine wp_oathCheckPin (fun result hresult ↦ ⟨⟨rfl, rfl, rfl, .inl rfl⟩, fun h ↦ absurd h hresult⟩)
    (fun d' hpart _ ↦ ⟨⟨.of_spendPart hpart, by simp⟩, .of_spendPart hpart⟩)
    fun _ _ correct ↦ ⟨⟨?_, rfl, rfl, .inr ⟨correct, rfl⟩⟩, fun hmatch ↦ ?_⟩
  · exact (PinStep.of_spendPart (d := d) .flushed).code
  · cases correct with
    | true => rfl
    | false => cases hmatch

/-- Where a PIN is stored, checking it leaves what the flag tells. -/
theorem FlagTells.pinStep (h : FlagTells d) (hpin : otpPinStored d = true) (hstep : PinStep d d') :
    FlagTells d' := by
  intro hcurrent hvalidated
  obtain ⟨hcode, hpin'⟩ := h (hstep.current ▸ hcurrent) (hstep.validated ▸ hvalidated)
  have hstored : codeStored d' → codeStored d := by
    rw [codeStored, hstep.code]
    exact id
  rcases hstep.history with hsame | ⟨correct, hnoted⟩
  · rw [hsame]
    exact ⟨fun hc ↦ hcode (hstored hc), fun _ ↦ hpin' hpin⟩
  · rw [hnoted]
    refine ⟨fun hc ↦ hcode (hstored hc), fun _ ↦ ?_⟩
    cases correct with
    | true => exact .inl rfl
    | false => exact hpin' hpin

/-- A PIN is written where one is stored, or has just been announced. -/
theorem wp_otpPinWrite_flag {P : OathDevice → Prop}
    (h : ∀ d', oathBytes d' .code = oathBytes d .code → d'.ram = d.ram → P d') :
    wp A (otpPinWrite C pin) (fun _ ↦ P) (fun _ ↦ P) d := by
  have hattempted := h (d.attempted .otpPin) rfl rfl
  have hwritten : P (d.written .otpPin (some (.plain (otpPinRecordV1 C pin)))) :=
    h _ (oathBytes_written_of_ne (by simp)) rfl
  exact wp_onError (wp_put (fun _ ↦ hwritten) (fun _ ↦ wp_fail hattempted)
    (fun _ ↦ wp_fail hwritten) fun _ ↦ hattempted)

theorem otpPinStored_of_size (h : otpPinSizeValid (oathBytes d .otpPin) = true) :
    otpPinStored d = true := by
  rw [otpPinStored, stored_iff]
  intro hnil
  rw [hnil] at h
  cases h

variable {data : Bytes}

section

variable (h : FlagTells d)
include h

/-- VERIFY PIN sets it for a right PIN. -/
theorem wp_cmdVerifyOtpPin_flag (hcare : codeStored d → codeProven d.ram.history) :
    wp A (cmdVerifyOtpPin C data) (fun _ ↦ FlagTells) (fun _ ↦ FlagTells) d := by
  refine wp_get (wp_bind (wp_guardSw (fun hsize ↦ ?_) fun _ ↦ h))
  have hpin : otpPinStored d = true := otpPinStored_of_size hsize
  have hcleared : FlagTells (d.setRam fun ram ↦ { ram with otpPinVerified := false }) :=
    h.mono id id rfl id rfl
  refine wp_bind (wp_oathModifyRam (wp_bind (wp_orSw (fun pin _ ↦ wp_bind (wp_mono
    wp_oathCheckPin_flag (fun result d' hd' ↦ ?_) fun _ d' hd' ↦ hcleared.pinStep hpin hd'))
    fun _ ↦ hcleared)))
  obtain ⟨hstep, hmatch⟩ := hd'
  have htells : FlagTells d' := hcleared.pinStep hpin hstep
  refine wp_refuse htells fun _ ↦ wp_ite (fun _ ↦
    wp_bind (wp_oathModifyRam (wp_fail (flagTells_of_unset rfl)))) fun hresult ↦ ?_
  have hhistory : d'.ram.history = .pinCompared true :: d.ram.history := hmatch (not_not.mp hresult)
  -- the code was proven if there is one, and the PIN is now
  have hgranted : (codeStored d' → codeProven d'.ram.history) ∧ pinProven d'.ram.history = true := by
    rw [hhistory, codeStored, hstep.code]
    exact ⟨hcare, rfl⟩
  refine wp_seq (wp_otpPinWrite_flag (P := fun d'' ↦ FlagTells d'' ∧
    oathBytes d'' .code = oathBytes d' .code ∧ d''.ram = d'.ram) fun d'' hcode hram ↦
    ⟨fun _ _ ↦ ?_, hcode, hram⟩) (fun _ d'' hd'' ↦ wp_bind (wp_oathModifyRam (wp_pure ?_)))
    fun _ _ h ↦ h.1
  · rw [hram, codeStored, hcode]
    exact ⟨hgranted.1, fun _ ↦ .inl hgranted.2⟩
  · obtain ⟨-, hcode, hram⟩ := hd''
    intro _ _
    show (codeStored d'' → codeProven d''.ram.history) ∧
      (otpPinStored d'' → pinProven d''.ram.history ∨ pinPending d''.ram.history)
    rw [hram, codeStored, hcode]
    exact ⟨hgranted.1, fun _ ↦ .inl hgranted.2⟩

theorem wp_cmdChangeOtpPin_flag :
    wp A (cmdChangeOtpPin C data) (fun _ ↦ FlagTells) (fun _ ↦ FlagTells) d := by
  refine wp_get (wp_bind (wp_guardSw (fun hsize ↦ wp_bind (wp_orSw (fun pin _ ↦
    wp_bind (wp_orSw (fun newPin _ ↦ wp_seq wp_oathCheckPin_flag (fun result d' hd' ↦ ?_)
    fun _ d' hd' ↦ h.pinStep (otpPinStored_of_size hsize) hd') fun _ ↦ h)) fun _ ↦ h)) fun _ ↦ h))
  obtain ⟨hstep, hmatch⟩ := hd'
  have htells : FlagTells d' := h.pinStep (otpPinStored_of_size hsize) hstep
  refine wp_ite (fun _ ↦ wp_bind (wp_oathModifyRam (wp_fail (htells.mono id id rfl id rfl))))
    fun hresult ↦ ?_
  have hhistory : d'.ram.history = .pinCompared true :: d.ram.history := hmatch (not_not.mp hresult)
  refine wp_then (wp_otpPinWrite_flag (P := FlagTells) fun d'' hcode hram ↦ ?_)
    fun _ d'' hd'' ↦ wp_bind (wp_oathModifyRam (wp_pure (hd''.mono id id rfl id rfl)))
  intro hcurrent hvalidated
  rw [hram] at hcurrent hvalidated ⊢
  have hcode' := (htells hcurrent hvalidated).1
  rw [codeStored, hcode]
  exact ⟨hcode', fun _ ↦ .inl (by rw [hhistory]; rfl)⟩

theorem wp_cmdSetOtpPin_flag :
    wp A (cmdSetOtpPin C data) (fun _ ↦ FlagTells) (fun _ ↦ FlagTells) d := by
  refine wp_bind (wp_requireValidated (fun _ ↦ wp_get (wp_bind (wp_guardSw (fun _ ↦
    wp_bind (wp_orSw (fun pin _ ↦ wp_bind (wp_oathModifyRam (wp_then (wp_otpPinWrite_flag
    (P := FlagTells) fun d' hcode hram ↦ ?_) fun _ d' hd' ↦ wp_bind (wp_oathModifyRam
    (wp_pure (hd'.mono id id rfl id rfl)))))) fun _ ↦ h)) fun _ ↦ h))) fun _ ↦ h)
  intro hcurrent hvalidated
  rw [hram] at hcurrent hvalidated ⊢
  have hcode' := (h hcurrent hvalidated).1
  rw [codeStored, hcode]
  exact ⟨hcode', fun _ ↦ .inr rfl⟩

theorem wp_cmdValidate_flag
    (hcare : otpPinStored d → pinProven d.ram.history ∨ pinPending d.ram.history) :
    wp A (cmdValidate C data) (fun _ ↦ FlagTells) (fun _ ↦ FlagTells) d := by
  refine wp_bind (wp_orSw (fun challenge _ ↦ wp_bind (wp_orSw (fun response _ ↦ wp_bind
    (wp_getState (wp_ite (fun hnone ↦ ?_) fun _ ↦ ?_))) fun _ ↦ h)) fun _ ↦ h)
  · refine wp_bind (wp_oathModifyRam (wp_fail fun _ _ ↦ ⟨fun hstored ↦ ?_, hcare⟩))
    have hstored : codeStored d = true := hstored
    simp [hstored] at hnone
  · refine wp_bind (wp_liftSw (fun code _ ↦ wp_bind (wp_guardSw (fun _ ↦ ?_) fun _ ↦ h)) fun _ _ ↦ h)
    exact wp_bind (wp_oathModifyRam (wp_bind (wp_oathModifyRam (wp_pure fun _ _ ↦
      ⟨fun _ ↦ rfl, hcare⟩))))

/-- SET CODE takes the flag back when it stores a code. -/
theorem wp_cmdSetCode_flag :
    wp A (cmdSetCode C data) (fun _ ↦ FlagTells) (fun _ ↦ FlagTells) d := by
  have hdelete : d.ram.validated = true →
      wp A deleteCode (fun _ ↦ FlagTells) (fun _ ↦ FlagTells) d := by
    intro hvalidated
    have hkeep : ∀ d', oathBytes d' .otpPin = oathBytes d .otpPin → (codeStored d' → codeStored d) →
        d'.ram = d.ram → FlagTells (d'.setRam fun ram ↦ { ram with validated := true }) := by
      intro d' hpin hcode hram
      have hram' : d'.ram.current = d.ram.current ∧ d'.ram.history = d.ram.history := by
        rw [hram]
        exact ⟨rfl, rfl⟩
      exact h.mono hcode (by rw [otpPinStored]; exact hpin ▸ id) hram'.1 (fun _ ↦ hvalidated) hram'.2
    have hgone : FlagTells ((d.written .code none).setRam fun ram ↦ { ram with validated := true }) :=
      hkeep _ (oathBytes_written_of_ne (by simp)) (fun hstored ↦
        absurd (unstored_written d .code) (stored_iff.mp hstored)) rfl
    refine wp_get (wp_bind (wp_resultOf (wp_ite (fun _ ↦ wp_put (fun _ ↦ ?_)
      (fun _ ↦ ?_) (fun _ ↦ ?_) fun _ ↦ ?_) fun _ ↦ wp_pure ?_)))
    · exact wp_bind (wp_oathModifyRam (wp_pure hgone))
    · exact wp_bind (wp_oathModifyRam (wp_fail (hkeep (d.attempted .code) rfl id rfl)))
    · exact wp_bind (wp_oathModifyRam (wp_fail hgone))
    · exact h.mono id id rfl id rfl
    · exact wp_bind (wp_oathModifyRam (wp_pure (hkeep d rfl id rfl)))
  refine wp_bind (wp_requireValidated (fun hvalidated ↦ wp_ite (fun _ ↦ hdelete hvalidated) fun _ ↦
    wp_bind (wp_liftSw (fun key _ ↦ wp_ite (fun _ ↦ hdelete hvalidated) fun _ ↦
    wp_bind (wp_oathModifyRam ?_)) fun _ _ ↦ h)) fun _ ↦ h)
  -- from here on the flag is not set
  have hput : ∀ (f : OathFile) (a : Option OathContent),
      Preserves (fun d : OathDevice ↦ d.ram.validated = false)
        (put OathError.storage f a) := fun f a ↦ Keeps.put (fun _ h ↦ h) fun _ h ↦ h
  have hkeep : Preserves (fun d : OathDevice ↦ d.ram.validated = false) (do
      let d ← getState
      (if otpPinStored d then onStorageError swMemoryFailure (put .storage .otpPin none) else pure ())
      oathModifyRam fun ram ↦
        { ram with challenge := C.randomChallenge ram.draws, draws := ram.draws + 1 }
      onStorageError swExecError (oathPutCodeKey C key)
      noteOath .codeSet
      return oathDone) := by
    have hkey : Preserves (fun d : OathDevice ↦ d.ram.validated = false)
        (oathPutCodeKey C key) := by
      refine .get fun d ↦ ?_
      rcases (if oathKeyIsSecure key = true then some key
        else oathEncryptKey C d.ram.draws key) with - | content
      · exact .fail _
      · exact .bind (keeps_oathModifyRam fun _ h ↦ h) fun _ _ ↦ hput _ _
    exact .get fun _ ↦ .bind (.ite (fun _ ↦ keeps_onStorageError _ (hput _ _)) fun _ ↦
      .pure trivial) fun _ _ ↦ .bind (keeps_oathModifyRam fun _ h ↦ h) fun _ _ ↦
      .bind (keeps_onStorageError _ hkey) fun _ _ ↦
      .bind (keeps_oathModifyRam fun _ h ↦ h) fun _ _ ↦ .pure trivial
  exact wp_mono (hkeep A _ rfl) (fun _ _ h ↦ flagTells_of_unset h.1) fun _ _ h ↦ flagTells_of_unset h

end

/-! RESET -/

/-- What deleting a credential leaves alone, and what comes of the other writes. -/
structure SameFate (d d' : OathDevice) : Prop extends SameAccess d d' where
  outcome : ∀ f : OathFile, f.IsProtection → d'.outcome f = d.outcome f

theorem keeps_resetCredential_fate (d₀ : OathDevice) (i : Fin maxOathCred) :
    Preserves (SameFate d₀) (resetCredential i) := by
  have hne : ∀ f : OathFile, f.IsProtection → f ≠ .cred i := by
    rintro f hf rfl
    simp [OathFile.IsProtection] at hf
  have hattempted : ∀ d, SameFate d₀ d → SameFate d₀ (d.attempted (.cred i)) := fun d h ↦
    ⟨h.toSameAccess.trans (.attempted d _), fun f hf ↦
      (Device.outcome_attempted_of_ne (hne f hf)).trans (h.outcome f hf)⟩
  have hwritten : ∀ d, SameFate d₀ d → SameFate d₀ (d.written (.cred i) none) := fun d h ↦
    ⟨h.toSameAccess.trans (.written d i none), fun f hf ↦
      (Device.outcome_written_of_ne (hne f hf)).trans (h.outcome f hf)⟩
  refine .get fun d ↦ ?_
  rcases d.read (.cred i) with - | ((- | ⟨b, bs⟩) | ⟨credential, metadata⟩)
  · exact .pure trivial
  · exact .pure trivial
  · exact Keeps.putIgnoring hattempted hwritten
  · exact keeps_onStorageError _ (Keeps.put hattempted hwritten)

/-- A protection is deleted, if the deletion does not fail. -/
theorem wp_resetProtection {b : Bool} (h : FlagTells d) (hgone : b = false → oathBytes d f = [])
    (houtcome : d.outcome f ≠ .fail) :
    wp A (if b then putIgnoring OathError.storage f none else pure ())
      (fun _ d' ↦ FlagTells d' ∧ oathBytes d' f = [] ∧
        ∀ g, g ≠ f → oathBytes d' g = oathBytes d g ∧ d'.outcome g = d.outcome g)
      (fun _ ↦ FlagTells) d := by
  have hnone : oathBytes (d.written f none) f = [] := unstored_written d f
  have hless : ∀ g : OathFile, oathBytes (d.written f none) g ≠ [] → oathBytes d g ≠ [] := by
    intro g hg
    rcases eq_or_ne g f with rfl | hne
    · exact absurd hnone hg
    · rwa [oathBytes_written_of_ne hne] at hg
  have htells : FlagTells (d.written f none) := by
    refine h.mono (fun hcode ↦ ?_) (fun hpin ↦ ?_) rfl id rfl
    · exact stored_iff.mpr (hless _ (stored_iff.mp hcode))
    · exact stored_iff.mpr (hless _ (stored_iff.mp hpin))
  refine wp_ite (fun _ ↦ wp_putIgnoring (fun _ ↦ ⟨htells, hnone, fun g hne ↦ ?_⟩)
    (fun hfail ↦ absurd hfail houtcome) fun _ ↦ h.mono id id rfl id rfl) fun hb ↦ wp_pure ⟨h, ?_⟩
  · exact ⟨oathBytes_written_of_ne hne, Device.outcome_written_of_ne hne⟩
  · exact ⟨hgone (by simpa using hb), fun _ _ ↦ ⟨rfl, rfl⟩⟩

theorem wp_cmdReset_flag {p1 p2 : UInt8} (h : FlagTells d) (hcode : d.outcome .code ≠ .fail)
    (hpin : d.outcome .otpPin ≠ .fail) :
    wp A (cmdReset p1 p2) (fun _ ↦ FlagTells) (fun _ ↦ FlagTells) d := by
  refine wp_bind (wp_guardSw (fun _ ↦ wp_get (wp_bind (wp_mono
    (keeps_forM (fun i _ ↦ keeps_resetCredential_fate d i) A d ⟨.refl d, fun _ _ ↦ rfl⟩)
    (fun _ d₁ h₁ ↦ ?_) fun _ d₁ h₁ ↦ ofAccess_flagTells d d₁ h₁.toSameAccess h))) fun _ ↦ h)
  obtain ⟨hfate, -⟩ := h₁
  have h₁ : FlagTells d₁ := ofAccess_flagTells d d₁ hfate.toSameAccess h
  have habsent : ∀ f : OathFile, f.IsProtection → (d.read f).isSome = false →
      oathBytes d₁ f = [] := fun f hf hnone ↦
    (read_of_sameAccess hfate.toSameAccess hf).trans (unstored_of_none (by simp [hnone]))
  refine wp_then (wp_resetProtection h₁ (habsent _ (.inl rfl))
    ((hfate.outcome _ (.inl rfl)).trans_ne hcode)) fun _ d₂ h₂ ↦ ?_
  obtain ⟨h₂, hcode₂, hrest₂⟩ := h₂
  obtain ⟨hpin₂, houtcome₂⟩ := hrest₂ .otpPin (by simp)
  refine wp_then (wp_resetProtection h₂ (fun hnone ↦ hpin₂.trans (habsent _ (.inr rfl) hnone))
    ((houtcome₂.trans (hfate.outcome _ (.inr rfl))).trans_ne hpin)) fun _ d₃ h₃ ↦ ?_
  obtain ⟨h₃, hpin₃, hrest₃⟩ := h₃
  -- nothing is stored any more when the flag is set
  have hunset : FlagUnstored (d₃.setRam fun ram ↦
      { ram with validated := true, otpPinVerified := false }) := fun _ ↦
    ⟨(hrest₃ .code (by simp)).1.trans hcode₂, hpin₃⟩
  exact wp_bind (wp_oathModifyRam (wp_pure hunset.flagTells))

/-! Runs -/

/-- **A careful command** leaves what the flag tells. -/
theorem wp_run_flag {c : OathCommand} {faults : OathFile → List Outcome} (h : FlagTells d)
    (hcare : c.Careful C d faults) (hfaults : d.faults = faults) :
    wp A (c.run C) (fun _ ↦ FlagTells) (fun _ ↦ FlagTells) d := by
  have hchain : ∀ chain, FlagTells (d.withChain chain) := fun _ ↦ h.mono id id rfl id rfl
  have hhandler : ¬(c = .select ∨ c = .deselect) →
      (∀ chain, wp A (c.handler C) (fun _ ↦ FlagTells) (fun _ ↦ FlagTells) (d.withChain chain)) →
      wp A (c.run C) (fun _ ↦ FlagTells) (fun _ ↦ FlagTells) d := fun hselect hwp ↦
    wp_run_handler hselect (fun _ _ _ ↦ hchain) fun _ _ ↦ hwp
  have hcred : c.IsCredential ∨ c.IsReading →
      wp A (c.run C) (fun _ ↦ FlagTells) (fun _ ↦ FlagTells) d := fun hc ↦
    wp_mono (keeps_run (fun d h ↦ FlagTells.mono h id id rfl id rfl)
      (keeps_credentialCommand ofAccess_flagTells hc) A d h) (fun _ _ h ↦ h.1) fun _ _ h ↦ h
  cases c with
  | put | delete | rename | list | calculate | calculateAll | sendRemaining =>
    exact hcred (.inl trivial)
  | verifyCode | getCredential => exact hcred (.inr trivial)
  | select => exact wp_selectOath_flag h
  | deselect =>
    refine wp_bind (wp_oathModifyRam (wp_pure ?_))
    intro hcurrent hvalidated
    rcases hnow : d.ram.current with - | -
    · simp [hnow] at hcurrent
    · simp [hnow] at hcurrent
  | setCode data => exact hhandler (by simp) fun chain ↦ wp_cmdSetCode_flag (hchain chain)
  | validate data => exact hhandler (by simp) fun chain ↦ wp_cmdValidate_flag (hchain chain) hcare
  | verifyPin data =>
    exact hhandler (by simp) fun chain ↦ wp_cmdVerifyOtpPin_flag (hchain chain) hcare
  | changePin data => exact hhandler (by simp) fun chain ↦ wp_cmdChangeOtpPin_flag (hchain chain)
  | setPin data => exact hhandler (by simp) fun chain ↦ wp_cmdSetOtpPin_flag (hchain chain)
  | reset p1 p2 =>
    subst hfaults
    exact hhandler (by simp) fun chain ↦ wp_cmdReset_flag (hchain chain) hcare.1 hcare.2

/-- What a run keeps. -/
structure OathHeld (d : OathDevice) : Prop where
  flag : FlagTells d
  retries : RetriesHold d

theorem OathStart.held (h : OathStart d) : OathHeld d where
  flag hcurrent := absurd (hcurrent.symm.trans h.current) Bool.noConfusion
  retries := by
    have hnone : wrongPins d.ram.history = 0 := by rw [h.history]; rfl
    refine ⟨by omega, fun retries record hmem ↦ ?_⟩
    rw [oathContents, h.settled, mem_singleton] at hmem
    rw [hnone]
    exact h.retries retries record hmem.symm

/-- **One event** keeps what a run keeps. -/
theorem OathHeld.step (h : OathHeld d) {event : OathEvent} (hcare : event.Careful C d) :
    OathHeld (event.step C d).2 := by
  rw [OathEvent.step.eq_def]
  cases event with
  | command c faults =>
    split_ifs with hoff
    · exact h
    · have hflag : FlagTells { d with faults := faults } := h.flag.mono id id rfl id rfl
      have hretries : RetriesHold { d with faults := faults } := h.retries.of_contents (fun _ ha ↦ ha) rfl
      refine ⟨runOath_of_wp (P := fun _ ↦ FlagTells) (wp_run_flag hflag hcare rfl)
        (fun _ _ h ↦ h) (fun _ _ h ↦ h) fun _ h ↦ h.mono id id rfl id rfl, ?_⟩
      exact runOath_of_keeps (keeps_retries c) (fun d h ↦ h.ram rfl) hretries
  | flush f =>
    split_ifs with hoff
    · exact h
    · refine ⟨h.flag.mono id id rfl id rfl, h.retries.of_contents (fun a ha ↦ ?_) rfl⟩
      exact WriteBack.mem_contents_of_flush ha
  | reboot keep =>
    refine ⟨fun hcurrent ↦ absurd hcurrent (by simp [OathRam.reboot]),
      h.retries.of_contents (fun a ha ↦ ?_) rfl⟩
    change a ∈ [(survivor d keep).read .otpPin] at ha
    rw [mem_singleton] at ha
    exact ha ▸ survivor_contents d keep .otpPin

theorem OathHeld.run {events : List OathEvent} (h : OathHeld d) (hcare : CarefulRun C d events) :
    OathHeld (oathRun C d events) := by
  induction events generalizing d with
  | nil => exact h
  | cons event events ih => exact ih (h.step hcare.1) hcare.2

/-- **Access to the credentials is controlled** in every state that a careful run reaches. -/
theorem oath_access_controlled (d₀ : OathDevice) (events : List OathEvent) (hstart : OathStart d₀)
    (hcare : CarefulRun C d₀ events) : OathGuarded C (oathRun C d₀ events) := by
  have hheld : OathHeld (oathRun C d₀ events) := hstart.held.run hcare
  exact {
    access := fun c faults hc hcare hgranted ↦ hheld.flag.access hc hcare hgranted
    protects := fun c faults hcare ↦ protects_step hcare
    survives := fun c faults hcare hcode hpin ↦ survives_step hcare hcode hpin
    retries := hheld.retries }

/-! A run with care and a run without -/

/-- The first `n` bytes, or as many with zeros after what there is. -/
def fitBytes (n : ℕ) (data : Bytes) : Bytes :=
  (data ++ List.replicate n 0).take n

theorem length_fitBytes (n : ℕ) (data : Bytes) : (fitBytes n data).length = n := by
  simp [fitBytes]

/-- A cryptography that hides nothing. -/
@[reducible]
def openOathCrypto : OathCrypto where
  hmac hash key message := fitBytes hash.size (message ++ key)
  encryptWithAad draw plain := List.replicate 28 (.ofNat draw) ++ plain
  decryptWithAad sealed := some (sealed.drop 28)
  pinDeriveVerifier pin := fitBytes 32 pin
  doubleHashPin pin := fitBytes 32 pin
  randomChallenge draw := List.replicate 8 (.ofNat draw)
  capSupported := true
  version := (7, 0)
  serial := List.replicate 8 0x30
  isNk := false
  length_hmac _ _ _ := length_fitBytes _ _
  decryptWithAad_encryptWithAad draw plain := by
    rw [List.drop_left' List.length_replicate]
  length_encryptWithAad draw plain := by
    rw [List.length_append, List.length_replicate, Nat.add_comm]
  length_pinDeriveVerifier _ := length_fitBytes _ _

/-- A device that has never been used. -/
def freshOath : OathDevice where
  files := { view := fun _ ↦ none, stale := fun _ ↦ [] }
  faults := fun _ ↦ []
  ram :=
    { current := false
      validated := true
      otpPinVerified := false
      migrationDone := false
      challenge := List.replicate 8 0
      chain := .none
      draws := 0
      off := false
      history := [] }

/-- A command that nothing disturbs. -/
def calmly (c : OathCommand) : OathEvent :=
  .command c fun _ ↦ []

theorem freshOath_start : OathStart freshOath :=
  ⟨rfl, rfl, fun _ ↦ rfl, fun _ _ h ↦ (Option.some_ne_none _ h.symm).elim⟩

/-- A PIN is stored and proven, a credential is listed, and the power is lost. -/
theorem oath_access_controlled_run :
    OathGuarded openOathCrypto (oathRun openOathCrypto freshOath
      [calmly .select, calmly (.put [0x71, 1, 5, 0x73, 3, 0x11, 6, 9]),
        calmly (.setPin [0x80, 2, 1, 2]), calmly .select, calmly (.verifyPin [0x80, 2, 1, 2]),
        calmly (.list []), .reboot fun _ ↦ 0]) :=
  oath_access_controlled freshOath _ freshOath_start
    ⟨trivial, fun h ↦ absurd h (by decide +kernel), trivial, trivial,
      fun h ↦ absurd h (by decide +kernel), fun _ ↦ by decide +kernel, trivial, trivial⟩

/-- VALIDATE without a code gives access although a PIN is stored and was not proven. -/
theorem oath_access_bypassed :
    let d := oathRun openOathCrypto freshOath
      [calmly .select, calmly (.put [0x71, 1, 5, 0x73, 3, 0x11, 6, 9]),
        calmly (.setPin [0x80, 2, 1, 2]), calmly .select, calmly (.validate [0x74, 0, 0x75, 0])]
    otpPinStored d = true ∧ pinProven d.ram.history = false ∧
      (OathEvent.step openOathCrypto d (calmly (.list []))).1 =
        some ⟨swOk, [0x72, 2, 0x11, 5]⟩ := by
  decide +kernel

end PicoAll
