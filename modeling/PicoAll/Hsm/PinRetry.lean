import PicoAll.Hsm.Pin

/-!
# The guess limit of the HSM PINs

The wrong values that are compared with a PIN while it is not blocked, since its counter was last
raised, and what the counter has left are no more than the counter starts from (`RetriesBound`). The
comparison comes before the decrement, so this is an invariant of the runs in which the decrement is
not lost: its write succeeds, and no loss of power brings back a larger counter.
-/

namespace PicoAll

open FaultProgram HsmPinCommand List Function Bool

/-! ### What a history says -/

/-- What allows the counter of a PIN to be raised: the right value while it is not blocked, or, for
the user, the PIN of the security officer. -/
def HsmPinNote.authorises (pin : HsmPin) : HsmPinNote → Bool
  | compared p retries correct => p = pin && retries != 0 && correct
  | soReset => pin = .user

/-- A wrong value was compared with a PIN that was not blocked. With one that is, nothing shows what
came of the comparison (`wp_hsmCheckPin_silent`). -/
def HsmPinNote.guesses (pin : HsmPin) : HsmPinNote → Bool
  | compared p retries correct => p = pin && retries != 0 && !correct
  | soReset => false

/-- The wrong guesses since the counter of a PIN was last allowed to be raised. -/
def wrongGuesses (pin : HsmPin) : List HsmPinNote → ℕ
  | [] => 0
  | note :: history =>
    if note.authorises pin then 0
    else if note.guesses pin then wrongGuesses pin history + 1
    else wrongGuesses pin history

/-- The device with one more note. -/
def withNote (d : HsmDevice) (note : HsmPinNote) : HsmDevice :=
  d.setRam fun ram ↦ { ram with history := note :: ram.history }

/-- The next write of a file takes effect, whatever it reports. -/
def TakesEffect (d : HsmDevice) (f : HsmFile) : Prop :=
  d.outcome f = .ok ∨ d.outcome f = .late

instance (d : HsmDevice) (f : HsmFile) : Decidable (TakesEffect d f) :=
  inferInstanceAs (Decidable (_ ∨ _))

/-! ### What does not concern the counters -/

/-- One of the files with a counter or with what a counter starts from. -/
def HsmFile.IsCounter (f : HsmFile) : Prop :=
  ∃ pin : HsmPin, f = pin.retries ∨ f = pin.maxRetries

/-- The counters and the history are the same. -/
structure SameCounters (d d' : HsmDevice) : Prop where
  view : ∀ f : HsmFile, f.IsCounter → d'.files.view f = d.files.view f
  stale : ∀ f : HsmFile, f.IsCounter → d'.files.stale f = d.files.stale f
  history : d'.ram.history = d.ram.history

theorem not_isCounter_file (pin : HsmPin) : ¬pin.file.IsCounter := by
  rintro ⟨p, h⟩
  cases pin <;> cases p <;> simp [HsmPin.file, HsmPin.retries, HsmPin.maxRetries] at h

theorem not_isCounter_mkek (pin : HsmPin) : ¬pin.mkek.IsCounter := by
  rintro ⟨p, h⟩
  cases pin <;> cases p <;> simp [HsmPin.mkek, HsmPin.retries, HsmPin.maxRetries] at h

theorem isCounter_retries (pin : HsmPin) : pin.retries.IsCounter :=
  ⟨pin, .inl rfl⟩

theorem isCounter_maxRetries (pin : HsmPin) : pin.maxRetries.IsCounter :=
  ⟨pin, .inr rfl⟩

theorem maxRetries_ne_retries (p pin : HsmPin) : p.maxRetries ≠ pin.retries := by
  cases p <;> cases pin <;> simp [HsmPin.retries, HsmPin.maxRetries]

theorem retries_injective : Function.Injective HsmPin.retries := by
  intro p q h
  cases p <;> cases q <;> simp_all [HsmPin.retries]

theorem SameCounters.attempted (d : HsmDevice) (f : HsmFile) : SameCounters d (d.attempted f) :=
  ⟨fun _ _ ↦ rfl, fun _ _ ↦ rfl, rfl⟩

variable {g : HsmRam → HsmRam} {d' : HsmDevice} {Q : Unit → HsmDevice → Prop} {note : HsmPinNote}
  {c : HsmPinCommand} {α : Type} {correct : Bool}

theorem SameCounters.setRam (d : HsmDevice) (hg : ∀ ram, (g ram).history = ram.history) :
    SameCounters d (d.setRam g) :=
  ⟨fun _ _ ↦ rfl, fun _ _ ↦ rfl, hg _⟩

theorem SameCounters.written (d : HsmDevice) {f : HsmFile} (hf : ¬f.IsCounter)
    (a : Option Bytes) : SameCounters d (d.written f a) where
  view g hg := WriteBack.write_view_of_ne (by rintro rfl; exact hf hg)
  stale g hg := WriteBack.write_stale_of_ne (by rintro rfl; exact hf hg)
  history := rfl

/-- `I` is about the counters and the history only. -/
def OfCounters (I : HsmDevice → Prop) : Prop :=
  ∀ d d', SameCounters d d' → I d → I d'

section OfCounters

variable {I : HsmDevice → Prop} (hI : OfCounters I)

include hI

theorem keeps_modifyRam {g : HsmRam → HsmRam} (hg : ∀ ram, (g ram).history = ram.history) :
    Preserves I (modifyRam g) :=
  fun _ d h ↦ wp_modifyState ⟨hI d _ (.setRam d hg) h, trivial⟩

theorem keeps_hsmFilePutData {f : HsmFile} (hf : ¬f.IsCounter) (data : Bytes) :
    Preserves I (hsmFilePutData f data) :=
  fun _ d h ↦ wp_put (fun _ ↦ ⟨hI d _ (.written d hf _) h, trivial⟩)
    (fun _ ↦ hI d _ (.attempted d f) h) (fun _ ↦ hI d _ (.written d hf _) h)
    (fun _ ↦ hI d _ (.attempted d f) h)

theorem keeps_hsmFilePutDataIgnoring {f : HsmFile} (hf : ¬f.IsCounter) (data : Bytes) :
    Preserves I (hsmFilePutDataIgnoring f data) :=
  fun _ d h ↦ wp_putIgnoring (fun _ ↦ ⟨hI d _ (.written d hf _) h, trivial⟩)
    (fun _ ↦ ⟨hI d _ (.attempted d f) h, trivial⟩) (fun _ ↦ hI d _ (.attempted d f) h)

theorem keeps_storeMkekUnder (C : HsmPinCrypto) (mkek : Bytes) (pin : HsmPin) :
    Preserves I (storeMkekUnder C mkek pin) :=
  .get fun _ ↦ .bind (keeps_modifyRam hI fun _ ↦ rfl) fun _ _ ↦
    keeps_hsmFilePutDataIgnoring hI (not_isCounter_mkek pin) _

theorem keeps_storeMkek (C : HsmPinCrypto) (mkek : Option Bytes) :
    Preserves I (storeMkek C mkek) := by
  refine .get fun d ↦ .ite (fun _ ↦ .fail _) fun _ ↦ ?_
  refine .bind (keeps_modifyRam hI fun _ ↦ rfl) fun _ _ ↦ .bind (R := fun _ ↦ True) ?_ fun _ _ ↦ ?_
  · exact .ite (fun _ ↦ keeps_storeMkekUnder hI C _ _) fun _ ↦ .pure trivial
  · exact .ite (fun _ ↦ keeps_storeMkekUnder hI C _ _) fun _ ↦ .pure trivial

theorem keeps_loadMkek (C : HsmPinCrypto) : Preserves I (loadMkek C) := by
  refine .get fun d ↦ .ite (fun _ ↦ .fail _) fun _ ↦ ?_
  rcases mkekSource d with - | pin
  · exact .fail _
  · refine .bind (R := fun _ ↦ True) (.liftExcept fun _ _ ↦ trivial) fun mkek _ ↦
      .bind (R := fun _ ↦ True) ?_ fun _ _ ↦ .pure trivial
    exact .ite (fun _ ↦ keeps_storeMkek hI C _) fun _ ↦ .pure trivial

theorem keeps_openSession (pin : HsmPin) (key : Bytes) :
    Preserves I (modifyRam (·.openSession pin key)) :=
  keeps_modifyRam hI fun ram ↦ by cases pin <;> rfl

theorem keeps_upgradePin (C : HsmPinCrypto) (pin : HsmPin) (data : Bytes) :
    Preserves I (upgradePin C pin data) :=
  .bind (keeps_openSession hI pin _) fun _ _ ↦ .bind (keeps_loadMkek hI C) fun _ _ ↦
    .bind (keeps_openSession hI pin _) fun _ _ ↦ .bind (keeps_storeMkek hI C _) fun _ _ ↦
      keeps_hsmFilePutData hI (not_isCounter_file pin) _

theorem keeps_grantPin (C : HsmPinCrypto) (pin : HsmPin) (data : Bytes) :
    Preserves I (grantPin C pin data) := by
  refine .get fun d ↦ .bind (keeps_modifyRam hI fun _ ↦ rfl) fun _ _ ↦
    .bind (keeps_openSession hI pin _) fun _ _ ↦ .get fun d ↦ ?_
  exact .ite (fun _ ↦ keeps_modifyRam hI fun _ ↦ rfl) fun _ ↦ .pure trivial

theorem keeps_replacePin (C : HsmPinCrypto) (pin : HsmPin) (newPin : Bytes) :
    Preserves I (replacePin C pin newPin) := by
  refine .bind (Keeps.resultOf (keeps_loadMkek hI C)) fun r _ ↦ ?_
  rcases r with - | mkek
  · exact .pure trivial
  refine .bind (keeps_openSession hI pin _) fun _ _ ↦
    .bind (Keeps.resultOf (keeps_storeMkek hI C _)) fun r _ ↦ ?_
  rcases r with - | -
  · exact .pure trivial
  · exact .bind (keeps_hsmFilePutDataIgnoring hI (not_isCounter_file pin) _) fun _ _ ↦ .pure trivial

end OfCounters

/-! ### What a check does to the counters -/

theorem SameCounters.write {d : HsmDevice} (h : SameCounters d d') (f : HsmFile) (a : Option Bytes) :
    SameCounters (d.written f a) (d'.written f a) where
  view g hg := by
    show Function.update d'.files.view f a g = Function.update d.files.view f a g
    rcases eq_or_ne g f with rfl | hne
    · rw [update_self, update_self]
    · rw [update_of_ne hne, update_of_ne hne, h.view g hg]
  stale g hg := by
    show Function.update d'.files.stale f _ g = Function.update d.files.stale f _ g
    rcases eq_or_ne g f with rfl | hne
    · rw [update_self, update_self, h.view g hg, h.stale g hg]
    · rw [update_of_ne hne, update_of_ne hne, h.stale g hg]
  history := h.history

/-- What `hsm_check_pin` may do to the counters and the history, from `d`, keeps `I`. -/
structure CheckKeeps (C : HsmPinCrypto) (I : HsmDevice → Prop) (d : HsmDevice) (pin : HsmPin)
    (data : Bytes) : Prop where
  /-- A comparison with a PIN that is blocked. -/
  blocked : fileReadUint8 d pin.retries = 0 → ∀ correct, I (withNote d (.compared pin 0 correct))
  /-- A wrong value, whose decrement is written. -/
  paid : pinMatches C (fileData d pin.file) data = some false → fileReadUint8 d pin.retries ≠ 0 →
    TakesEffect d pin.retries →
    I ((withNote d (.compared pin (fileReadUint8 d pin.retries) false)).written pin.retries
      (some [fileReadUint8 d pin.retries - 1]))
  /-- A wrong value, whose decrement is not written. -/
  unpaid : pinMatches C (fileData d pin.file) data = some false → fileReadUint8 d pin.retries ≠ 0 →
    ¬TakesEffect d pin.retries →
    I (withNote d (.compared pin (fileReadUint8 d pin.retries) false))
  /-- The right value. -/
  right : fileReadUint8 d pin.retries ≠ 0 →
    I (withNote d (.compared pin (fileReadUint8 d pin.retries) true))
  /-- The right value, with the counter raised. -/
  raised : fileReadUint8 d pin.retries ≠ 0 →
    I ((withNote d (.compared pin (fileReadUint8 d pin.retries) true)).written pin.retries
      (some [fileReadUint8 d pin.maxRetries]))

variable {C : HsmPinCrypto} {I : HsmDevice → Prop} {d : HsmDevice} {pin : HsmPin} {data : Bytes}
  {A : Outcome → Prop} {E : Exit HsmError → HsmDevice → Prop} {retries : UInt8}

theorem wp_modifyRam (h : Q () (d.setRam g)) : wp A (modifyRam g) Q E d :=
  wp_modifyState h

theorem wp_notePin (h : Q () (withNote d note)) : wp A (notePin note) Q E d :=
  wp_modifyState h

theorem wp_pinWrongRetry {Q : UInt8 → HsmDevice → Prop}
    (hblocked : fileReadUint8 d pin.retries = 0 → E (.code .blocked) d)
    (hpaid : fileReadUint8 d pin.retries ≠ 0 → TakesEffect d pin.retries →
      ∀ d', d' = d.written pin.retries (some [fileReadUint8 d pin.retries - 1]) →
      Q (fileReadUint8 d pin.retries - 1) d' ∧ ∀ r, E (.code r) d')
    (hunpaid : fileReadUint8 d pin.retries ≠ 0 → ¬TakesEffect d pin.retries →
      ∀ e, E e (d.attempted pin.retries)) :
    wp A (pinWrongRetry pin) Q E d := by
  refine wp_get (wp_ite (fun hpos ↦ wp_bind ?_) fun hzero ↦ ?_)
  · have hne : fileReadUint8 d pin.retries ≠ 0 := by
      intro h
      rw [h] at hpos
      cases hpos
    refine wp_put (fun hout ↦ ?_) (fun hout ↦ ?_) (fun hout ↦ ?_) fun hout ↦ ?_
    · have hpaid := hpaid hne (.inl hout) _ rfl
      exact wp_refuse (hpaid.2 _) fun _ ↦ wp_pure hpaid.1
    · exact hunpaid hne (by simp [TakesEffect, hout]) _
    · exact (hpaid hne (.inr hout) _ rfl).2 _
    · exact hunpaid hne (by simp [TakesEffect, hout]) _
  · refine wp_fail (hblocked ?_)
    by_contra hne
    exact hzero (UInt8.pos_iff_ne_zero.mpr hne)

theorem wp_hsmPinResetRetries {force : Bool}
    (hblocked : fileReadUint8 d pin.retries = 0 → force = false → E (.code .blocked) d)
    (hwritten : (force = false → fileReadUint8 d pin.retries ≠ 0) →
      ∀ d', d' = d.written pin.retries (some [fileReadUint8 d pin.maxRetries]) →
      Q () d' ∧ E (.code .memory) d')
    (hunwritten : (force = false → fileReadUint8 d pin.retries ≠ 0) →
      E (.code .memory) (d.attempted pin.retries) ∧ E .cut (d.attempted pin.retries)) :
    wp A (hsmPinResetRetries pin force) Q E d := by
  refine wp_get (wp_ite (fun h ↦ wp_fail (hblocked h.1 h.2)) fun h ↦ ?_)
  have hne : force = false → fileReadUint8 d pin.retries ≠ 0 := fun hf hr ↦ h ⟨hr, hf⟩
  exact wp_put (fun _ ↦ (hwritten hne _ rfl).1) (fun _ ↦ (hunwritten hne).1)
    (fun _ ↦ (hwritten hne _ rfl).2) fun _ ↦ (hunwritten hne).2

/-- **A check.** Of the counters and the history it makes no more than `CheckKeeps` says. -/
theorem wp_hsmCheckPin (hI : OfCounters I) (h : I d) (hcheck : CheckKeeps C I d pin data) :
    wp A (hsmCheckPin C pin data) (fun _ ↦ I) (fun _ ↦ I) d := by
  refine wp_get (wp_return h fun _ ↦ wp_bind (wp_modifyRam ?_))
  set d₀ := d.setRam (·.beginCheck (pkaEnabled d)) with hd₀
  have hsame : ∀ note, SameCounters (withNote d note) (withNote d₀ note) := fun _ ↦
    ⟨fun _ _ ↦ rfl, fun _ _ ↦ rfl, rfl⟩
  rcases hmatch : pinMatches C (fileData d pin.file) data with - | _ | _
  · exact wp_pure (hI d d₀ (.setRam d fun _ ↦ rfl) h)
  · -- a wrong value: the note is made, then the decrement is written
    refine wp_bind (wp_notePin (wp_bind (wp_resultOf (wp_pinWrongRetry ?_ ?_ ?_))))
    · intro hzero
      change fileReadUint8 d pin.retries = 0 at hzero
      rw [hzero]
      exact wp_pure (hI _ _ (hsame _) (hcheck.blocked hzero false))
    · rintro hne htakes _ rfl
      have hpaid := hI _ _ ((hsame _).write _ _) (hcheck.paid hmatch hne htakes)
      exact ⟨wp_pure hpaid, fun _ ↦ wp_pure hpaid⟩
    · intro hne htakes e
      have hunpaid := hI _ _ (.attempted _ pin.retries) (hI _ _ (hsame _)
        (hcheck.unpaid hmatch hne htakes))
      rcases e with r | -
      · exact wp_pure hunpaid
      · exact hunpaid
  · refine wp_bind (wp_notePin (wp_bind (wp_resultOf (wp_hsmPinResetRetries ?_ ?_ ?_))))
    · intro hzero _
      change fileReadUint8 d pin.retries = 0 at hzero
      rw [hzero]
      exact wp_pure (hI _ _ (hsame _) (hcheck.blocked hzero true))
    · rintro hne _ rfl
      have hraised := hI _ _ ((hsame _).write _ _) (hcheck.raised (hne rfl))
      refine ⟨?_, wp_pure hraised⟩
      have hupgrade : Preserves I
          (if (fileData d pin.file).length = 33 then upgradePin C pin data else pure ()) :=
        .ite (fun _ ↦ keeps_upgradePin hI C pin data) fun _ ↦ .pure trivial
      refine wp_then (Keeps.resultOf hupgrade A _ hraised) fun r d' hd' ↦ ?_
      rcases r with r | r
      · exact wp_pure hd'.1
      · exact wp_then (keeps_grantPin hI C pin data A d' hd'.1) fun _ _ h ↦ wp_pure h.1
    · intro hne
      have hright := hI _ _ (.attempted _ pin.retries) (hI _ _ (hsame _) (hcheck.right (hne rfl)))
      exact ⟨wp_pure hright, hright⟩

/-- What a reset under the PIN of the security officer does to the counters keeps `I`. -/
def ResetKeeps (I : HsmDevice → Prop) : Prop :=
  ∀ d, I d → I (withNote d .soReset) ∧
    I ((withNote d .soReset).written .pin1Retries (some [fileReadUint8 d .pin1MaxRetries]))

theorem wp_soReset (hI : OfCounters I) (hreset : ResetKeeps I) (h : I d)
    {next : Except HsmError Unit → HsmProg UInt16} (hnext : ∀ r, Preserves I (next r)) :
    wp A (do
      notePin .soReset
      next (← resultOf (hsmPinResetRetries .user true))) (fun _ ↦ I) (fun _ ↦ I) d := by
  obtain ⟨hnoted, hraised⟩ := hreset d h
  refine wp_bind (wp_notePin (wp_bind (wp_mono (Q := fun _ ↦ I) (E := fun _ ↦ I) ?_
    (fun r d' hd' ↦ wp_mono (hnext r A d' hd') (fun _ _ h ↦ h.1) fun _ _ h ↦ h) fun _ _ h ↦ h)))
  refine wp_resultOf (wp_hsmPinResetRetries (fun _ hforce ↦ ?_) ?_ ?_)
  · cases hforce
  · rintro - _ rfl
    exact ⟨hraised, hraised⟩
  · intro _
    exact ⟨hI _ _ (.attempted _ _) hnoted, hI _ _ (.attempted _ _) hnoted⟩

/-- **A command.** Of the counters and the history it makes no more than the check of the value it
submits, and a reset under the PIN of the security officer. -/
theorem wp_hsmRun (hI : OfCounters I) (hreset : ResetKeeps I) (h : I d)
    (hc : ∀ data, c ≠ .initializeHsm data)
    (hcheck : ∀ pin data, c.submission d = some (pin, data) → CheckKeeps C I d pin data) :
    wp A (c.run C) (fun _ ↦ I) (fun _ ↦ I) d := by
  cases c with
  | verify p1 p2 data =>
    refine wp_get ?_
    rcases htarget : verifyTarget d p1 p2 data with sw | ⟨pin, value⟩
    · exact wp_pure h
    · exact wp_hsmCheckPin hI h (hcheck pin value (by rw [submission, htarget]; rfl))
  | changePin p1 p2 data =>
    refine wp_get ?_
    rcases hplan : changePinPlan d p1 p2 data with sw | plan
    · exact wp_pure h
    · have hcheck := hcheck plan.pin plan.value (by rw [submission, hplan]; rfl)
      refine wp_then (wp_hsmCheckPin hI h hcheck) fun sw d' hd' ↦ ?_
      exact wp_return hd' fun _ ↦
        wp_mono (keeps_replacePin hI C plan.pin plan.newPin A d' hd') (fun _ _ h ↦ h.1)
          fun _ _ h ↦ h
  | resetRetry p1 p2 data =>
    refine wp_get ?_
    rcases hplan : resetRetryPlan d p1 p2 data with sw | ⟨soPin, newPin⟩
    · exact wp_pure h
    refine wp_bind (wp_mono (Q := fun _ ↦ I) (E := fun _ ↦ I) ?_ (fun sw d' hd' ↦ ?_) fun _ _ h ↦ h)
    · rcases soPin with - | value
      · exact wp_pure h
      · exact wp_hsmCheckPin hI h (hcheck .so value (by
          rw [submission, hplan]; rfl))
    refine wp_return hd' fun _ ↦ wp_soReset hI hreset hd' fun r ↦ ?_
    rcases r with r | r
    · exact .pure trivial
    rcases newPin with - | newPin
    · exact .pure trivial
    · exact keeps_replacePin hI C .user newPin
  | initializeHsm data => exact absurd rfl (hc data)

/-- What a program keeps whether or not the power is on. -/
theorem runHsm_of_wp_off {I : HsmDevice → Prop} {m : HsmProg α}
    (hoff : ∀ d, I d → I (d.setRam fun ram ↦ { ram with off := true }))
    (h : wp (fun _ ↦ True) m (fun _ ↦ I) (fun _ ↦ I) d) : I (runHsm m d) := by
  have hfinal := final_of_wp h []
  unfold runHsm
  split
  · exact hoff _ hfinal
  · exact hfinal

theorem runHsm_of_wp (hI : OfCounters I) {m : HsmProg α}
    (h : wp (fun _ ↦ True) m (fun _ ↦ I) (fun _ ↦ I) d) : I (runHsm m d) :=
  runHsm_of_wp_off (fun _ ↦ hI _ _ (.setRam _ fun _ ↦ rfl)) h

/-! ### The invariant -/

@[simp]
theorem fileReadUint8_withNote (d : HsmDevice) (note : HsmPinNote) (f : HsmFile) :
    fileReadUint8 (withNote d note) f = fileReadUint8 d f :=
  rfl

theorem fileReadUint8_written_retries (d : HsmDevice) (pin p : HsmPin) (retries : UInt8) :
    fileReadUint8 (d.written pin.retries (some [retries])) p.retries =
      if p = pin then retries else fileReadUint8 d p.retries := by
  unfold fileReadUint8 fileData
  split
  · next h => rw [h, Device.read_written_self]; rfl
  · next h => rw [Device.read_written_of_ne (retries_injective.ne h)]

theorem fileReadUint8_written_maxRetries (d : HsmDevice) (pin p : HsmPin) (a : Option Bytes) :
    fileReadUint8 (d.written pin.retries a) p.maxRetries = fileReadUint8 d p.maxRetries := by
  unfold fileReadUint8 fileData
  rw [Device.read_written_of_ne (maxRetries_ne_retries p pin)]

theorem SameCounters.fileReadUint8_eq (h : SameCounters d d') {f : HsmFile} (hf : f.IsCounter) :
    fileReadUint8 d' f = fileReadUint8 d f := by
  show ((d'.files.view f).getD []).headD 0 = ((d.files.view f).getD []).headD 0
  rw [h.view f hf]

/-- What the counters start from is settled, and the counters are there. -/
structure CountersPresent (max : HsmPin → UInt8) (d : HsmDevice) : Prop where
  limit : ∀ pin : HsmPin, fileReadUint8 d pin.maxRetries = max pin
  settled : ∀ pin : HsmPin, d.files.stale pin.maxRetries = []
  maxPresent : ∀ pin : HsmPin, (d.files.view pin.maxRetries).isSome
  present : ∀ pin : HsmPin, ∀ c ∈ d.files.view pin.retries :: d.files.stale pin.retries, c.isSome

/-- **The invariant.** Each wrong guess has been paid for with a part of the counter. -/
structure RetriesBound (max : HsmPin → UInt8) (d : HsmDevice) : Prop extends
    CountersPresent max d where
  bound : ∀ pin : HsmPin,
    wrongGuesses pin d.ram.history + (fileReadUint8 d pin.retries).toNat ≤ (max pin).toNat

variable {max : HsmPin → UInt8}

theorem CountersPresent.of_same (h : CountersPresent max d) (hsame : SameCounters d d') :
    CountersPresent max d' where
  limit p := by rw [hsame.fileReadUint8_eq (isCounter_maxRetries p), h.limit p]
  settled p := by rw [hsame.stale _ (isCounter_maxRetries p), h.settled p]
  maxPresent p := by rw [hsame.view _ (isCounter_maxRetries p)]; exact h.maxPresent p
  present p := by
    rw [hsame.view _ (isCounter_retries p), hsame.stale _ (isCounter_retries p)]
    exact h.present p

theorem CountersPresent.written (h : CountersPresent max d) (pin : HsmPin) (retries : UInt8) :
    CountersPresent max (d.written pin.retries (some [retries])) where
  limit p := by rw [fileReadUint8_written_maxRetries, h.limit p]
  settled p := (WriteBack.write_stale_of_ne (maxRetries_ne_retries p pin)).trans (h.settled p)
  maxPresent p := by
    rw [show (d.written pin.retries (some [retries])).files.view p.maxRetries = _ from
      WriteBack.write_view_of_ne (maxRetries_ne_retries p pin)]
    exact h.maxPresent p
  present p := by
    intro c hc
    change c ∈ (d.files.write pin.retries (some [retries])).view p.retries ::
      (d.files.write pin.retries (some [retries])).stale p.retries at hc
    rcases eq_or_ne p pin with rfl | hne
    · rw [WriteBack.write_view_self, WriteBack.write_stale_self] at hc
      rcases mem_cons.mp hc with rfl | hc
      · rfl
      · exact h.present p c hc
    · rw [WriteBack.write_view_of_ne (retries_injective.ne hne),
        WriteBack.write_stale_of_ne (retries_injective.ne hne)] at hc
      exact h.present p c hc

theorem CountersPresent.withNote (h : CountersPresent max d) (note : HsmPinNote) :
    CountersPresent max (withNote d note) :=
  ⟨h.limit, h.settled, h.maxPresent, h.present⟩

theorem RetriesBound.ofCounters (max : HsmPin → UInt8) : OfCounters (RetriesBound max) :=
  fun _ _ hsame h ↦ ⟨h.toCountersPresent.of_same hsame, fun p ↦ by
    rw [hsame.fileReadUint8_eq (isCounter_retries p), hsame.history]
    exact h.bound p⟩

/-- A note that is no wrong guess. -/
theorem RetriesBound.withNote (h : RetriesBound max d) (hnote : ∀ p, note.guesses p = false) :
    RetriesBound max (withNote d note) where
  toCountersPresent := h.toCountersPresent.withNote note
  bound p := by
    have hbound := h.bound p
    have hle : wrongGuesses p (note :: d.ram.history) ≤ wrongGuesses p d.ram.history := by
      rw [wrongGuesses, hnote p]
      split <;> simp
    show wrongGuesses p (note :: d.ram.history) + (fileReadUint8 d p.retries).toNat ≤ _
    omega

theorem guesses_of_compared {pin p : HsmPin} (h : retries = 0 ∨ correct = true) :
    (HsmPinNote.compared pin retries correct).guesses p = false := by
  rcases h with rfl | rfl <;> simp [HsmPinNote.guesses]

theorem wrongGuesses_right (h : retries ≠ 0) (pin : HsmPin) (history : List HsmPinNote) :
    wrongGuesses pin (.compared pin retries true :: history) = 0 := by
  rw [wrongGuesses, if_pos (by simpa [HsmPinNote.authorises] using h)]

theorem toNat_sub_one (h : retries ≠ 0) : (retries - 1).toNat + 1 = retries.toNat := by
  have hpos : (1 : UInt8) ≤ retries := UInt8.le_iff_toNat_le.mpr
    (Nat.pos_of_ne_zero fun h0 ↦ h (UInt8.toNat_inj.mp h0))
  rw [UInt8.toNat_sub_of_le _ _ hpos, UInt8.toNat_one]
  exact Nat.sub_add_cancel (UInt8.le_iff_toNat_le.mp hpos)

/-- A wrong value costs one guess, and its decrement pays for it. -/
theorem RetriesBound.paid (h : RetriesBound max d) (hne : fileReadUint8 d pin.retries ≠ 0) :
    RetriesBound max ((PicoAll.withNote d
      (.compared pin (fileReadUint8 d pin.retries) false)).written pin.retries
      (some [fileReadUint8 d pin.retries - 1])) where
  toCountersPresent := (h.toCountersPresent.withNote _).written ..
  bound p := by
    have hbound := h.bound p
    rw [fileReadUint8_written_retries, fileReadUint8_withNote]
    show wrongGuesses p (.compared pin (fileReadUint8 d pin.retries) false :: d.ram.history) + _ ≤ _
    rcases eq_or_ne p pin with rfl | hp
    · have hsub := toNat_sub_one hne
      rw [wrongGuesses, if_neg (by simp [HsmPinNote.authorises]),
        if_pos (by simpa [HsmPinNote.guesses] using hne), if_pos rfl]
      omega
    · rw [wrongGuesses, if_neg (by simp [HsmPinNote.authorises]),
        if_neg (by simp [HsmPinNote.guesses, Ne.symm hp]), if_neg hp]
      exact hbound

/-- A counter is raised to what it starts from, once its guesses are forgiven. -/
theorem RetriesBound.raised (h : RetriesBound max d)
    (hforgiven : wrongGuesses pin d.ram.history = 0) :
    RetriesBound max (d.written pin.retries (some [fileReadUint8 d pin.maxRetries])) where
  toCountersPresent := h.toCountersPresent.written ..
  bound p := by
    have hbound := h.bound p
    rw [fileReadUint8_written_retries]
    show wrongGuesses p d.ram.history + _ ≤ _
    rcases eq_or_ne p pin with rfl | hp
    · rw [hforgiven, if_pos rfl, h.limit p, Nat.zero_add]
    · rw [if_neg hp]
      exact hbound

theorem RetriesBound.checkKeeps (h : RetriesBound max d)
    (hpaid : pinMatches C (fileData d pin.file) data = some false →
      fileReadUint8 d pin.retries ≠ 0 → TakesEffect d pin.retries) :
    CheckKeeps C (RetriesBound max) d pin data where
  blocked _ _ := h.withNote fun _ ↦ guesses_of_compared (.inl rfl)
  paid _ hne _ := h.paid hne
  unpaid hmatch hne hnot := absurd (hpaid hmatch hne) hnot
  right _ := h.withNote fun _ ↦ guesses_of_compared (.inr rfl)
  raised hne := (h.withNote fun _ ↦ guesses_of_compared (.inr rfl)).raised
    (wrongGuesses_right hne pin _)

theorem RetriesBound.resetKeeps (max : HsmPin → UInt8) : ResetKeeps (RetriesBound max) :=
  fun d h ↦ by
  have hnoted : RetriesBound max (PicoAll.withNote d .soReset) := h.withNote fun _ ↦ rfl
  have hforgiven : wrongGuesses HsmPin.user (PicoAll.withNote d .soReset).ram.history = 0 := by
    simp [PicoAll.withNote, wrongGuesses, HsmPinNote.authorises]
  exact ⟨hnoted, hnoted.raised hforgiven⟩

/-! ### What raises a counter -/

/-- From `d₀` to `d` a counter has been raised only if something allowed it. -/
def RaisedByRight (d₀ d : HsmDevice) : Prop :=
  ∃ new, d.ram.history = new ++ d₀.ram.history ∧ ∀ pin : HsmPin,
    fileReadUint8 d₀ pin.retries < fileReadUint8 d pin.retries → ∃ note ∈ new, note.authorises pin

theorem RaisedByRight.refl (d : HsmDevice) : RaisedByRight d d :=
  ⟨[], rfl, fun _ h ↦ absurd h (UInt8.lt_irrefl _)⟩

theorem RaisedByRight.ofCounters (d₀ : HsmDevice) : OfCounters (RaisedByRight d₀) := by
  rintro d d' hsame ⟨new, hnew, h⟩
  refine ⟨new, hsame.history.trans hnew, fun p hp ↦ h p ?_⟩
  rwa [hsame.fileReadUint8_eq (isCounter_retries p)] at hp

theorem RaisedByRight.withNote {d₀ : HsmDevice} (h : RaisedByRight d₀ d) (note : HsmPinNote) :
    RaisedByRight d₀ (withNote d note) := by
  obtain ⟨new, hnew, h⟩ := h
  refine ⟨note :: new, by simp [PicoAll.withNote, hnew], fun p hp ↦ ?_⟩
  obtain ⟨n, hn, hauth⟩ := h p hp
  exact ⟨n, mem_cons_of_mem _ hn, hauth⟩

/-- A counter may be written after a note that allows it to be raised, or if it is not raised. -/
theorem RaisedByRight.written {d₀ : HsmDevice} (h : RaisedByRight d₀ d)
    (hok : note.authorises pin ∨ retries ≤ fileReadUint8 d₀ pin.retries) :
    RaisedByRight d₀ ((PicoAll.withNote d note).written pin.retries (some [retries])) := by
  obtain ⟨new, hnew, h⟩ := h.withNote note
  obtain ⟨new', hnew'⟩ : ∃ new', new = note :: new' := by
    obtain ⟨new', hnew', -⟩ := ‹RaisedByRight d₀ d›
    refine ⟨new', append_cancel_right (hnew.symm.trans ?_)⟩
    simp [PicoAll.withNote, hnew']
  refine ⟨new, hnew, fun p hp ↦ ?_⟩
  rw [fileReadUint8_written_retries] at hp
  rcases eq_or_ne p pin with rfl | hne
  · rw [if_pos rfl] at hp
    rcases hok with hauth | hle
    · exact ⟨note, hnew' ▸ mem_cons_self .., hauth⟩
    · exact absurd hp (UInt8.not_lt.mpr hle)
  · rw [if_neg hne] at hp
    exact h p hp

theorem RaisedByRight.checkKeeps (d : HsmDevice) (pin : HsmPin) (data : Bytes) :
    CheckKeeps C (RaisedByRight d) d pin data where
  blocked _ _ := (refl d).withNote _
  paid _ hne _ := (refl d).written (.inr (UInt8.le_iff_toNat_le.mpr
    (Nat.le_of_lt (Nat.lt_of_succ_le (toNat_sub_one hne).le))))
  unpaid _ _ _ := (refl d).withNote _
  right _ := (refl d).withNote _
  raised hne := (refl d).written (.inl (by simpa [HsmPinNote.authorises] using hne))

theorem RaisedByRight.resetKeeps (d₀ : HsmDevice) : ResetKeeps (RaisedByRight d₀) :=
  fun d h ↦ by
  have hauth : HsmPinNote.soReset.authorises HsmPin.user := rfl
  exact ⟨h.withNote _, h.written (.inl hauth)⟩

/-! ### A submission -/

/-- From `d` to `d'` no status is granted, and no file is written. -/
structure GrantsNothing (d d' : HsmDevice) : Prop where
  files : d'.files = d.files
  sessions : ∀ pin, d'.ram.hasSession pin → d.ram.hasSession pin
  authenticated : d'.ram.isUserAuthenticated → d.ram.isUserAuthenticated

theorem GrantsNothing.refl (d : HsmDevice) : GrantsNothing d d :=
  ⟨rfl, fun _ h ↦ h, fun h ↦ h⟩

theorem grantsNothing_beginCheck (d : HsmDevice) (pka : Bool) (note : HsmPinNote) :
    GrantsNothing d (withNote (d.setRam (·.beginCheck pka)) note) where
  files := rfl
  sessions p h := by cases p <;> exact absurd h false_ne_true
  authenticated h := (and_eq_true _ _ ▸ h).1

theorem hsmFileHasData_of_matches (h : pinMatches C (fileData d pin.file) data = some correct) :
    hsmFileHasData d pin.file = true := by
  rcases hdata : fileData d pin.file with - | ⟨b, bs⟩
  · rw [hdata] at h
    exact absurd h (by simp [pinMatches])
  · simp [hsmFileHasData, hdata]

theorem swRetries_ne_swOk (retries : UInt8) : swRetries retries ≠ swOk := by
  intro h
  have hlt : (0xc0 ||| retries).toNat < 256 := (0xc0 ||| retries).toNat_lt
  have hok : swOk.toNat = 0x9000 := rfl
  have hnat := congrArg UInt16.toNat h
  simp only [swRetries, UInt16.toNat_add, UInt8.toNat_toUInt16, UInt16.reduceToNat] at hnat
  omega

/-- With a PIN that is blocked, what is answered and what is left do not depend on whether the value
is right; only the history tells. -/
theorem wp_hsmCheckPin_silent (hzero : fileReadUint8 d pin.retries = 0)
    (hmatch : pinMatches C (fileData d pin.file) data = some correct) :
    wp A (hsmCheckPin C pin data) (fun sw d' ↦ sw = swPinBlocked ∧
      d' = withNote (d.setRam (·.beginCheck (pkaEnabled d))) (.compared pin 0 correct))
      (fun _ _ ↦ False) d := by
  refine wp_get (wp_ite (fun h ↦ ?_) fun _ ↦ wp_bind (wp_modifyRam ?_))
  · rw [hsmFileHasData_of_matches hmatch] at h
    cases h
  rw [hmatch, hzero]
  cases correct with
  | false =>
    refine wp_bind (wp_notePin (wp_bind (wp_resultOf (wp_pinWrongRetry ?_ ?_ ?_))))
    · exact fun _ ↦ wp_pure ⟨rfl, rfl⟩
    · exact fun hne ↦ absurd hzero hne
    · exact fun hne ↦ absurd hzero hne
  | true =>
    refine wp_bind (wp_notePin (wp_bind (wp_resultOf (wp_hsmPinResetRetries ?_ ?_ ?_))))
    · exact fun _ _ ↦ wp_pure ⟨rfl, rfl⟩
    · exact fun hne ↦ absurd hzero (hne rfl)
    · exact fun hne ↦ absurd hzero (hne rfl)

/-- A PIN that is blocked grants nothing, whatever is submitted. -/
theorem wp_hsmCheckPin_blocked (hzero : fileReadUint8 d pin.retries = 0) :
    wp A (hsmCheckPin C pin data) (fun sw d' ↦ sw ≠ swOk ∧ GrantsNothing d d') (fun _ _ ↦ False)
      d := by
  rcases hmatch : pinMatches C (fileData d pin.file) data with - | correct
  · refine wp_get (wp_return ⟨by decide, .refl d⟩ fun _ ↦ wp_bind (wp_modifyRam ?_))
    rw [hmatch]
    refine wp_pure ⟨by decide, rfl, fun p h ↦ ?_, fun h ↦ (and_eq_true _ _ ▸ h).1⟩
    cases p <;> exact absurd h false_ne_true
  · refine wp_mono (wp_hsmCheckPin_silent hzero hmatch) ?_ fun _ _ h ↦ h
    rintro sw d' ⟨rfl, rfl⟩
    exact ⟨by decide, grantsNothing_beginCheck ..⟩

/-- A wrong value takes its part of the counter, if the write takes effect. -/
theorem wp_hsmCheckPin_wrong (hmatch : pinMatches C (fileData d pin.file) data = some false)
    (hne : fileReadUint8 d pin.retries ≠ 0) (htakes : TakesEffect d pin.retries) :
    wp A (hsmCheckPin C pin data) (fun sw d' ↦ sw ≠ swOk ∧
      fileReadUint8 d' pin.retries = fileReadUint8 d pin.retries - 1) (fun _ _ ↦ False) d := by
  refine wp_get (wp_ite (fun h ↦ ?_) fun _ ↦ wp_bind (wp_modifyRam ?_))
  · rw [hsmFileHasData_of_matches hmatch] at h
    cases h
  · rw [hmatch]
    refine wp_bind (wp_notePin (wp_bind (wp_resultOf (wp_pinWrongRetry ?_ ?_ ?_))))
    · exact fun hzero ↦ absurd hzero hne
    · rintro - - _ rfl
      have hpaid := fileReadUint8_written_retries (withNote (d.setRam (·.beginCheck (pkaEnabled d)))
        (.compared pin (fileReadUint8 d pin.retries) false)) pin pin (fileReadUint8 d pin.retries - 1)
      rw [if_pos rfl] at hpaid
      exact ⟨wp_pure ⟨swRetries_ne_swOk _, hpaid⟩, fun _ ↦ wp_pure ⟨by decide, hpaid⟩⟩
    · exact fun _ hnot ↦ absurd htakes hnot

theorem exec_getState_bind (f : HsmDevice → HsmProg α) (os : List Outcome) :
    (getState >>= f).exec d os = (f d).exec d os :=
  rfl

/-- A command that submits a value checks it first, and ends there if the check fails. -/
theorem exec_run_of_submission (h : c.submission d = some (pin, data)) :
    ∃ next : UInt16 → HsmProg UInt16, (∀ sw, sw ≠ swOk → next sw = pure sw) ∧
      ∀ os, (c.run C).exec d os = (hsmCheckPin C pin data >>= next).exec d os := by
  cases c with
  | verify p1 p2 bytes =>
    rw [submission] at h
    rcases htarget : verifyTarget d p1 p2 bytes with sw | target <;> rw [htarget] at h
    · exact absurd h (by simp [Except.toOption])
    · obtain rfl : target = (pin, data) := by simpa [Except.toOption] using h
      refine ⟨pure, fun _ _ ↦ rfl, fun os ↦ ?_⟩
      rw [bind_pure, run, hsmCmdVerify, exec_getState_bind, htarget]
  | changePin p1 p2 bytes =>
    rw [submission] at h
    rcases hplan : changePinPlan d p1 p2 bytes with sw | plan <;> rw [hplan] at h
    · exact absurd h (by simp [Except.toOption])
    · obtain ⟨rfl, rfl⟩ : plan.pin = pin ∧ plan.value = data := by
        simpa [Except.toOption] using h
      refine ⟨fun sw ↦ if sw ≠ swOk then pure sw else replacePin C plan.pin plan.newPin,
        fun sw hsw ↦ if_pos hsw, fun os ↦ ?_⟩
      rw [run, hsmCmdChangePin, exec_getState_bind, hplan]
  | resetRetry p1 p2 bytes =>
    rw [submission] at h
    rcases hplan : resetRetryPlan d p1 p2 bytes with sw | ⟨soPin, newPin⟩ <;> rw [hplan] at h
    · exact absurd h (by simp [Except.toOption])
    rcases soPin with - | value
    · exact absurd h (by simp [Except.toOption])
    · obtain ⟨rfl, rfl⟩ : HsmPin.so = pin ∧ value = data := by simpa [Except.toOption] using h
      refine ⟨?next, fun sw hsw ↦ ?_, fun os ↦ ?_⟩
      case refine_2 => rw [run, hsmCmdResetRetry, exec_getState_bind, hplan]
      case refine_1 => exact if_pos hsw
  | initializeHsm bytes => exact absurd h (by simp [submission])

/-- What follows a check that fails is nothing. -/
theorem wp_of_submission (h : c.submission d = some (pin, data)) {P : HsmDevice → Prop}
    (hcheck : wp A (hsmCheckPin C pin data) (fun sw d' ↦ sw ≠ swOk ∧ P d') (fun _ _ ↦ False) d) :
    wp A (c.run C) (fun _ ↦ P) (fun _ _ ↦ False) d := by
  obtain ⟨next, hnext, hexec⟩ := exec_run_of_submission (C := C) h
  have hwp : wp A (hsmCheckPin C pin data >>= next) (fun _ ↦ P) (fun _ _ ↦ False) d :=
    wp_then hcheck fun sw d' hd' ↦ by rw [hnext sw hd'.1]; exact wp_pure hd'.2
  intro os hos
  rw [hexec os]
  exact hwp os hos

theorem runHsm_of_wp_ok {m : HsmProg α} {Q : α → HsmDevice → Prop}
    (h : wp (fun _ ↦ True) m Q (fun _ _ ↦ False) d) : ∃ a, Q a (runHsm m d) := by
  rcases run_of_wp h (fun o (_ : o ∈ []) ↦ trivial) with ⟨a, ha, hQ⟩ | ⟨_, -, hfalse⟩
  · refine ⟨a, ?_⟩
    unfold runHsm
    rw [ha]
    exact hQ
  · exact hfalse.elim

/-! ### Runs -/

theorem scanFiles_sameCounters (hpresent : ∀ f : HsmFile, f.IsCounter → (d.read f).isSome) :
    SameCounters d (runHsm scanFiles d) := by
  have hI : OfCounters (SameCounters d) := fun d₁ d₂ h h₁ ↦
    ⟨fun f hf ↦ (h.view f hf).trans (h₁.view f hf), fun f hf ↦ (h.stale f hf).trans (h₁.stale f hf),
      h.history.trans h₁.history⟩
  have hother : ∀ (f : HsmFile) content, ¬f.IsCounter →
      Preserves (SameCounters d) (scanFile f content) := fun f content hf ↦
    .get fun _ ↦ .ite (fun _ ↦ .pure trivial) fun _ ↦
      keeps_hsmFilePutDataIgnoring hI hf content
  have hcounter : ∀ (f : HsmFile) content, f.IsCounter →
      Preserves (SameCounters d) (scanFile f content) := fun f content hf ↦
    .bind .getState fun d' hd' ↦ .ite (fun _ ↦ .pure trivial) fun h ↦ by
      rw [Device.read, hd'.view f hf] at h
      exact absurd (hpresent f hf) h
  refine runHsm_of_wp hI (wp_mono ((?_ : Preserves (SameCounters d) scanFiles) _ d
    ⟨fun _ _ ↦ rfl, fun _ _ ↦ rfl, rfl⟩) (fun _ _ h ↦ h.1) fun _ _ h ↦ h)
  refine .bind (hother _ _ (not_isCounter_file .user)) fun _ _ ↦ ?_
  refine .bind (hother _ _ (not_isCounter_file .so)) fun _ _ ↦ ?_
  refine .bind (hcounter _ _ (isCounter_retries .user)) fun _ _ ↦ ?_
  refine .bind (hcounter _ _ (isCounter_retries .so)) fun _ _ ↦ ?_
  exact .bind (hcounter _ _ (isCounter_maxRetries .user)) fun _ _ ↦
    hcounter _ _ (isCounter_maxRetries .so)

/-- A VERIFY, a CHANGE REFERENCE DATA, a RESET RETRY COUNTER, or no command. -/
def HsmPinEvent.IsPinEvent : HsmPinEvent → Prop
  | command (.initializeHsm _) _ => False
  | _ => True

/-- No decrement is lost: the write of a decrement takes effect, and when the power comes back no
counter is larger than it was. -/
def HsmPinEvent.Paid (C : HsmPinCrypto) (d : HsmDevice) : HsmPinEvent → Prop
  | command c faults => ∀ s ∈ c.submission d, pinMatches C (fileData d s.1.file) s.2 = some false →
      fileReadUint8 d s.1.retries ≠ 0 → TakesEffect { d with faults := faults } s.1.retries
  | flush _ => True
  | reboot keep faults => ∀ pin : HsmPin,
      fileReadUint8 ⟨d.files.powerCut keep, faults, d.ram⟩ pin.retries ≤ fileReadUint8 d pin.retries

/-- The device after a run. -/
def hsmPinRun (C : HsmPinCrypto) (d : HsmDevice) (events : List HsmPinEvent) : HsmDevice :=
  events.foldl (HsmPinEvent.step C) d

/-- In a run no decrement is lost. -/
def HsmPinPaid (C : HsmPinCrypto) : HsmDevice → List HsmPinEvent → Prop
  | _, [] => True
  | d, event :: events => event.Paid C d ∧ HsmPinPaid C (event.step C d) events

/-- What holds of a state that is reached. -/
structure HsmPinGuarded (C : HsmPinCrypto) (max : HsmPin → UInt8) (d : HsmDevice) : Prop where
  /-- No more wrong values have been compared with a PIN that was not blocked, since its counter was
  last allowed to be raised, than the counter starts from. -/
  limited : ∀ pin, wrongGuesses pin d.ram.history ≤ (max pin).toNat
  /-- A wrong value takes its part of the counter. -/
  decremented : ∀ c faults pin data, d.ram.off = false → c.submission d = some (pin, data) →
    pinMatches C (fileData d pin.file) data = some false → fileReadUint8 d pin.retries ≠ 0 →
    (HsmPinEvent.command c faults).Paid C d →
    fileReadUint8 ((HsmPinEvent.command c faults).step C d) pin.retries =
      fileReadUint8 d pin.retries - 1
  /-- A PIN that is blocked grants nothing, whatever is submitted. -/
  blocked : ∀ c faults pin data, c.submission d = some (pin, data) →
    fileReadUint8 d pin.retries = 0 → GrantsNothing d ((HsmPinEvent.command c faults).step C d)
  /-- A counter is raised only by the right value of a PIN that is not blocked, or under the PIN of
  the security officer. -/
  raised : ∀ event : HsmPinEvent, event.IsPinEvent → event.Paid C d →
    RaisedByRight d (event.step C d)

theorem CountersPresent.isSome (h : CountersPresent max d) (f : HsmFile) (hf : f.IsCounter) :
    (d.read f).isSome := by
  obtain ⟨pin, rfl | rfl⟩ := hf
  · exact h.present pin _ (mem_cons_self ..)
  · exact h.maxPresent pin

section Reboot

variable (h : RetriesBound max d) {keep : HsmFile → ℕ} {faults : HsmFile → List Outcome}
  (hpaid : (HsmPinEvent.reboot keep faults).Paid C d)

include h hpaid

theorem RetriesBound.powerCut : RetriesBound max ⟨d.files.powerCut keep, faults, d.ram.reboot⟩ where
  limit p := by
    show (((d.files.powerCut keep).view p.maxRetries).getD []).headD 0 = _
    rw [WriteBack.powerCut_view_of_synced (h.settled p)]
    exact h.limit p
  settled _ := rfl
  maxPresent p := by
    rw [WriteBack.powerCut_view_of_synced (h.settled p)]
    exact h.maxPresent p
  present p c hc := by
    obtain rfl := mem_singleton.mp hc
    exact h.present p _ (d.files.powerCut_view_mem keep p.retries)
  bound p := by
    have hle := UInt8.le_iff_toNat_le.mp (hpaid p)
    exact (Nat.add_le_add_left hle _).trans (h.bound p)

theorem RetriesBound.reboot :
    SameCounters ⟨d.files.powerCut keep, faults, d.ram.reboot⟩
      ((HsmPinEvent.reboot keep faults).step C d) :=
  scanFiles_sameCounters (h.powerCut hpaid).isSome

end Reboot

section

variable (h : RetriesBound max d)
include h

/-- One event keeps the invariant. -/
theorem RetriesBound.step {event : HsmPinEvent}
    (hpin : event.IsPinEvent) (hpaid : event.Paid C d) : RetriesBound max (event.step C d) := by
  cases event with
  | command c faults =>
    rw [HsmPinEvent.step]
    split
    · exact h
    · refine runHsm_of_wp (RetriesBound.ofCounters max) (wp_hsmRun (RetriesBound.ofCounters max)
        (RetriesBound.resetKeeps max) ?_ ?_ fun pin data hsub ↦ ?_)
      · exact ⟨⟨h.limit, h.settled, h.maxPresent, h.present⟩, h.bound⟩
      · rintro data rfl
        exact hpin
      · exact RetriesBound.checkKeeps ⟨⟨h.limit, h.settled, h.maxPresent, h.present⟩, h.bound⟩
          (hpaid (pin, data) hsub)
  | flush f =>
    rw [HsmPinEvent.step]
    split
    · exact h
    · refine ⟨⟨h.limit, fun p ↦ ?_, h.maxPresent, fun p c hc ↦ h.present p c ?_⟩, h.bound⟩
      · show Function.update d.files.stale f [] p.maxRetries = []
        rcases eq_or_ne p.maxRetries f with rfl | hne
        · rw [update_self]
        · rw [update_of_ne hne, h.settled p]
      · change c ∈ _ :: Function.update d.files.stale f [] p.retries at hc
        rcases eq_or_ne p.retries f with rfl | hne
        · rw [update_self, mem_singleton] at hc
          exact hc ▸ mem_cons_self ..
        · rwa [update_of_ne hne] at hc
  | reboot keep faults =>
    exact RetriesBound.ofCounters max _ _ (h.reboot hpaid) (h.powerCut hpaid)

/-- One event raises no counter but by right. -/
theorem RaisedByRight.step {event : HsmPinEvent}
    (hpin : event.IsPinEvent) (hpaid : event.Paid C d) : RaisedByRight d (event.step C d) := by
  cases event with
  | command c faults =>
    rw [HsmPinEvent.step]
    split
    · exact .refl d
    · set d' : HsmDevice := { d with faults := faults }
      refine runHsm_of_wp (RaisedByRight.ofCounters d') (wp_hsmRun (RaisedByRight.ofCounters d')
        (RaisedByRight.resetKeeps d') (.refl d') ?_ fun pin data _ ↦
          RaisedByRight.checkKeeps d' pin data)
      rintro data rfl
      exact hpin
  | flush f =>
    rw [HsmPinEvent.step]
    split
    · exact .refl d
    · exact .refl d
  | reboot keep faults =>
    refine RaisedByRight.ofCounters d _ _ (h.reboot hpaid) ⟨[], rfl, fun p hp ↦ ?_⟩
    exact absurd hp (UInt8.not_lt.mpr (hpaid p))

theorem RetriesBound.guarded : HsmPinGuarded C max d where
  limited pin := (Nat.le_add_right ..).trans (h.bound pin)
  decremented c faults pin data hoff hsub hmatch hne hpaid := by
    rw [HsmPinEvent.step, if_neg (by simp [hoff])]
    obtain ⟨-, hdecremented⟩ := runHsm_of_wp_ok
      (wp_of_submission (d := { d with faults := faults }) hsub
        (wp_hsmCheckPin_wrong hmatch hne (hpaid (pin, data) hsub hmatch hne)))
    exact hdecremented
  blocked c faults pin data hsub hzero := by
    rw [HsmPinEvent.step]
    split
    · exact .refl d
    · obtain ⟨-, hfiles, hsessions, hauth⟩ := runHsm_of_wp_ok
        (wp_of_submission (C := C) (d := { d with faults := faults }) hsub
          (wp_hsmCheckPin_blocked hzero))
      exact ⟨hfiles, hsessions, hauth⟩
  raised _ hpin hpaid := .step h hpin hpaid

/-- The invariant along a run. -/
theorem RetriesBound.run {events : List HsmPinEvent} (hpin : ∀ event ∈ events, event.IsPinEvent)
    (hpaid : HsmPinPaid C d events) : RetriesBound max (hsmPinRun C d events) := by
  induction events generalizing d with
  | nil => exact h
  | cons event events ih =>
    exact ih (h.step (hpin event (mem_cons_self ..)) hpaid.1)
      (fun e he ↦ hpin e (mem_cons_of_mem _ he)) hpaid.2

end

/-- A derivation to run the functions with: it shows the PIN. -/
def plainHash (pin : Bytes) : Bytes :=
  (UInt8.ofNat pin.length :: pin ++ List.replicate 32 0).take 32

/-- A cipher that leaves the data as they are. -/
def plainCipher (_key _iv data : Bytes) : Bytes :=
  data

/-- A cipher to run the functions with: it shows the key and the data. -/
def plainHsmCrypto : HsmPinCrypto where
  doubleHashPin := plainHash
  pinDeriveVerifier := plainHash
  hashMulti := plainHash
  pinDeriveSession := plainHash
  encryptWithAad draw key data :=
    List.replicate 12 (.ofNat draw) ++ data ++ (key ++ List.replicate 16 0).take 16
  decryptWithAad key data :=
    if 28 ≤ data.length ∧ data.drop (data.length - 16) = (key ++ List.replicate 16 0).take 16 then
      some ((data.drop 12).take (data.length - 28))
    else
      none
  aesDecryptCfb256 := plainCipher
  crc32c _ := [0, 0, 0, 0]
  randomMkek draw := List.replicate 48 (.ofNat draw)
  otpKey1 := none
  length_doubleHashPin pin := by simp [plainHash]
  length_pinDeriveVerifier pin := by simp [plainHash]
  length_encryptWithAad draw key data := by simp
  length_decryptWithAad key data plain h := by
    split at h
    · next hlen =>
      obtain rfl := Option.some.inj h
      rw [List.length_take, List.length_drop]
      omega
    · exact absurd h (by simp)
  length_aesDecryptCfb256 _ _ _ := rfl
  length_randomMkek draw := by simp
  length_otpKey1 _ h := absurd h (by simp)
  decryptWithAad_encryptWithAad draw key data := by
    rw [if_pos ⟨by simp, List.drop_left' (by simp)⟩, List.append_assoc,
      List.drop_left' (by simp), List.take_left' (by simp)]

/-- The memory when nothing has happened. -/
def hsmRamStart : HsmRam where
  hasSessionPin := false
  hasSessionSopin := false
  hsmSessionPin := []
  sessionSopin := []
  isUserAuthenticated := false
  pukStatus := .replicate maxPuk 0
  mkekMask := none
  draws := 0
  off := false
  history := []

/-- A device whose PINs are 1 and 2, with three tries each. -/
def hsmDeviceStart : HsmDevice where
  files :=
    { view := fun
        | .pin1 => some (pinVerifier plainHsmCrypto [1])
        | .sopin => some (pinVerifier plainHsmCrypto [2])
        | .pin1Retries | .pin1MaxRetries | .sopinRetries | .sopinMaxRetries => some [3]
        | .mkek => some (3 :: plainHsmCrypto.encryptWithAad 0
            (plainHsmCrypto.pinDeriveSession [1]) (.replicate 48 9))
        | .mkekSo => some (3 :: plainHsmCrypto.encryptWithAad 0
            (plainHsmCrypto.pinDeriveSession [2]) (.replicate 48 9))
        | _ => none
      stale := fun _ ↦ [] }
  faults _ := []
  ram := hsmRamStart

end PicoAll
