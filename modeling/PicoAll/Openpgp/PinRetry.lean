import PicoAll.Openpgp.DataAccess
import PicoAll.Openpgp.PinCommands

/-!
# The retry counters

Five PINs have their counters in one record. A value is compared with a verifier only once the counter
of that PIN has been decremented from a value that is not 0; a counter is raised only by the right
value of the PIN, or by a command that is entitled to it; a PIN whose counter is 0 grants nothing; and
the counters of the other PINs stay as they are. What is known of a run holds as long as the record
keeps all its counters and the power is not lost before it has reached the flash.
-/

namespace PicoAll.Openpgp

open FaultProgram CardCommand List Option Nat

/-! ### The counters -/

/-- The PINs. -/
inductive CardPin where
  | pw1
  | rc
  | pw3
  | pivPin
  | pivPuk
  deriving DecidableEq

/-- The file of the verifier. -/
def CardPin.fid : CardPin → ℕ
  | pw1 => efPw1
  | rc => efRc
  | pw3 => efPw3
  | pivPin => efPivPin
  | pivPuk => efPivPuk

/-- The record with the counters. -/
def pwStatus (d : CardDevice) : Bytes :=
  fileData d efPwPriv

/-- The counter of a PIN. -/
def retries (d : CardDevice) (p : CardPin) : UInt8 :=
  (pwStatus d).getD (retryIndex p.fid) 0

/-- The record has a counter for the PIN. -/
def HasRetries (d : CardDevice) (p : CardPin) : Prop :=
  retryIndex p.fid < (pwStatus d).length

theorem retryIndex_pos (p : CardPin) : 4 ≤ retryIndex p.fid := by
  cases p <;> decide

variable {p : CardPin} {A : Outcome → Prop}

theorem retryIndex_ne {q : CardPin} (h : p ≠ q) : retryIndex p.fid ≠ retryIndex q.fid := by
  cases p <;> cases q <;> first | exact absurd rfl h | decide

/-! ### What a command may do -/

/-- The PINs whose counters a command concerns. -/
def CardCommand.Touches : CardCommand → CardPin → Prop
  | select applet _, p => applet = .openpgp ∧ p = .rc
  | verify _ p2 _, p => p.fid = verifyFid p2
  | changePin _ p2 _, p => (changePinSlot p2).map DekSlot.pin = some p.fid
  | resetRetry p1 _ _, p => p = .pw1 ∨ p1 = 0 ∧ p = .rc
  | putData requested _, p =>
    p = .rc ∧ (putDataFid requested = efRc ∨ requested = efKdf) ∨
      (p = .pw1 ∨ p = .pw3) ∧ requested = efKdf
  | pivVerify .., p => p = .pivPin
  | pivChangePin _ p2 _, p => pivReference p2 = some p.fid
  | pivResetRetry .., p | setRetries .., p | pivReset .., p => p = .pivPin ∨ p = .pivPuk
  | read _, _ | authenticateMgm, _ => False

/-- The right value of a PIN has been given. -/
def RightGiven (notes : List PinNote) (p : CardPin) : Prop :=
  ∃ r, .compared p.fid r true ∈ notes

/-- The commands that are entitled to reset the counter of a PIN. -/
def CardCommand.Entitled (d : CardDevice) (notes : List PinNote) : CardCommand → CardPin → Prop
  | resetRetry p1 _ _, p =>
    p = .pw1 ∧ (p1 = 0 ∧ RightGiven notes .rc ∨ p1 = 2 ∧ d.ram.hasPw3 = true)
  | putData requested _, p =>
    d.ram.hasPw3 = true ∧
      (p = .rc ∧ putDataFid requested = efRc ∨ (p = .pw1 ∨ p = .pw3) ∧ requested = efKdf)
  | pivResetRetry .., p => p = .pivPin ∧ RightGiven notes .pivPuk
  | setRetries .., p =>
    (p = .pivPin ∨ p = .pivPuk) ∧ d.ram.hasMgm = true ∧ d.ram.hasPwpiv = true
  | pivReset .., p =>
    (p = .pivPin ∨ p = .pivPuk) ∧ retries d .pivPin = 0 ∧ retries d .pivPuk = 0
  | select .., _ | verify .., _ | changePin .., _ | read _, _ | pivVerify .., _ |
    pivChangePin .., _ | authenticateMgm, _ => False

/-- The counter of a PIN may be raised. -/
def CardCommand.MayRaise (c : CardCommand) (d : CardDevice) (notes : List PinNote) (p : CardPin) :
    Prop :=
  RightGiven notes p ∨ c.Entitled d notes p

variable {notes notes' : List PinNote} {α : Type} {E : Exit Status → CardDevice → Prop}
  {Q : Unit → CardDevice → Prop}

theorem RightGiven.mono (h : RightGiven notes p) (hsub : ∀ note ∈ notes, note ∈ notes') :
    RightGiven notes' p :=
  h.imp fun _ hr ↦ hsub _ hr

theorem CardCommand.MayRaise.mono {c : CardCommand} {d : CardDevice} (h : c.MayRaise d notes p)
    (hsub : ∀ note ∈ notes, note ∈ notes') : c.MayRaise d notes' p := by
  refine h.imp (·.mono hsub) fun hentitled ↦ ?_
  cases c with
  | resetRetry => exact ⟨hentitled.1, hentitled.2.imp (fun h ↦ ⟨h.1, h.2.mono hsub⟩) id⟩
  | pivResetRetry => exact ⟨hentitled.1, hentitled.2.mono hsub⟩
  | putData | setRetries | pivReset => exact hentitled
  | select | verify | changePin | read | pivVerify | pivChangePin | authenticateMgm =>
    exact hentitled

/-- Between `d₀` and `d` a comparison was paid for. If it came out wrong, which it may if `wrong`, the
counter has stayed where it was then. -/
def PinNote.Paid (wrong : Bool) (d₀ d : CardDevice) : PinNote → Prop
  | compared fid r correct => ∃ p : CardPin, fid = p.fid ∧ retries d₀ p ≠ 0 ∧ r = retries d₀ p - 1 ∧
    (correct = false → wrong = true ∧ retries d p = r)
  | entitled _ => True

/-- What a command may have done with the counters between `d₀` and `d`, when the notes `seen` have been
made. -/
structure Tallied (wrong : Bool) (seen : List PinNote) (c : CardCommand) (d₀ d : CardDevice) :
    Prop where
  /-- The counters that are there stay there. -/
  length_le : (pwStatus d₀).length ≤ (pwStatus d).length
  le_nine : (pwStatus d).length ≤ 9
  /-- Only counters that the command concerns are changed. -/
  others : ∀ p, HasRetries d₀ p → retries d p ≠ retries d₀ p → c.Touches p
  /-- Comparisons are paid for, and counters are raised by right. -/
  notes : ∃ new, d.ram.history = new ++ d₀.ram.history ∧ (∀ note ∈ seen, note ∈ new) ∧
    (∀ note ∈ new, note.Paid wrong d₀ d) ∧
    ∀ p, HasRetries d₀ p → retries d₀ p < retries d p → c.MayRaise d₀ new p

variable {wrong : Bool} {seen : List PinNote} {c : CardCommand} {d₀ d d' : CardDevice}

theorem Tallied.refl (wrong : Bool) (c : CardCommand) (h : (pwStatus d).length ≤ 9) :
    Tallied wrong [] c d d :=
  ⟨le_rfl, h, fun _ _ hne ↦ absurd rfl hne, [], rfl, fun _ h ↦ h, by simp,
    fun _ _ hlt ↦ absurd hlt (UInt8.lt_irrefl _)⟩

/-- A counter may be raised once the notes `seen` have been made. -/
def Rightful (seen : List PinNote) (c : CardCommand) (d₀ : CardDevice) (p : CardPin) : Prop :=
  ∀ new, (∀ note ∈ seen, note ∈ new) → c.MayRaise d₀ new p

/-- Less may be said. -/
theorem Tallied.weaken (h : Tallied wrong seen c d₀ d) : Tallied true [] c d₀ d := by
  obtain ⟨new, hnew, -, hpaid, hraised⟩ := h.notes
  refine ⟨h.length_le, h.le_nine, h.others, new, hnew, by simp, fun note hnote ↦ ?_, hraised⟩
  have hnote := hpaid note hnote
  cases note with
  | compared =>
    obtain ⟨p, hfid, hne, hr, hwrong⟩ := hnote
    exact ⟨p, hfid, hne, hr, fun hc ↦ ⟨rfl, (hwrong hc).2⟩⟩
  | entitled => trivial

/-! ### What does not concern the counters -/

/-- The counters and the history are the same. -/
structure SameTally (d d' : CardDevice) : Prop where
  status : d'.read (.ef efPwPriv) = d.read (.ef efPwPriv)
  history : d'.ram.history = d.ram.history

theorem SameTally.pwStatus_eq (h : SameTally d d') : pwStatus d' = pwStatus d := by
  rw [pwStatus, pwStatus, fileData, fileData, h.status]

theorem SameTally.retries_eq (h : SameTally d d') (p : CardPin) : retries d' p = retries d p := by
  rw [retries, retries, h.pwStatus_eq]

theorem Tallied.of_same (h : Tallied wrong seen c d₀ d) (hsame : SameTally d d') :
    Tallied wrong seen c d₀ d' := by
  obtain ⟨new, hnew, hseen, hpaid, hraised⟩ := h.notes
  refine ⟨hsame.pwStatus_eq ▸ h.length_le, hsame.pwStatus_eq ▸ h.le_nine, fun p hp hne ↦ ?_, new,
    hsame.history.trans hnew, hseen, fun note hnote ↦ ?_, fun p hp hlt ↦ ?_⟩
  · exact h.others p hp (hsame.retries_eq p ▸ hne)
  · have hnote := hpaid note hnote
    cases note with
    | compared =>
      obtain ⟨p, hfid, hne, hr, hwrong⟩ := hnote
      exact ⟨p, hfid, hne, hr, fun hc ↦ (hwrong hc).imp_right (hsame.retries_eq p).trans⟩
    | entitled => trivial
  · exact hraised p hp (hsame.retries_eq p ▸ hlt)

/-- What is said about counters and history survives what does not concern them. -/
def OfTally (I : CardDevice → Prop) : Prop :=
  ∀ d d', SameTally d d' → I d → I d'

theorem Tallied.ofTally (wrong : Bool) (seen : List PinNote) (c : CardCommand) (d₀ : CardDevice) :
    OfTally (Tallied wrong seen c d₀) :=
  fun _ _ hsame h ↦ h.of_same hsame

/-- A program that does not concern the counters. -/
def Quiet {α : Type} (m : CardProg α) : Prop :=
  ∀ I, OfTally I → Keeps I (fun _ ↦ True) m

theorem Quiet.tallied {m : CardProg α} (hm : Quiet m) : Preserves (Tallied wrong seen c d₀) m :=
  hm _ (Tallied.ofTally _ _ _ _)

theorem Quiet.then {β : Type} {m : CardProg α} {f : α → CardProg β} (hm : Quiet m)
    (hf : ∀ a, Preserves (Tallied wrong seen c d₀) (f a)) :
    Preserves (Tallied wrong seen c d₀) (m >>= f) :=
  hm.tallied.bind fun a _ ↦ hf a

theorem Quiet.apply {m : CardProg α} {I : CardDevice → Prop} {d : CardDevice} (hm : Quiet m)
    (hI : OfTally I) (hd : I d) : wp A m (fun _ d' ↦ I d' ∧ True) (fun _ d' ↦ I d') d :=
  hm I hI A d hd

/-- A command does with the counters what it may. -/
abbrev Tallies {α : Type} (A : Outcome → Prop) (c : CardCommand) (d : CardDevice) (m : CardProg α) :
    Prop :=
  wp A m (fun _ ↦ Tallied true [] c d) (fun _ ↦ Tallied true [] c d) d

/-- A program that keeps the tally well formed, run where it is so. -/
theorem wp_tallied {m : CardProg α} {d : CardDevice} (hd : Tallied false seen c d₀ d)
    (hm : Preserves (Tallied false seen c d₀) m) :
    wp A m (fun _ ↦ Tallied true [] c d₀) (fun _ ↦ Tallied true [] c d₀) d :=
  wp_mono (hm A d hd) (fun _ _ h ↦ h.1.weaken) fun _ _ h ↦ h.weaken

namespace Quiet

variable {α β : Type} {m : CardProg α} {f : α → CardProg β} {fid : ℕ}

protected theorem pure (a : α) : Quiet (pure a : CardProg α) :=
  fun _ _ ↦ .pure trivial

protected theorem fail (r : Status) : Quiet (FaultProgram.fail r : CardProg α) :=
  fun _ _ ↦ .fail r

protected theorem getState : Quiet (getState : CardProg CardDevice) :=
  fun _ _ ↦ Keeps.getState.weaken fun _ _ ↦ trivial

protected theorem liftExcept (x : Except Status α) : Quiet (liftExcept x : CardProg α) :=
  fun _ _ ↦ .liftExcept fun _ _ ↦ trivial

protected theorem bind (hm : Quiet m) (hf : ∀ a, Quiet (f a)) : Quiet (m >>= f) :=
  fun I hI ↦ (hm I hI).bind fun a _ ↦ hf a I hI

protected theorem ite {p : Prop} [Decidable p] {m' : CardProg α} (h : p → Quiet m)
    (h' : ¬p → Quiet m') : Quiet (if p then m else m') :=
  fun I hI ↦ .ite (fun hp ↦ h hp I hI) fun hp ↦ h' hp I hI

protected theorem resultOf (hm : Quiet m) : Quiet (resultOf m) :=
  fun I hI ↦ .resultOf (hm I hI)

theorem modifyRam {g : CardRam → CardRam} (hg : ∀ ram, (g ram).history = ram.history) :
    Quiet (modifyRam g) :=
  fun _ hI _ d h ↦ wp_modifyState ⟨hI d _ ⟨rfl, hg d.ram⟩ h, trivial⟩

protected theorem put {err : Status} {file : CardFile} {a : Option Bytes}
    (h : file ≠ .ef efPwPriv) : Quiet (put err file a : CardProg Unit) :=
  fun _ hI ↦ .put (fun _ ↦ hI _ _ ⟨rfl, rfl⟩)
    fun _ ↦ hI _ _ ⟨Device.read_written_of_ne (Ne.symm h), rfl⟩

protected theorem sync {err : Status} (file : CardFile) :
    Quiet (sync err file : CardProg Unit) := by
  intro I hI A d h
  have hsynced : I (d.synced file) := hI d _ ⟨rfl, rfl⟩ h
  have hattempted : I (d.attempted file) := hI d _ ⟨rfl, rfl⟩ h
  exact wp_sync (fun _ ↦ ⟨hsynced, trivial⟩) (fun _ ↦ hattempted) (fun _ ↦ hsynced)
    fun _ ↦ hattempted

theorem filePut (h : fid ≠ efPwPriv) (data : Bytes) : Quiet (filePut fid data) :=
  .put fun he ↦ h (CardFile.ef.inj he)

theorem filePutIgnoring (h : fid ≠ efPwPriv) (data : Bytes) : Quiet (filePutIgnoring fid data) :=
  fun I hI ↦ .onError (Quiet.filePut h data I hI) fun _ ↦ .pure trivial

theorem flashClear (h : fid ≠ efPwPriv) : Quiet (flashClear fid) :=
  .bind .getState fun _ ↦ .ite (fun _ ↦ .put fun he ↦ h (CardFile.ef.inj he)) fun _ ↦ .pure ()

variable (C : CardCrypto)

theorem loadDek : Quiet (loadDek C) := by
  refine .bind .getState fun d ↦ ?_
  rcases d.ram.dekSlot with - | slot
  · exact .fail _
  dsimp only
  rcases openDek C slot (d.ram.session slot) (d.read (.ef slot.file)) (fileData d efDek) with r | dek
  · exact .bind (.ite (fun _ ↦ modifyRam fun _ ↦ rfl) fun _ ↦ .pure ()) fun _ ↦ .fail _
  · exact modifyRam fun _ ↦ rfl

theorem sealDek (session : Bytes) : Quiet (sealDek C session) :=
  .bind .getState fun _ ↦ .bind (modifyRam fun _ ↦ rfl) fun _ ↦ .pure _

variable (slot : DekSlot)

theorem setSession (key : Bytes) : Quiet (Openpgp.modifyRam (·.setSession slot key)) :=
  modifyRam fun _ ↦ by cases slot <;> rfl

theorem pinTxnDelete (fid : ℕ) : Quiet (pinTxnDelete fid) :=
  .bind .getState fun _ ↦ .ite
    (fun _ ↦ .bind (.sync _) fun _ ↦ .bind (.put CardFile.noConfusion) fun _ ↦ .sync _)
    fun _ ↦ .pure ()

theorem pinTxnStage (fid : ℕ) (verifier session : Bytes) :
    Quiet (pinTxnStage C fid verifier session) :=
  .bind (sealDek C session) fun _ ↦ .bind (.sync _) fun _ ↦
    .bind (.put CardFile.noConfusion) fun _ ↦ .sync _

theorem pin_ne : slot.pin ≠ efPwPriv ∧ slot.file ≠ efPwPriv := by
  cases slot <;> decide

theorem storePin (verifier sealed : Bytes) : Quiet (storePin slot verifier sealed) :=
  .bind (filePut (pin_ne slot).1 _) fun _ ↦ .bind (filePut (pin_ne slot).2 _) fun _ ↦
    pinTxnDelete _

theorem pinTxnRecover (slot : DekSlot) (data : Bytes) : Quiet (pinTxnRecover C slot data) := by
  refine .bind .getState fun d ↦ ?_
  rcases d.read (.pinTxn slot.pin) with - | payload
  · exact .pure ()
  refine .ite (fun _ ↦ pinTxnDelete _) fun _ ↦ ?_
  rcases C.decryptWithAad (C.pinDeriveSession data) (ByteBuffer.slice payload 37 dekAadSize) with
    - | dek
  · exact .fail _
  · exact .bind (modifyRam fun _ ↦ rfl) fun _ ↦ .bind (filePut (pin_ne slot).2 _) fun _ ↦
      pinTxnDelete _

theorem clearPinAccessStatus (fid : ℕ) (p2 : UInt8) : Quiet (clearPinAccessStatus fid p2) :=
  modifyRam fun _ ↦ by split_ifs <;> rfl

theorem upgradePin (h : fid ≠ efPwPriv) (data : Bytes) (p2 : UInt8) :
    Quiet (upgradePin C fid data p2) := by
  refine .bind (filePutIgnoring h _) fun _ ↦ ?_
  rcases sessionSlot fid with - | slot
  · exact .pure _
  refine .bind (modifyRam fun _ ↦ ?_) fun _ ↦ .bind (.resultOf (loadDek C)) fun r ↦ ?_
  · cases slot <;> simp only [CardRam.grant, CardRam.setSession]
    split_ifs <;> rfl
  rcases r with - | -
  · exact .pure _
  refine .bind (setSession slot _) fun _ ↦ .bind (sealDek C _) fun _ ↦
    .bind (.resultOf (filePut (pin_ne slot).2 _)) fun r ↦ ?_
  rcases r with - | -
  · exact .pure _
  refine .bind .getState fun d ↦ .bind (.resultOf (filePut (by decide) _)) fun r ↦ ?_
  rcases r with - | - <;> exact .pure _

theorem grantPin (fid : ℕ) (data : Bytes) (p2 : UInt8) : Quiet (grantPin C fid data p2) := by
  refine .bind (modifyRam fun _ ↦ rfl) fun _ ↦ .bind (modifyRam fun _ ↦ ?_) fun _ ↦ ?_
  · simp only [CardRam.grant, CardRam.setSession]
    split_ifs <;> rfl
  refine .bind (.resultOf (.ite (fun _ ↦ pinTxnRecover C _ _) fun _ ↦ .ite
    (fun _ ↦ pinTxnRecover C _ _) fun _ ↦ .ite (fun _ ↦ pinTxnRecover C _ _) fun _ ↦ .pure ()))
    fun r ↦ ?_
  rcases r with - | - <;> exact .pure _

theorem scanFile (h : fid ≠ efPwPriv) (content : Bytes) : Quiet (scanFile fid content) :=
  .bind .getState fun _ ↦ .ite (fun _ ↦ .pure ()) fun _ ↦ filePutIgnoring h _

theorem scanPin (h : fid ≠ efPwPriv) (reset : Bool) (pin : Bytes) :
    Quiet (scanPin C fid reset pin) :=
  .bind .getState fun _ ↦ .ite (fun _ ↦ filePutIgnoring h _) fun _ ↦ .pure ()

theorem scanDek (slot : DekSlot) (pin dek : Bytes) : Quiet (scanDek C slot pin dek) :=
  .bind .getState fun _ ↦ .bind (modifyRam fun _ ↦ by cases slot <;> rfl) fun _ ↦
    filePutIgnoring (pin_ne slot).2 _

end Quiet

/-! ### Writing the record -/

theorem getD_set_retryIndex (hp : HasRetries d p) (v : UInt8) (q : CardPin) :
    ((pwStatus d).set (retryIndex p.fid) v).getD (retryIndex q.fid) 0 =
      if q = p then v else retries d q := by
  rw [getD_eq_getElem?_getD]
  split_ifs with heq
  · rw [heq, getElem?_set_self hp]
    rfl
  · rw [getElem?_set_ne (retryIndex_ne fun h ↦ heq h.symm), ← getD_eq_getElem?_getD]
    rfl

/-- A new record. -/
structure RecordOk (seen : List PinNote) (c : CardCommand) (d₀ d : CardDevice) (content : Bytes) :
    Prop where
  length_le : (pwStatus d₀).length ≤ content.length
  le_nine : content.length ≤ 9
  /-- A counter is as it is or as it was, or one that the command concerns; a larger one is by right. -/
  counter : ∀ p, HasRetries d₀ p →
    content.getD (retryIndex p.fid) 0 = retries d p ∨
      content.getD (retryIndex p.fid) 0 = retries d₀ p ∨
      c.Touches p ∧ (content.getD (retryIndex p.fid) 0 ≤ retries d₀ p ∨
        Rightful seen c d₀ p)

/-- A write of the record that the tally allows. -/
theorem Tallied.write {content : Bytes} (h : Tallied false seen c d₀ d)
    (hcontent : RecordOk seen c d₀ d content) (hstatus : pwStatus d' = content)
    (hhistory : d'.ram.history = d.ram.history) : Tallied false seen c d₀ d' := by
  obtain ⟨new, hnew, hseen, hpaid, hraised⟩ := h.notes
  have hretries : ∀ p, retries d' p = content.getD (retryIndex p.fid) 0 := fun p ↦ by
    rw [retries, hstatus]
  refine ⟨hstatus ▸ hcontent.length_le, hstatus ▸ hcontent.le_nine, fun p hp hne ↦ ?_, new,
    hhistory.trans hnew, hseen, fun note hnote ↦ ?_, fun p hp hlt ↦ ?_⟩
  · rw [hretries] at hne
    rcases hcontent.counter p hp with heq | heq | ⟨htouch, -⟩
    · exact h.others p hp (heq ▸ hne)
    · exact absurd heq hne
    · exact htouch
  · have hnote := hpaid note hnote
    cases note with
    | compared =>
      obtain ⟨p, hfid, hne, hr, hwrong⟩ := hnote
      exact ⟨p, hfid, hne, hr, fun hc ↦ absurd (hwrong hc).1 Bool.false_ne_true⟩
    | entitled => trivial
  · rw [hretries] at hlt
    rcases hcontent.counter p hp with heq | heq | ⟨-, hle | hmay⟩
    · exact hraised p hp (heq ▸ hlt)
    · exact absurd (heq ▸ hlt) (UInt8.lt_irrefl _)
    · exact absurd hlt (UInt8.not_lt.mpr hle)
    · exact hmay new hseen

/-- A record with one counter changed. -/
theorem Tallied.recordOk_set (h : Tallied false seen c d₀ d) (hp : HasRetries d p) {v : UInt8}
    (htouch : c.Touches p) (hv : v ≤ retries d₀ p ∨ Rightful seen c d₀ p) :
    RecordOk seen c d₀ d ((pwStatus d).set (retryIndex p.fid) v) where
  length_le := by
    rw [length_set]
    exact h.length_le
  le_nine := by
    rw [length_set]
    exact h.le_nine
  counter q _ := by
    rw [getD_set_retryIndex hp]
    split_ifs with heq
    · exact .inr (.inr (heq ▸ ⟨htouch, hv⟩))
    · exact .inl rfl

section Keeps

variable {A : Outcome → Prop} {content : Bytes}

theorem wp_filePut_status (h : Tallied false seen c d₀ d) (hcontent : RecordOk seen c d₀ d content) :
    wp A (filePut efPwPriv content) (fun _ d' ↦ Tallied false seen c d₀ d' ∧ True)
      (fun _ ↦ Tallied false seen c d₀) d := by
  have hwritten : Tallied false seen c d₀ (d.written (.ef efPwPriv) (some content)) := by
    refine h.write hcontent ?_ rfl
    rw [pwStatus, fileData, Device.read_written_self, getD_some]
  exact wp_put (fun _ ↦ ⟨hwritten, trivial⟩) (fun _ ↦ h.of_same ⟨rfl, rfl⟩) (fun _ ↦ hwritten)
    fun _ ↦ h.of_same ⟨rfl, rfl⟩

theorem wp_filePutIgnoring_status (h : Tallied false seen c d₀ d)
    (hcontent : RecordOk seen c d₀ d content) :
    wp A (filePutIgnoring efPwPriv content) (fun _ d' ↦ Tallied false seen c d₀ d' ∧ True)
      (fun _ ↦ Tallied false seen c d₀) d := by
  refine wp_onError (wp_mono (wp_filePut_status h hcontent) (fun _ _ h ↦ h) fun e d' h' ↦ ?_)
  rcases e with r | -
  · exact wp_pure ⟨h', trivial⟩
  · exact h'

theorem keeps_pinResetRetries {p : CardPin} (force : Bool) (htouch : c.Touches p)
    (hmay : Rightful seen c d₀ p) :
    Preserves (Tallied false seen c d₀) (pinResetRetries p.fid force) := by
  intro A d h
  have htake : (fileData d efPwPriv).take 64 = pwStatus d :=
    take_of_length_le (h.le_nine.trans (by decide))
  refine wp_get ?_
  rw [htake]
  refine wp_refuse h fun hsize ↦ wp_refuse h fun _ ↦ ?_
  have hp : HasRetries d p := Nat.lt_of_not_le fun hle ↦ hsize (.inl hle)
  exact wp_filePut_status h (h.recordOk_set hp htouch (.inr hmay))

theorem keeps_setResetCodeRetries (htouch : c.Touches .rc) :
    Preserves (Tallied false seen c d₀) (setResetCodeRetries 0) := by
  intro A d h
  refine wp_get (wp_refuse h fun _ ↦ wp_refuse h fun hsize ↦ wp_return ⟨h, trivial⟩ fun _ ↦ ?_)
  have hp : HasRetries d .rc := Nat.lt_of_not_le fun hle ↦ hsize (.inl hle)
  exact wp_filePut_status h (h.recordOk_set hp htouch (.inl (UInt8.zero_le)))

theorem length_restoredStatus (status : Bytes) : (restoredStatus status).length = status.length := by
  simp only [restoredStatus, length_append, length_take, length_map, length_drop]
  omega

theorem getD_restoredStatus (status : Bytes) {i : ℕ} (hi : 4 ≤ i) :
    (restoredStatus status).getD i 0 = status.getD i 0 := by
  rw [getD_eq_getElem?_getD, getD_eq_getElem?_getD]
  rcases lt_or_ge status.length 4 with hlt | hge
  · rw [getElem?_eq_none (by rw [length_restoredStatus]; omega), getElem?_eq_none (by omega)]
  · have hlen : (status.take 1 ++ ((status.drop 1).take 3).map fun _ ↦ (127 : UInt8)).length = 4 := by
      simp only [length_append, length_take, length_map, length_drop]
      omega
    rw [restoredStatus, getElem?_append_right (by omega), hlen, getElem?_drop]
    congr 2
    omega

theorem keeps_restorePwStatusLimits :
    Preserves (Tallied false seen c d₀) restorePwStatusLimits := by
  intro A d h
  refine wp_get (wp_ite (fun _ ↦ ?_) fun _ ↦ wp_pure ⟨h, trivial⟩)
  refine wp_filePutIgnoring_status h ⟨?_, ?_, fun p _ ↦ .inl ?_⟩
  · rw [length_restoredStatus]
    exact h.length_le
  · rw [length_restoredStatus]
    exact h.le_nine
  · exact getD_restoredStatus _ (retryIndex_pos p)

/-- A record for a card without one. -/
theorem Tallied.recordOk_of_empty (h : Tallied false seen c d₀ d) (hempty : pwStatus d = [])
    (hle : content.length ≤ 9) : RecordOk seen c d₀ d content where
  length_le := by
    have hlen := h.length_le
    rw [hempty, length_nil] at hlen
    omega
  le_nine := hle
  counter p hp := by
    have hlen := h.length_le
    rw [hempty, length_nil] at hlen
    rw [HasRetries] at hp
    omega

theorem keeps_scanFile_status (hle : content.length ≤ 9) :
    Preserves (Tallied false seen c d₀) (scanFile efPwPriv content) := by
  intro A d h
  refine wp_get (wp_return ⟨h, trivial⟩ fun hnone ↦ ?_)
  have hempty : pwStatus d = [] := by
    rw [pwStatus, fileData, not_isSome_iff_eq_none.mp hnone, getD_none]
  exact wp_filePutIgnoring_status h (h.recordOk_of_empty hempty hle)

theorem keeps_resetCodeDeactivate (htouch : c.Touches .rc) :
    Preserves (Tallied false seen c d₀) resetCodeDeactivate := by
  refine Quiet.then (.resultOf (.pinTxnDelete _)) fun deleted ↦
    Quiet.then .getState fun d ↦ ?_
  refine Quiet.then (.ite (fun _ ↦ .resultOf (.flashClear (by decide))) fun _ ↦ .pure _)
    fun cleared ↦ ?_
  refine .bind (.resultOf (Quiet.then (.liftExcept cleared) fun _ ↦ Quiet.then (.ite (fun _ ↦
    .flashClear (by decide)) fun _ ↦ .pure ()) fun _ ↦
      keeps_setResetCodeRetries htouch)) fun result _ ↦ ?_
  exact Quiet.then (.modifyRam fun _ ↦ rfl) fun _ ↦ Quiet.tallied (.liftExcept result)

variable (C : CardCrypto)

/-- The start-up of the applet touches the counter of the resetting code only. -/
theorem keeps_scanFilesOpenpgp (htouch : c.Touches .rc) :
    Preserves (Tallied false seen c d₀) (scanFilesOpenpgp C) := by
  refine Quiet.then .getState fun d ↦ Quiet.then (.ite (fun _ ↦ ?_) fun _ ↦ .pure ()) fun _ ↦ ?_
  · exact .bind (.modifyRam fun _ ↦ rfl) fun _ ↦ .bind (.scanDek C _ _ _) fun _ ↦ .scanDek C _ _ _
  refine Quiet.then (.scanPin C (by decide) _ _) fun _ ↦ ?_
  refine Quiet.then (.scanPin C (by decide) _ _) fun _ ↦ ?_
  refine Quiet.then (.scanFile (by decide) _) fun _ ↦ ?_
  refine .bind (keeps_scanFile_status (by decide)) fun _ _ ↦ ?_
  refine .bind keeps_restorePwStatusLimits fun _ _ ↦ Quiet.then .getState fun d ↦ ?_
  refine .bind (R := fun _ ↦ True) (.ite (fun _ ↦ .bind (.resultOf
    (keeps_resetCodeDeactivate htouch)) fun _ _ ↦ .pure trivial) fun _ ↦ .pure trivial) fun _ _ ↦ ?_
  refine Quiet.then (.scanFile (by decide) _) fun _ ↦ ?_
  refine Quiet.then (.scanFile (by decide) _) fun _ ↦ ?_
  refine Quiet.then (.scanFile (by decide) _) fun _ ↦ ?_
  refine Quiet.then (.scanFile (by decide) _) fun _ ↦ ?_
  refine Quiet.then (.scanFile (by decide) _) fun _ ↦ ?_
  exact Quiet.tallied (.scanFile (by decide) _)

/-- A longer record. -/
theorem Tallied.recordOk_append (h : Tallied false seen c d₀ d) {more : Bytes}
    (hle : (pwStatus d ++ more).length ≤ 9) : RecordOk seen c d₀ d (pwStatus d ++ more) where
  length_le := by
    rw [length_append]
    exact h.length_le.trans (Nat.le_add_right ..)
  le_nine := hle
  counter p hp := by
    have hlt : retryIndex p.fid < (pwStatus d).length := lt_of_lt_of_le hp h.length_le
    rw [getD_eq_getElem?_getD, getElem?_append_left hlt, ← getD_eq_getElem?_getD]
    exact .inl rfl

theorem keeps_scanFilesPiv :
    Preserves (Tallied false seen c d₀) (scanFilesPiv C) := by
  intro A d h
  refine wp_get (wp_bind (wp_mono (Q := fun _ d' ↦ Tallied false seen c d₀ d' ∧ True)
    (wp_ite (fun hempty ↦ ?_) fun _ ↦ wp_ite (fun hold ↦ ?_) fun _ ↦ wp_pure ⟨h, trivial⟩)
    (fun _ d' h' ↦ ?_) fun _ _ h ↦ h))
  · exact wp_filePutIgnoring_status h
      (h.recordOk_of_empty (length_eq_zero_iff.mp hempty) (by decide))
  · refine wp_filePutIgnoring_status h (h.recordOk_append ?_)
    rw [length_append, show (pwStatus d).length = 7 from hold]
    decide
  · refine wp_get (Quiet.tallied ?_ A d' h'.1)
    refine .bind (.ite (fun _ ↦ .filePutIgnoring (by decide) _) fun _ ↦ .ite
      (fun _ ↦ .filePutIgnoring (by decide) _) fun _ ↦ .pure ()) fun _ ↦ .bind .getState fun d ↦ ?_
    refine .bind (.ite (fun _ ↦ .bind (.modifyRam fun _ ↦ rfl) fun _ ↦ .scanDek C _ _ _)
      fun _ ↦ .pure ()) fun _ ↦ ?_
    exact .bind (.scanPin C (by decide) _ _) fun _ ↦ .scanPin C (by decide) _ _

theorem keeps_initPiv : Preserves (Tallied false seen c d₀) (initPiv C) :=
  .bind (keeps_scanFilesPiv C) fun _ _ ↦ Quiet.tallied (.modifyRam fun _ ↦ rfl)

/-- A note that a command may reset a counter. -/
theorem keeps_notePin_entitled (fid : ℕ) :
    Preserves (Tallied false seen c d₀) (notePin (.entitled fid)) := by
  intro A d h
  have hnoted : Tallied false seen c d₀ (d.setRam fun ram ↦
      { ram with history := .entitled fid :: ram.history }) := ?_
  · exact wp_modifyState (Q := fun _ d' ↦ Tallied false seen c d₀ d' ∧ True) ⟨hnoted, trivial⟩
  obtain ⟨new, hnew, hseen, hpaid, hraised⟩ := h.notes
  refine ⟨h.length_le, h.le_nine, h.others, .entitled fid :: new, congrArg _ hnew,
    fun note hnote ↦ mem_cons_of_mem _ (hseen note hnote), fun note hnote ↦ ?_,
    fun p hp hlt ↦ (hraised p hp hlt).mono fun _ ↦ mem_cons_of_mem _⟩
  rcases mem_cons.mp hnote with rfl | hnote
  · trivial
  · exact hpaid note hnote

theorem keeps_kdfReseedPin {slot : DekSlot} {p : CardPin} (hpin : slot.pin = p.fid) (value : Bytes)
    (htouch : c.Touches p) (hmay : Rightful seen c d₀ p) :
    Preserves (Tallied false seen c d₀) (kdfReseedPin C slot value) := by
  refine Quiet.then (.sealDek C _) fun _ ↦
    Quiet.then (.pinTxnStage C _ _ _) fun _ ↦
      Quiet.then (.storePin slot _ _) fun _ ↦ .bind (keeps_notePin_entitled _) fun _ _ ↦ ?_
  rw [hpin]
  exact keeps_pinResetRetries true htouch hmay

variable {saved : ℕ × Option Bytes}

/-- The record goes back to what it was. -/
theorem keeps_kdfRestoreFile (hle : (pwStatus d₀).length ≤ 9)
    (hsaved : saved.1 = efPwPriv → saved.2.getD [] = pwStatus d₀) :
    Preserves (Tallied false seen c d₀) (kdfRestoreFile saved) := by
  obtain ⟨fid, data⟩ := saved
  by_cases hfid : fid = efPwPriv
  · subst hfid
    have hdata := hsaved rfl
    intro A d h
    have hrecord : RecordOk seen c d₀ d (pwStatus d₀) := ⟨le_rfl, hle, fun _ _ ↦ .inr (.inl rfl)⟩
    rcases data with - | content
    · have hcleared : Tallied false seen c d₀ (d.written (.ef efPwPriv) none) := by
        refine h.write hrecord ?_ rfl
        rw [pwStatus, fileData, Device.read_written_self, ← hdata]
      exact wp_get (wp_ite (fun _ ↦ wp_put (fun _ ↦ ⟨hcleared, trivial⟩)
        (fun _ ↦ h.of_same ⟨rfl, rfl⟩) (fun _ ↦ hcleared) fun _ ↦ h.of_same ⟨rfl, rfl⟩)
        fun _ ↦ wp_pure ⟨h, trivial⟩)
    · obtain rfl : content = pwStatus d₀ := hdata
      exact wp_filePut_status h hrecord
  · rcases data with - | content
    · exact Quiet.tallied (.flashClear hfid)
    · exact Quiet.tallied (.filePut hfid content)

theorem keeps_kdfRestore {snapshot : List (ℕ × Option Bytes)} (hle : (pwStatus d₀).length ≤ 9)
    (hsaved : ∀ saved ∈ snapshot, saved.1 = efPwPriv → saved.2.getD [] = pwStatus d₀) :
    Preserves (Tallied false seen c d₀) (kdfRestore snapshot) := by
  induction snapshot with
  | nil => exact .pure trivial
  | cons saved snapshot ih =>
    exact .bind (keeps_kdfRestoreFile hle (hsaved saved (mem_cons_self ..))) fun _ _ ↦
      ih fun s hs ↦ hsaved s (mem_cons_of_mem _ hs)

theorem kdfSnapshot_status (h : saved ∈ kdfSnapshot d) (hfid : saved.1 = efPwPriv) :
    saved.2.getD [] = pwStatus d := by
  obtain ⟨fid, -, rfl⟩ := mem_map.mp h
  obtain rfl : fid = efPwPriv := hfid
  split_ifs with hdata
  · rfl
  · rw [pwStatus, fileData]
    rw [hasData] at hdata
    rcases hread : d.read (.ef efPwPriv) with - | (- | ⟨b, bs⟩)
    · rfl
    · rfl
    · rw [hread] at hdata
      exact absurd rfl hdata

end Keeps

/-! ### A comparison -/

theorem wp_modifyRam {g : CardRam → CardRam} (h : Q () (d.setRam g)) : wp A (modifyRam g) Q E d :=
  wp_modifyState h

theorem wp_notePin {note : PinNote}
    (h : Q () (d.setRam fun ram ↦ { ram with history := note :: ram.history })) :
    wp A (notePin note) Q E d :=
  wp_modifyRam h

/-- A counter was decremented. -/
structure Spent (fid : ℕ) (d d' : CardDevice) (r : UInt8) : Prop where
  index : retryIndex fid < (pwStatus d).length
  ne_zero : (pwStatus d).getD (retryIndex fid) 0 ≠ 0
  remaining : r = (pwStatus d).getD (retryIndex fid) 0 - 1
  status : pwStatus d' = (pwStatus d).set (retryIndex fid) r
  history : d'.ram.history = d.ram.history

/-- A try is taken off before anything else, or nothing happens. -/
theorem wp_pinSpendRetry (fid : ℕ) :
    wp A (pinSpendRetry fid) (fun r d' ↦ Spent fid d d' r)
      (fun _ d' ↦ SameTally d d' ∨ ∃ r, Spent fid d d' r) d := by
  refine wp_get (wp_refuse (.inl ⟨rfl, rfl⟩) fun _ ↦ wp_refuse (.inl ⟨rfl, rfl⟩) fun hsize ↦
    wp_refuse (.inl ⟨rfl, rfl⟩) fun hne ↦ ?_)
  have hspent : Spent fid d
      (d.written (.ef efPwPriv) (some ((pwStatus d).set (retryIndex fid)
        ((pwStatus d).getD (retryIndex fid) 0 - 1)))) ((pwStatus d).getD (retryIndex fid) 0 - 1) := by
    refine ⟨Nat.lt_of_not_le fun hle ↦ hsize (.inr hle), hne, rfl, ?_, rfl⟩
    rw [pwStatus, fileData, Device.read_written_self, getD_some]
  exact wp_bind (wp_put (fun _ ↦ wp_pure hspent) (fun _ ↦ .inl ⟨rfl, rfl⟩)
    (fun _ ↦ .inr ⟨_, hspent⟩) fun _ ↦ .inl ⟨rfl, rfl⟩)

theorem sub_one_le {r : UInt8} (h : r ≠ 0) : r - 1 ≤ r := by
  have hpos : 1 ≤ r := UInt8.le_iff_toNat_le.mpr (pos_of_ne_zero fun hzero ↦
    h (UInt8.toNat_inj.mp hzero))
  rw [UInt8.le_iff_toNat_le, UInt8.toNat_sub_of_le _ _ hpos]
  exact sub_le ..

section Check

variable {p : CardPin} {r : UInt8}

theorem Spent.tallied (h : Spent p.fid d d' r) (hsame : SameTally d₀ d)
    (hle : (pwStatus d₀).length ≤ 9) (htouch : c.Touches p) : Tallied false [] c d₀ d' := by
  have hstart : Tallied false [] c d₀ d := (Tallied.refl false c hle).of_same hsame
  refine hstart.write (h.status ▸ hstart.recordOk_set h.index htouch (.inl ?_)) rfl h.history
  rw [h.remaining, ← hsame.retries_eq p]
  exact sub_one_le h.ne_zero

/-- The value has been compared. -/
theorem Spent.compared (h : Spent p.fid d d' r) (hsame : SameTally d₀ d)
    (hle : (pwStatus d₀).length ≤ 9) (htouch : c.Touches p) (correct : Bool) :
    Tallied (!correct) [.compared p.fid r correct] c d₀
      (d'.setRam fun ram ↦ { ram with history := .compared p.fid r correct :: ram.history }) := by
  have htallied := h.tallied hsame hle htouch
  have hretries : ∀ q, retries d' q = if q = p then r else retries d q := fun q ↦ by
    rw [retries, h.status]
    exact getD_set_retryIndex h.index r q
  have hspent : retries d p = retries d₀ p := hsame.retries_eq p
  have hlower : ∀ q, retries d' q ≤ retries d₀ q := fun q ↦ by
    rw [hretries]
    split_ifs with hq
    · rw [hq, h.remaining, ← hspent]
      exact sub_one_le h.ne_zero
    · exact (hsame.retries_eq q) ▸ UInt8.le_refl _
  refine ⟨htallied.length_le, htallied.le_nine, htallied.others, [.compared p.fid r correct],
    congrArg _ (h.history.trans hsame.history), fun _ hnote ↦ hnote, fun note hnote ↦ ?_,
    fun q _ hlt ↦ absurd hlt (UInt8.not_lt.mpr (hlower q))⟩
  obtain rfl := mem_singleton.mp hnote
  refine ⟨p, rfl, hspent ▸ h.ne_zero, hspent ▸ h.remaining, fun hc ↦ ⟨by rw [hc]; rfl, ?_⟩⟩
  exact (hretries p).trans (if_pos rfl)

/-- What has become of a submission. -/
def Checked (c : CardCommand) (d₀ : CardDevice) (fid : ℕ) (sw : UInt16) (d' : CardDevice) : Prop :=
  Tallied true [] c d₀ d' ∧
    (sw = swOk → ∃ p r, fid = CardPin.fid p ∧ Tallied false [.compared p.fid r true] c d₀ d')

variable {fid : ℕ} {sw : UInt16}

theorem Checked.refused (h : Tallied true [] c d₀ d') (hsw : sw ≠ swOk) : Checked c d₀ fid sw d' :=
  ⟨h, fun he ↦ absurd he hsw⟩

theorem Checked.of_same {d'' : CardDevice} (h : Checked c d₀ fid sw d') (hsame : SameTally d' d'') :
    Checked c d₀ fid sw d'' :=
  ⟨h.1.of_same hsame, fun hsw ↦ (h.2 hsw).imp fun _ h ↦ h.imp fun _ h ↦ ⟨h.1, h.2.of_same hsame⟩⟩

theorem swRetries_ne_swOk (r : UInt8) : swRetries r ≠ swOk := by
  revert r
  decide +kernel

/-- A submission of a PIN that the command concerns, or of a file that has no counter. -/
def Concerns (c : CardCommand) (fid : ℕ) : Prop :=
  (∃ p : CardPin, fid = p.fid ∧ c.Touches p) ∨ 9 ≤ retryIndex fid

/-- A comparison: what it costs, and what a right value gives back. -/
theorem wp_pinCheckVerifier {A : Outcome → Prop} (C : CardCrypto) (hfid : Concerns c fid)
    (hsame : SameTally d₀ d) (hle : (pwStatus d₀).length ≤ 9) (data : Bytes) (offset : ℕ) :
    wp A (pinCheckVerifier C fid data offset) (fun x d' ↦ Checked c d₀ fid x.1 d')
      (fun _ ↦ Tallied true [] c d₀) d := by
  have hstart : Tallied true [] c d₀ d := (Tallied.refl true c hle).of_same hsame
  refine wp_get (wp_return (.refused hstart (by decide)) fun _ ↦ wp_return (.refused hstart
    (by decide)) fun _ ↦ wp_bind (wp_resultOf
      (wp_mono (wp_pinSpendRetry fid) (fun r d' hspent ↦ ?_) fun e d' hrefused ↦ ?_)))
  · obtain ⟨p, rfl, htouch⟩ | hnine := hfid
    · dsimp only
      have hcompared := hspent.compared hsame hle htouch
      refine wp_bind (wp_notePin (wp_ite (fun hcorrect ↦ ?_) fun hwrong ↦ ?_))
      · have hmay : ∀ new, (∀ note ∈ [PinNote.compared p.fid r true], note ∈ new) →
            c.MayRaise d₀ new p := fun new hnew ↦ .inl ⟨r, hnew _ (mem_cons_self ..)⟩
        rw [hcorrect]
        refine wp_seq ((keeps_pinResetRetries true htouch hmay).resultOf A _
          (hcompared true)) (fun result d'' h ↦ ?_) fun _ _ h ↦ h.weaken
        rcases result with e | u
        · exact wp_pure (.refused h.1.weaken (by decide))
        · exact wp_pure ⟨h.1.weaken, fun _ ↦ ⟨p, r, rfl, h.1⟩⟩
      · rw [Bool.eq_false_iff.mpr hwrong]
        have hrefused := (hcompared false).weaken
        exact wp_return (.refused hrefused (by decide))
          fun _ ↦ wp_pure (.refused hrefused (swRetries_ne_swOk _))
    · -- no such counter is in the record
      have hindex := hspent.index
      rw [hsame.pwStatus_eq] at hindex
      omega
  · have hrefused : Tallied true [] c d₀ d' := by
      rcases hrefused with hno | ⟨r, hspent⟩
      · exact hstart.of_same hno
      · obtain ⟨p, rfl, htouch⟩ | hnine := hfid
        · exact (hspent.tallied hsame hle htouch).weaken
        · have hindex := hspent.index
          rw [hsame.pwStatus_eq] at hindex
          omega
    rcases e with r | -
    · cases r <;> exact wp_pure (.refused hrefused (by decide))
    · exact hrefused

theorem Checked.weaken (h : Checked c d₀ fid swOk d') : Checked c d₀ fid sw d' :=
  ⟨h.1, fun _ ↦ h.2 rfl⟩

/-- A PIN that is checked is counted as in the comparison. -/
theorem wp_checkPin {A : Outcome → Prop} (C : CardCrypto) (hfid : Concerns c fid)
    (hne : fid ≠ efPwPriv) (hsame : SameTally d₀ d) (hle : (pwStatus d₀).length ≤ 9) (data : Bytes)
    (p2 : UInt8) :
    wp A (checkPin C fid data p2) (fun sw d' ↦ Checked c d₀ fid sw d')
      (fun _ ↦ Tallied true [] c d₀) d := by
  have hstart : Tallied true [] c d₀ d := (Tallied.refl true c hle).of_same hsame
  have hbegun : SameTally d₀ (d.setRam fun ram ↦ { ram with isUserAuthenticated := false }) :=
    ⟨hsame.status, hsame.history⟩
  have hclear : ∀ mismatch : Bool,
      Quiet (if mismatch then clearPinAccessStatus fid p2 else pure () : CardProg Unit) :=
    fun _ ↦ .ite (fun _ ↦ .clearPinAccessStatus fid p2) fun _ ↦ .pure ()
  refine wp_get (wp_return (.refused hstart (by decide)) fun _ ↦ wp_return (.refused hstart
    (by decide)) fun _ ↦ wp_bind (wp_modifyRam (wp_bind
      (wp_mono (wp_pinCheckVerifier C hfid hbegun hle data _) (fun x d' hx ↦ ?_) fun _ _ h ↦ h))))
  obtain ⟨sw, mismatch⟩ := x
  have hchecked : OfTally (Checked c d₀ fid sw) := fun _ _ hsame h ↦ h.of_same hsame
  refine wp_seq (hclear mismatch _ hchecked A d' hx) (fun _ d'' h ↦ ?_) fun _ _ h ↦ h.1
  refine wp_return h.1 fun hok ↦ ?_
  have hsw : sw = swOk := not_not.mp hok
  have hsw' : Checked c d₀ fid swOk d'' := hsw ▸ h.1
  refine wp_mono (Quiet.apply ?_ (fun _ _ hsame (h : Checked c d₀ fid swOk _) ↦ h.of_same hsame)
    hsw') (fun _ _ h ↦ h.1.weaken) fun _ _ h ↦ h.1
  refine .bind (.ite (fun _ ↦ .upgradePin C hne data p2) fun _ ↦ .pure _) fun sw ↦ ?_
  rcases sw with - | sw
  · exact .grantPin C fid data p2
  · exact .pure sw

end Check

/-! ### The commands -/

section Commands

variable {A : Outcome → Prop} (C : CardCrypto)

/-- A new PW1 gets its tries. -/
theorem keeps_resetPw1 (newPin : Bytes) (htouch : c.Touches .pw1) (hmay : Rightful seen c d₀ .pw1) :
    Preserves (Tallied false seen c d₀) (resetPw1 C newPin) := by
  refine Quiet.then (.resultOf (.loadDek C)) fun r ↦ ?_
  rcases r with - | -
  · exact .pure trivial
  refine Quiet.then (.setSession .pw1 _) fun _ ↦
    Quiet.then (.sealDek C _) fun sealed ↦ ?_
  refine .bind (.resultOf (Quiet.then (.pinTxnStage C _ _ _) fun _ ↦
    Quiet.then (.storePin .pw1 _ _) fun _ ↦ .bind (keeps_notePin_entitled _) fun _ _ ↦
      keeps_pinResetRetries (p := .pw1) true htouch hmay)) fun r _ ↦ ?_
  rcases r with - | -
  · exact .pure trivial
  refine Quiet.then (.resultOf (.loadDek C)) fun r ↦ ?_
  rcases r with - | - <;> exact .pure trivial

theorem quiet_changePin (slot : DekSlot) (newPin : Bytes) : Quiet (changePin C slot newPin) := by
  refine .bind (.resultOf (.loadDek C)) fun r ↦ ?_
  rcases r with - | -
  · exact .pure _
  refine .ite (fun _ ↦ .pure _) fun _ ↦ .bind (.setSession slot _) fun _ ↦
    .bind (.sealDek C _) fun sealed ↦ .bind (.resultOf (.pinTxnStage C _ _ _)) fun r ↦ ?_
  rcases r with - | -
  · exact .pure _
  refine .bind (.resultOf (.storePin slot _ _)) fun r ↦ ?_
  rcases r with - | - <;> exact .pure _

variable {p2 : UInt8}

theorem verifyFid_cases (hp2 : p2 &&& 0x60 = 0) (hfound : fileSearchByFid (verifyFid p2) ≠ none) :
    verifyFid p2 = efPw1 ∨ verifyFid p2 = efPw3 ∨ 9 ≤ retryIndex (verifyFid p2) := by
  revert p2
  decide +kernel

theorem verifyFid_ne (hp2 : p2 &&& 0x60 = 0) : verifyFid p2 ≠ efPwPriv := by
  revert p2
  decide +kernel

/-- VERIFY: one comparison at most. -/
theorem wp_cmdVerify (p1 p2 : UInt8) (data : Bytes) (hle : (pwStatus d).length ≤ 9) :
    Tallies A (.verify p1 p2 data) d (cmdVerify C p1 p2 data) := by
  have hrefl : Tallied true [] (.verify p1 p2 data) d d := .refl _ _ hle
  refine wp_get (wp_ite (fun _ ↦ ?_) fun _ ↦ wp_return hrefl fun hp ↦
    wp_return hrefl fun hfid ↦ wp_ite (fun _ ↦ ?_) fun _ ↦ wp_return hrefl fun _ ↦ wp_pure hrefl)
  · refine wp_return hrefl fun _ ↦ ?_
    rcases hram : d.ram.forgetPin p2 with - | ram
    · exact wp_pure hrefl
    · have hhistory : ram.history = d.ram.history := by
        unfold CardRam.forgetPin at hram
        split_ifs at hram <;> cases hram <;> rfl
      exact wp_bind (wp_modifyRam (wp_pure (hrefl.of_same ⟨rfl, hhistory⟩)))
  · have hp2 : p2 &&& 0x60 = 0 := not_not.mp fun h ↦ hp (.inr h)
    have hconcerns : Concerns (.verify p1 p2 data) (verifyFid p2) := by
      rcases verifyFid_cases hp2 (fun h ↦ hfid (.inl h)) with h | h | h
      · exact .inl ⟨.pw1, h, h.symm⟩
      · exact .inl ⟨.pw3, h, h.symm⟩
      · exact .inr h
    exact wp_mono (wp_checkPin C hconcerns (verifyFid_ne hp2) ⟨rfl, rfl⟩ hle data p2)
      (fun _ _ h ↦ h.1) fun _ _ h ↦ h

theorem changePinSlot_pin {slot : DekSlot} (h : changePinSlot p2 = some slot) :
    ∃ p : CardPin, slot.pin = p.fid := by
  unfold changePinSlot at h
  split_ifs at h <;> cases h
  · exact ⟨.pw1, rfl⟩
  · exact ⟨.pw3, rfl⟩

/-- CHANGE PIN: one comparison, of the old PIN. -/
theorem wp_cmdChangePin (p1 p2 : UInt8) (data : Bytes) (hle : (pwStatus d).length ≤ 9) :
    Tallies A (.changePin p1 p2 data) d (cmdChangePin C p1 p2 data) := by
  have hrefl : Tallied true [] (.changePin p1 p2 data) d d := .refl _ _ hle
  refine wp_get (wp_return hrefl fun _ ↦ ?_)
  rcases hslot : changePinSlot p2 with - | slot
  · exact wp_pure hrefl
  obtain ⟨p, hp⟩ := changePinSlot_pin hslot
  have hconcerns : Concerns (.changePin p1 p2 data) slot.pin :=
    .inl ⟨p, hp, by rw [Touches, hslot, ← hp]; rfl⟩
  refine wp_return hrefl fun _ ↦ wp_bind (wp_mono
    (wp_checkPin C hconcerns (Quiet.pin_ne slot).1 ⟨rfl, rfl⟩ hle _ p2) (fun sw d' h ↦ ?_)
    fun _ _ h ↦ h)
  refine wp_return h.1 fun _ ↦ ?_
  exact wp_mono ((quiet_changePin C slot _).tallied A d' h.1) (fun _ _ h ↦ h.1) fun _ _ h ↦ h

/-- RESET RETRY: the resetting code is counted, or PW3 has been given. -/
theorem wp_cmdResetRetry (p1 p2 : UInt8) (data : Bytes) (hle : (pwStatus d).length ≤ 9) :
    Tallies A (.resetRetry p1 p2 data) d (cmdResetRetry C p1 p2 data) := by
  have hrefl : Tallied true [] (.resetRetry p1 p2 data) d d := .refl _ _ hle
  have hforgot : SameTally d (d.setRam fun ram ↦ { ram with hasPw1 := false }) := ⟨rfl, rfl⟩
  have htouch : Touches (.resetRetry p1 p2 data) .pw1 := Or.inl rfl
  refine wp_return hrefl fun _ ↦ wp_ite (fun hp1 ↦ ?_) fun _ ↦ wp_ite (fun hp1 ↦ ?_)
    fun _ ↦ wp_pure hrefl
  · -- under the resetting code
    have hconcerns : Concerns (.resetRetry p1 p2 data) efRc := .inl ⟨.rc, rfl, .inr ⟨hp1, rfl⟩⟩
    refine wp_bind (wp_modifyRam (wp_get (wp_return (hrefl.of_same hforgot) fun _ ↦ wp_return
      (hrefl.of_same hforgot) fun _ ↦ wp_bind (wp_mono
        (wp_checkPin C hconcerns (by decide) hforgot hle _ p2) (fun sw d' h ↦ ?_) fun _ _ h ↦ h))))
    refine wp_return h.1 fun hok ↦ wp_return h.1 fun _ ↦ ?_
    obtain ⟨p, r, hfid, hright⟩ := h.2 (not_not.mp hok)
    have hmay : ∀ new, (∀ note ∈ [PinNote.compared p.fid r true], note ∈ new) →
        MayRaise (.resetRetry p1 p2 data) d new .pw1 :=
      fun new hnew ↦ .inr ⟨rfl, .inl ⟨hp1, r, by
        rw [show CardPin.rc.fid = p.fid from hfid]
        exact hnew _ (mem_cons_self ..)⟩⟩
    exact wp_bind (wp_modifyRam (wp_mono (keeps_resetPw1 C _ htouch hmay A _
      (hright.of_same ⟨rfl, rfl⟩)) (fun _ _ h ↦ h.1.weaken) fun _ _ h ↦ h.weaken))
  · -- under PW3
    refine wp_bind (wp_modifyRam (wp_get (wp_return (hrefl.of_same hforgot) fun hpw3 ↦ wp_return
      (hrefl.of_same hforgot) fun _ ↦ ?_)))
    have hmay : ∀ new, (∀ note ∈ ([] : List PinNote), note ∈ new) →
        MayRaise (.resetRetry p1 p2 data) d new .pw1 :=
      fun new _ ↦ .inr ⟨rfl, .inr ⟨hp1, Bool.eq_true_of_not_eq_false hpw3⟩⟩
    have hstart : Tallied false [] (.resetRetry p1 p2 data) d
        (d.setRam fun ram ↦ { ram with hasPw1 := false }) :=
      (Tallied.refl false _ hle).of_same hforgot
    exact wp_mono (keeps_resetPw1 C data htouch hmay A _ hstart) (fun _ _ h ↦ h.1.weaken)
      fun _ _ h ↦ h.weaken

/-! ### PUT DATA -/

/-- A PUT DATA keeps the counters in the record: it does not write the record under its own id, and it
does not write the status of the passwords while there are more counters than those of OpenPGP. -/
def CardCommand.KeepsRecord (config : CardConfig) (d : CardDevice) : CardCommand → Prop
  | putData requested data => ∀ ef, putDataPlan config d requested data = .ok (.file ef) →
    ef.fid = efPwPriv → requested = efPwStatus ∧ (pwStatus d).length ≤ 7
  | _ => True

/-- What stands behind a resetting code that is written. -/
theorem Planned.putDataFid_eq {config : CardConfig} {requested : ℕ} {data : Bytes} {ef : OpenpgpEf}
    (hplan : putDataPlan config d requested data = .ok (.file ef)) (hrc : ef.fid = efRc) :
    putDataFid requested = efRc := by
  have h := planned hplan
  have hmem := h.mem_valueFiles
  have hkdf : requested ≠ efKdf := by
    rintro rfl
    obtain ⟨-, entry, -, -, htarget⟩ := h
    rw [putDataTarget, if_pos rfl] at htarget
    split_ifs at htarget
    cases htarget
  rw [hrc, valueFiles, if_neg hkdf] at hmem
  split_ifs at hmem with hreset hstatus hcert
  · rw [putDataFid, if_pos hreset]
  · cases mem_singleton.mp hmem
  · have hfid := CardFile.ef.inj (mem_singleton.mp hmem)
    rcases hcur : d.ram.selectedCert with - | cur <;> rw [hcur] at hfid
    · cases hfid
    · have hcur := selectedCert_fid hcur
      rw [show cur.fid = efRc from hfid.symm] at hcur
      exact absurd hcur (by decide)
  · exact (CardFile.ef.inj (mem_singleton.mp hmem)).symm

theorem hasPw3_of_authorized {ram : CardRam} {requested : ℕ}
    (h : putDataAuthorized ram requested = true)
    (hid : requested ≠ efPrivDo1 ∧ requested ≠ efPrivDo3) : ram.hasPw3 = true := by
  rw [putDataAuthorized, if_neg (by simp [hid])] at h
  exact h

theorem keeps_writeStatus {m : CardProg Unit} (h : Preserves (Tallied false seen c d₀) m) :
    Preserves (Tallied false seen c d₀) (writeStatus m) := by
  refine .bind (.resultOf h) fun r _ ↦ ?_
  rcases r with - | - <;> exact .pure trivial

/-- So does a new resetting code. -/
theorem keeps_putResetCode (data : Bytes) (htouch : c.Touches .rc) (hmay : Rightful seen c d₀ .rc) :
    Preserves (Tallied false seen c d₀) (putResetCode C data) := by
  refine .ite (fun _ ↦ .pure trivial) fun _ ↦ Quiet.then (.modifyRam fun _ ↦ rfl) fun _ ↦
    Quiet.then (.resultOf (.loadDek C)) fun r ↦ ?_
  rcases r with - | -
  · exact .pure trivial
  refine Quiet.then (.setSession .rc _) fun _ ↦
    Quiet.then (.sealDek C _) fun sealed ↦
    Quiet.then (.resultOf (.pinTxnStage C _ _ _)) fun r ↦ ?_
  rcases r with - | -
  · exact .pure trivial
  refine .bind (.resultOf (Quiet.then (.storePin .rc _ _) fun _ ↦
    .bind (keeps_notePin_entitled _) fun _ _ ↦
      keeps_pinResetRetries (p := .rc) true htouch hmay)) fun r _ ↦ ?_
  rcases r with - | - <;> exact .pure trivial

/-- The update of the key derivation object, whether it is rolled back or not. -/
theorem wp_openpgpKdfUpdate_tallied (data : Bytes) (hle : (pwStatus d).length ≤ 9) :
    Tallies A (.putData efKdf data) d (openpgpKdfUpdate C data) := by
  have hrefl : Tallied false [] (.putData efKdf data) d d := .refl _ _ hle
  have hrc : Touches (.putData efKdf data) .rc := Or.inl ⟨rfl, .inr rfl⟩
  have hpw : ∀ p, p = CardPin.pw1 ∨ p = .pw3 → Touches (.putData efKdf data) p :=
    fun p hp ↦ Or.inr ⟨hp, rfl⟩
  refine wp_get ?_
  rcases hcheck : kdfUpdateCheck C d data with sw | pins
  · exact wp_pure hrefl.weaken
  have hpw3 : d.ram.hasPw3 = true := by
    unfold kdfUpdateCheck at hcheck
    by_contra hno
    rw [Bool.eq_false_iff.mpr hno] at hcheck
    cases hcheck
  have hmay : ∀ p, p = CardPin.pw1 ∨ p = .pw3 → ∀ new, (∀ note ∈ ([] : List PinNote), note ∈ new) →
      MayRaise (.putData efKdf data) d new p :=
    fun p hp new _ ↦ .inr ⟨hpw3, .inr ⟨hp, rfl⟩⟩
  have hwrites : Preserves (Tallied false [] (.putData efKdf data) d) (kdfWrites C data pins) := by
    refine Quiet.then (.filePut (by decide) _) fun _ ↦ ?_
    refine .bind (keeps_kdfReseedPin C (p := .pw3) rfl _ (hpw _ (.inr rfl)) (hmay _ (.inr rfl)))
      fun _ _ ↦ ?_
    refine .bind (keeps_kdfReseedPin C (p := .pw1) rfl _ (hpw _ (.inl rfl)) (hmay _ (.inl rfl)))
      fun _ _ ↦ ?_
    exact keeps_resetCodeDeactivate hrc
  have hrollback : Preserves (Tallied false [] (.putData efKdf data) d)
      (kdfRollback C (kdfSnapshot d)) := by
    refine Quiet.then (.modifyRam fun _ ↦ rfl) fun _ ↦
      Quiet.then (.modifyRam fun _ ↦ rfl) fun _ ↦
      Quiet.then (.resultOf (.pinTxnDelete _)) fun _ ↦
      Quiet.then (.resultOf (.pinTxnDelete _)) fun _ ↦
      .bind (.resultOf (keeps_kdfRestore hle fun saved hsaved ↦ kdfSnapshot_status hsaved))
        fun r _ ↦ ?_
    rcases r with - | -
    · exact .pure trivial
    · exact keeps_scanFilesOpenpgp C hrc
  refine wp_tallied hrefl (Quiet.then (.resultOf (.loadDek C)) fun r ↦ ?_)
  rcases r with - | -
  · exact .pure trivial
  refine .bind (.resultOf hwrites) fun r _ ↦ ?_
  rcases r with - | -
  · exact .bind hrollback fun _ _ ↦ .pure trivial
  · exact Quiet.then (.modifyRam fun _ ↦ rfl) fun _ ↦
      Quiet.then (.modifyRam fun _ ↦ rfl) fun _ ↦ .pure trivial

/-- The status of the passwords, in a record that has no other counters. -/
theorem recordOk_putPwStatus (hle : (pwStatus d).length ≤ 7) (value : UInt8) :
    RecordOk seen c d d (putPwStatus d value) where
  length_le := by
    have hlen : (putPwStatus d value).length = 7 := by
      rw [putPwStatus, length_set]
      split_ifs
      · rw [length_take, length_append, length_replicate]
        omega
      · rfl
    rw [hlen]
    exact hle
  le_nine := by
    rw [putPwStatus, length_set]
    split_ifs
    · rw [length_take]
      omega
    · decide
  counter p hp := by
    have hdata : hasData d efPwPriv = true := by
      rw [HasRetries, pwStatus, fileData] at hp
      rw [hasData]
      rcases hread : d.read (.ef efPwPriv) with - | (- | ⟨b, bs⟩)
      · rw [hread] at hp
        exact absurd hp (not_lt_zero _)
      · rw [hread] at hp
        exact absurd hp (not_lt_zero _)
      · rfl
    exact .inl (putPwStatus_getD hdata value ((by decide : 1 ≤ 4).trans (retryIndex_pos p))
      (lt_of_lt_of_le hp hle))

/-- PUT DATA, whose writes of the record leave the counters as they are. -/
theorem wp_cmdPutData (config : CardConfig) (requested : ℕ) (data : Bytes)
    (hle : (pwStatus d).length ≤ 9) (hkeeps : KeepsRecord config d (.putData requested data)) :
    Tallies A (.putData requested data) d (cmdPutData C config requested data) := by
  have hrefl : Tallied false [] (.putData requested data) d d := .refl _ _ hle
  refine wp_get ?_
  rcases hplan : putDataPlan config d requested data with sw | (- | ef)
  · exact wp_pure hrefl.weaken
  · obtain rfl := (planned hplan).eq_efKdf
    exact wp_openpgpKdfUpdate_tallied C data hle
  have hrecord := hkeeps ef hplan
  have hreset : ef.fid = efRc → Touches (.putData requested data) .rc :=
    fun hrc ↦ Or.inl ⟨rfl, .inl (Planned.putDataFid_eq hplan hrc)⟩
  refine wp_get (wp_return hrefl.weaken fun _ ↦ wp_ite (fun hempty ↦ ?_)
    fun _ ↦ wp_ite (fun hstatus ↦ ?_) fun hstatus ↦ wp_ite (fun hrc ↦ ?_) fun _ ↦ ?_)
  · have hclear : Preserves (Tallied false [] (.putData requested data) d)
        (if ef.fid = efRc then resetCodeDeactivate else flashClear ef.fid) := by
      refine .ite (fun hrc ↦ keeps_resetCodeDeactivate (hreset hrc)) fun _ ↦
        Quiet.tallied (.flashClear fun hfid ↦ ?_)
      obtain ⟨rfl, -⟩ := hrecord hfid
      exact (planned hplan).status.2 hempty
    exact wp_tallied hrefl (keeps_writeStatus hclear)
  · subst hstatus
    have hfid := (planned hplan).status.1
    rw [hfid]
    refine wp_mono (Q := fun _ ↦ Tallied false [] (.putData efPwStatus data) d)
      (E := fun _ ↦ Tallied false [] (.putData efPwStatus data) d)
      (wp_writeStatus (wp_mono (wp_filePut_status hrefl
        (recordOk_putPwStatus (hrecord hfid).2 _)) (fun _ _ h ↦ h.1) fun _ _ h ↦ h))
      (fun _ _ h ↦ h.weaken) fun _ _ h ↦ h.weaken
  · have hid := Planned.putDataFid_eq hplan hrc
    have hpw3 : d.ram.hasPw3 = true := by
      refine hasPw3_of_authorized (planned hplan).authorised ⟨?_, ?_⟩ <;> rintro rfl <;>
        cases hid
    exact wp_mono (keeps_putResetCode C data (hreset hrc)
      (fun _ _ ↦ .inr ⟨hpw3, .inl ⟨rfl, hid⟩⟩) A d hrefl) (fun _ _ h ↦ h.1.weaken)
      fun _ _ h ↦ h.weaken
  · have hquiet : Quiet (filePut ef.fid data) := .filePut (fun hfid ↦ hstatus (hrecord hfid).1) data
    exact wp_mono (keeps_writeStatus hquiet.tallied A d hrefl) (fun _ _ h ↦ h.1.weaken)
      fun _ _ h ↦ h.weaken

/-! ### The commands of the PIV applet, and SELECT -/

/-- VERIFY of the PIV applet: one comparison at most. -/
theorem wp_cmdPivVerify (p1 p2 : UInt8) (data : Bytes) (hle : (pwStatus d).length ≤ 9) :
    Tallies A (.pivVerify p1 p2 data) d (cmdPivVerify C p1 p2 data) := by
  have hrefl : Tallied true [] (.pivVerify p1 p2 data) d d := .refl _ _ hle
  have hconcerns : Concerns (.pivVerify p1 p2 data) efPivPin := .inl ⟨.pivPin, rfl, rfl⟩
  refine wp_get (wp_return hrefl fun _ ↦ wp_return hrefl
    fun _ ↦ wp_ite (fun _ ↦ wp_return hrefl fun _ ↦ ?_) fun _ ↦ wp_ite (fun _ ↦ ?_)
      fun _ ↦ wp_ite (fun _ ↦ ?_) fun _ ↦ ?_)
  · exact wp_bind (wp_modifyRam (wp_pure (hrefl.of_same ⟨rfl, rfl⟩)))
  · exact wp_bind (wp_modifyRam (wp_pure (hrefl.of_same ⟨rfl, rfl⟩)))
  · have hbegun : SameTally d (d.setRam fun ram ↦ { ram with hasPwpiv := false }) := ⟨rfl, rfl⟩
    refine wp_bind (wp_modifyRam (wp_bind (wp_mono
      (wp_pinCheckVerifier C hconcerns hbegun hle data 2) (fun x d' h ↦ ?_) fun _ _ h ↦ h)))
    exact wp_ite (fun _ ↦ wp_bind (wp_modifyRam (wp_pure (h.1.of_same ⟨rfl, rfl⟩))))
      fun _ ↦ wp_pure h.1
  · exact wp_return hrefl fun _ ↦ wp_return hrefl fun _ ↦ wp_pure hrefl

theorem pivReference_fid {fid : ℕ} (h : pivReference p2 = some fid) :
    ∃ p : CardPin, fid = p.fid ∧ fid ≠ efPwPriv := by
  unfold pivReference at h
  split_ifs at h <;> cases h
  · exact ⟨.pivPin, rfl, by decide⟩
  · exact ⟨.pivPuk, rfl, by decide⟩

/-- CHANGE PIN of the PIV applet: one comparison. -/
theorem wp_cmdPivChangePin (p1 p2 : UInt8) (data : Bytes) (hle : (pwStatus d).length ≤ 9) :
    Tallies A (.pivChangePin p1 p2 data) d (cmdPivChangePin C p1 p2 data) := by
  have hrefl : Tallied true [] (.pivChangePin p1 p2 data) d d := .refl _ _ hle
  rw [cmdPivChangePin]
  rcases hfid : (pivReference p2).filter fun _ ↦ decide (p1 = 0) with - | fid
  · exact wp_pure hrefl
  have href := (filter_eq_some_iff.mp hfid).1
  obtain ⟨p, hp, hne⟩ := pivReference_fid href
  have hconcerns : Concerns (.pivChangePin p1 p2 data) fid :=
    .inl ⟨p, hp, by rw [Touches, href, hp]⟩
  refine wp_return hrefl fun _ ↦ wp_bind (wp_mono
    (wp_pinCheckVerifier C hconcerns ⟨rfl, rfl⟩ hle _ 2) (fun x d' h ↦ ?_) fun _ _ h ↦ h)
  refine wp_return h.1 fun _ ↦ ?_
  have hquiet : Quiet (do
      filePutIgnoring fid (pinRecord C (data.drop pivPinWireSize))
      return swOk : CardProg UInt16) := .bind (.filePutIgnoring hne _) fun _ ↦ .pure _
  exact wp_mono (hquiet.tallied A d' h.1) (fun _ _ h ↦ h.1) fun _ _ h ↦ h

theorem keeps_pinResetRetriesIgnoring {p : CardPin} (htouch : c.Touches p)
    (hmay : Rightful seen c d₀ p) :
    Preserves (Tallied false seen c d₀) (pinResetRetriesIgnoring p.fid) :=
  .bind (keeps_notePin_entitled _) fun _ _ ↦
    .bind (.resultOf (keeps_pinResetRetries true htouch hmay)) fun _ _ ↦ .pure trivial

/-- RESET RETRY of the PIV applet: the PUK is counted, and gives the PIN its tries. -/
theorem wp_cmdPivResetRetry (p1 p2 : UInt8) (data : Bytes) (hle : (pwStatus d).length ≤ 9) :
    Tallies A (.pivResetRetry p1 p2 data) d (cmdPivResetRetry C p1 p2 data) := by
  have hrefl : Tallied true [] (.pivResetRetry p1 p2 data) d d := .refl _ _ hle
  have hconcerns : Concerns (.pivResetRetry p1 p2 data) efPivPuk := .inl ⟨.pivPuk, rfl, Or.inr rfl⟩
  refine wp_return hrefl fun _ ↦ wp_return hrefl fun _ ↦ wp_bind
    (wp_mono (wp_pinCheckVerifier C hconcerns ⟨rfl, rfl⟩ hle _ 2) (fun x d' h ↦ ?_) fun _ _ h ↦ h)
  refine wp_return h.1 fun hok ↦ ?_
  obtain ⟨p, r, hfid, hright⟩ := h.2 (not_not.mp hok)
  have hmay : ∀ new, (∀ note ∈ [PinNote.compared p.fid r true], note ∈ new) →
      MayRaise (.pivResetRetry p1 p2 data) d new .pivPin :=
    fun new hnew ↦ .inr ⟨rfl, r, by
      rw [show CardPin.pivPuk.fid = p.fid from hfid]
      exact hnew _ (mem_cons_self ..)⟩
  have hrest : Preserves (Tallied false [.compared p.fid r true] (.pivResetRetry p1 p2 data) d) (do
        filePutIgnoring efPivPin (pinRecord C (data.drop pivPinWireSize))
        pinResetRetriesIgnoring efPivPin
        return swOk : CardProg UInt16) :=
    Quiet.then (.filePutIgnoring (by decide) _) fun _ ↦
      .bind (keeps_pinResetRetriesIgnoring (p := .pivPin) (Or.inl rfl) hmay) fun _ _ ↦ .pure trivial
  exact wp_tallied hright hrest

/-- SET RETRIES: the PIV PIN and the management key have been given. -/
theorem wp_cmdSetRetries (p1 p2 : UInt8) (hle : (pwStatus d).length ≤ 9) :
    Tallies A (.setRetries p1 p2) d (cmdSetRetries C p1 p2) := by
  have hrefl : Tallied false [] (.setRetries p1 p2) d d := .refl _ _ hle
  refine wp_get (wp_return hrefl.weaken fun hauth ↦ wp_return hrefl.weaken fun _ ↦
    wp_return hrefl.weaken fun _ ↦ ?_)
  have hauth : d.ram.hasMgm = true ∧ d.ram.hasPwpiv = true := by
    simpa only [Bool.or_eq_true, Bool.not_eq_true', not_or, Bool.not_eq_false] using hauth
  have hmay : ∀ p, p = CardPin.pivPin ∨ p = .pivPuk → ∀ new,
      (∀ note ∈ ([] : List PinNote), note ∈ new) → MayRaise (.setRetries p1 p2)
      d new p :=
    fun p hp _ _ ↦ .inr ⟨hp, hauth⟩
  have hrest : Preserves (Tallied false [] (.setRetries p1 p2) d) (do
      filePutIgnoring efPwRetries (((fileData d efPwRetries).set 4 p1).set 5 p2)
      filePutIgnoring efPivPin (pinRecord C defaultPivPin)
      pinResetRetriesIgnoring efPivPin
      filePutIgnoring efPivPuk (pinRecord C defaultPw3)
      pinResetRetriesIgnoring efPivPuk
      return swOk : CardProg UInt16) :=
    Quiet.then (.filePutIgnoring (by decide) _) fun _ ↦
      Quiet.then (.filePutIgnoring (by decide) _) fun _ ↦
      .bind (keeps_pinResetRetriesIgnoring (p := .pivPin) (Or.inl rfl) (hmay _ (.inl rfl)))
      fun _ _ ↦
      Quiet.then (.filePutIgnoring (by decide) _) fun _ ↦
      .bind (keeps_pinResetRetriesIgnoring (p := .pivPuk) (Or.inr rfl) (hmay _ (.inr rfl)))
      fun _ _ ↦
      .pure trivial
  exact wp_tallied hrefl hrest

theorem quiet_forM_flashClear {fids : List ℕ} (h : efPwPriv ∉ fids) :
    Quiet (fids.forM flashClear) := by
  induction fids with
  | nil => exact .pure ()
  | cons fid fids ih =>
    rw [mem_cons, not_or] at h
    exact .bind (.flashClear (Ne.symm h.1)) fun _ ↦ ih h.2

/-- RESET of the PIV applet: its counters start anew, the others stay. -/
theorem wp_cmdPivReset (p1 p2 : UInt8) (data : Bytes) (vault others : Bool)
    (hle : (pwStatus d).length ≤ 9) :
    Tallies A (.pivReset p1 p2 data vault others) d (cmdPivReset C p1 p2 data vault others) := by
  have hrefl : Tallied false [] (.pivReset p1 p2 data vault others) d d := .refl _ _ hle
  refine wp_get (wp_return hrefl.weaken fun _ ↦ wp_return hrefl.weaken fun _ ↦
    wp_return hrefl.weaken fun hsize ↦ wp_return hrefl.weaken fun hblocked ↦ ?_)
  have hzero : retries d .pivPin = 0 ∧ retries d .pivPuk = 0 := by
    rw [not_or, not_not, not_not] at hblocked
    exact hblocked
  have hrecord : ∀ d', Tallied false [] (.pivReset p1 p2 data vault others) d d' →
      RecordOk [] (.pivReset p1 p2 data vault others) d d' (resetRecord (pwStatus d) 7) := by
    intro d' _
    refine ⟨?_, ?_, fun p hp ↦ ?_⟩
    · rw [resetRecord, length_set, length_set]
    · rw [resetRecord, length_set, length_set]
      exact hle
    · rcases eq_or_ne p .pivPin with rfl | hpin
      · exact .inr (.inr ⟨Or.inl rfl, .inr fun _ _ ↦ .inr ⟨.inl rfl, hzero⟩⟩)
      rcases eq_or_ne p .pivPuk with rfl | hpuk
      · exact .inr (.inr ⟨Or.inr rfl, .inr fun _ _ ↦ .inr ⟨.inr rfl, hzero⟩⟩)
      refine .inr (.inl ?_)
      have hseven : 7 ≠ retryIndex p.fid := fun h ↦ retryIndex_ne hpin h.symm
      have height : 7 + 1 ≠ retryIndex p.fid := fun h ↦ retryIndex_ne hpuk h.symm
      rw [resetRecord, getD_eq_getElem?_getD, getElem?_set_ne height,
        getElem?_set_ne hseven, ← getD_eq_getElem?_getD]
      rfl
  have hwrite : Preserves (Tallied false [] (.pivReset p1 p2 data vault others) d)
      (filePut efPwPriv (resetRecord (pwStatus d) 7)) :=
    fun A d' h ↦ wp_filePut_status h (hrecord d' h)
  refine wp_tallied hrefl (.bind (.resultOf
    (Quiet.then (.ite (fun _ ↦ .pure ()) fun _ ↦ .fail _) fun _ ↦
    Quiet.then (quiet_forM_flashClear (by decide +kernel)) fun _ ↦
    Quiet.then (.ite (fun _ ↦ .pure ()) fun _ ↦ .fail _) fun _ ↦
    Quiet.then (quiet_forM_flashClear (by decide)) fun _ ↦
    Quiet.then (.filePut (by decide) _) fun _ ↦
    .bind (keeps_notePin_entitled _) fun _ _ ↦
    .bind (keeps_notePin_entitled _) fun _ _ ↦ hwrite)) fun r _ ↦ ?_)
  rcases r with - | -
  · exact .pure trivial
  · exact Quiet.then (.modifyRam fun _ ↦ rfl) fun _ ↦
      .bind (keeps_initPiv C) fun _ _ ↦ .pure trivial

/-- A selection compares nothing. It may set up a record that is not there. -/
theorem wp_selectApp (applet : CardApplet) (again : Bool) (hle : (pwStatus d).length ≤ 9) :
    Tallies A (.select applet again) d (selectApp C applet again) := by
  have hselect : Preserves (Tallied false [] (.select applet again) d)
      (selectApp C applet again) := by
    refine Quiet.then (.modifyRam fun ram ↦ ?_) fun _ ↦
      .bind (R := fun _ ↦ True) ?_ fun _ _ ↦
      Quiet.then (.modifyRam fun _ ↦ rfl) fun _ ↦ .pure trivial
    · split_ifs <;> rfl
    · cases applet with
      | openpgp =>
        exact Quiet.then (.modifyRam fun _ ↦ rfl) fun _ ↦
          keeps_scanFilesOpenpgp C ⟨rfl, rfl⟩
      | piv => exact keeps_initPiv C
      | management =>
        exact .bind (keeps_initPiv C) fun _ _ ↦ Quiet.tallied (.modifyRam fun _ ↦ rfl)
      | other => exact .pure trivial
  exact wp_tallied (.refl _ _ hle) hselect

/-- **A command** does with the counters what it may. -/
theorem wp_dispatch (config : CardConfig) (hle : (pwStatus d).length ≤ 9)
    (hkeeps : d.ram.app = some .openpgp → c.KeepsRecord config d) :
    Tallies A c d (c.dispatch C config) := by
  have hrefl : Tallied true [] c d d := .refl _ _ hle
  refine wp_get (wp_ite (fun happ ↦ ?_) fun _ ↦ wp_pure hrefl)
  cases c with
  | select applet again => exact wp_selectApp C applet again hle
  | verify p1 p2 data => exact wp_cmdVerify C p1 p2 data hle
  | changePin p1 p2 data => exact wp_cmdChangePin C p1 p2 data hle
  | resetRetry p1 p2 data => exact wp_cmdResetRetry C p1 p2 data hle
  | putData requested data =>
    have happ : d.ram.app = some .openpgp := by
      rcases happ with h | h
      · cases h
      · exact h.symm
    exact wp_cmdPutData C config requested data hle (hkeeps happ)
  | read cmd =>
    obtain ⟨_, _, hram⟩ := cmd.run_rights config (fun fid ↦ d.read (.ef fid)) d.ram
    have hhistory : (cmd.run config (fun fid ↦ d.read (.ef fid)) d.ram).2.history =
        d.ram.history := congrArg (fun ram ↦ ram.history) hram
    exact wp_get (wp_bind (wp_modifyRam (wp_pure (hrefl.of_same ⟨rfl, hhistory⟩))))
  | pivVerify p1 p2 data => exact wp_cmdPivVerify C p1 p2 data hle
  | pivChangePin p1 p2 data => exact wp_cmdPivChangePin C p1 p2 data hle
  | pivResetRetry p1 p2 data => exact wp_cmdPivResetRetry C p1 p2 data hle
  | setRetries p1 p2 => exact wp_cmdSetRetries C p1 p2 hle
  | pivReset p1 p2 data vault others => exact wp_cmdPivReset C p1 p2 data vault others hle
  | authenticateMgm => exact wp_bind (wp_modifyRam (wp_pure (hrefl.of_same ⟨rfl, rfl⟩)))

end Commands

/-! ### A PIN that is blocked -/

/-- The PIN whose value a command submits. -/
def CardCommand.Submits : CardCommand → CardPin → Prop
  | verify p1 p2 data, p => p1 = 0 ∧ data ≠ [] ∧ p.fid = verifyFid p2
  | changePin _ p2 _, p => (changePinSlot p2).map DekSlot.pin = some p.fid
  | resetRetry p1 _ _, p => p1 = 0 ∧ p = .rc
  | pivVerify p1 _ data, p => p1 = 0 ∧ data ≠ [] ∧ p = .pivPin
  | pivChangePin _ p2 _, p => pivReference p2 = some p.fid
  | pivResetRetry .., p => p = .pivPuk
  | select .., _ | putData .., _ | read _, _ | setRetries .., _ | pivReset .., _ |
    authenticateMgm, _ => False

/-- What is granted in a memory is granted in another. -/
structure RightsLe (ram ram' : CardRam) : Prop where
  pw1 : ram.hasPw1 = true → ram'.hasPw1 = true
  pw2 : ram.hasPw2 = true → ram'.hasPw2 = true
  pw3 : ram.hasPw3 = true → ram'.hasPw3 = true
  rc : ram.hasRc = true → ram'.hasRc = true
  pwpiv : ram.hasPwpiv = true → ram'.hasPwpiv = true
  mgm : ram.hasMgm = true → ram'.hasMgm = true
  authenticated : ram.isUserAuthenticated = true → ram'.isUserAuthenticated = true

theorem RightsLe.refl (ram : CardRam) : RightsLe ram ram :=
  ⟨id, id, id, id, id, id, id⟩

/-- From `d` to `d'` nothing is granted, and no file is written. -/
structure GrantsNothing (d d' : CardDevice) : Prop where
  files : d'.files = d.files
  rights : RightsLe d'.ram d.ram

theorem GrantsNothing.refl (d : CardDevice) : GrantsNothing d d :=
  ⟨rfl, .refl _⟩

section Blocked

variable {A : Outcome → Prop} {p : CardPin} (C : CardCrypto)

/-- Nothing is compared. -/
theorem wp_pinCheckVerifier_blocked (hzero : retries d p = 0) (data : Bytes) (offset : ℕ) :
    wp A (pinCheckVerifier C p.fid data offset)
      (fun x d' ↦ x.1 ≠ swOk ∧ x.2 = false ∧ d' = d) (fun _ _ ↦ False) d := by
  have hspend : wp A (pinSpendRetry p.fid) (fun _ _ ↦ False)
      (fun e d' ↦ ∃ r, e = .code r ∧ d' = d) d :=
    wp_get (wp_refuse ⟨_, rfl, rfl⟩ fun _ ↦ wp_refuse ⟨_, rfl, rfl⟩ fun _ ↦ wp_refuse ⟨_, rfl, rfl⟩
        fun hne ↦ absurd hzero hne)
  refine wp_get (wp_return ⟨by decide, rfl, rfl⟩ fun _ ↦ wp_return ⟨by decide, rfl, rfl⟩ fun _ ↦
    wp_bind (wp_resultOf (wp_mono hspend (fun _ _ h ↦ False.elim h) fun e d' h ↦ ?_)))
  obtain ⟨r, rfl, rfl⟩ := h
  cases r <;> exact wp_pure ⟨by decide, rfl, rfl⟩

/-- A blocked PIN is refused, whatever the value. -/
theorem wp_checkPin_blocked (hzero : retries d p = 0) (data : Bytes) (p2 : UInt8) :
    wp A (checkPin C p.fid data p2) (fun sw d' ↦ sw ≠ swOk ∧ GrantsNothing d d')
      (fun _ d' ↦ GrantsNothing d d') d := by
  have hbegun : GrantsNothing d (d.setRam fun ram ↦ { ram with isUserAuthenticated := false }) :=
    ⟨rfl, ⟨id, id, id, id, id, id, fun h ↦ (Bool.false_ne_true h).elim⟩⟩
  have hzero : ∀ g, retries (d.setRam g) p = 0 := fun _ ↦ hzero
  refine wp_get (wp_return ⟨by decide, .refl d⟩ fun _ ↦ wp_return ⟨by decide, .refl d⟩ fun _ ↦
    wp_bind (wp_modifyRam (wp_bind (wp_mono (wp_pinCheckVerifier_blocked C (hzero _) data _)
      (fun x d' h ↦ ?_) fun _ _ h ↦ False.elim h))))
  obtain ⟨sw, mismatch⟩ := x
  obtain ⟨hsw, rfl, rfl⟩ := h
  exact wp_bind (wp_pure (wp_return ⟨hsw, hbegun⟩ fun hok ↦ absurd hsw hok))

/-- **A PIN that is blocked grants nothing**, whatever is submitted. -/
theorem wp_dispatch_blocked (config : CardConfig) (hsubmits : c.Submits p) (hzero : retries d p = 0) :
    wp A (c.dispatch C config) (fun _ d' ↦ GrantsNothing d d') (fun _ d' ↦ GrantsNothing d d') d := by
  have hrefl := GrantsNothing.refl d
  have hcheck : ∀ {fid : ℕ}, fid = p.fid → ∀ (data : Bytes) (p2 : UInt8) (d' : CardDevice),
      GrantsNothing d d' → retries d' p = 0 →
      wp A (checkPin C fid data p2) (fun sw d'' ↦ sw ≠ swOk ∧ GrantsNothing d d'')
        (fun _ d'' ↦ GrantsNothing d d'') d' := by
    rintro _ rfl data p2 d' hd' hzero'
    have htrans : ∀ {d''}, GrantsNothing d' d'' → GrantsNothing d d'' := fun h ↦
      ⟨h.files.trans hd'.files, ⟨hd'.rights.pw1 ∘ h.rights.pw1, hd'.rights.pw2 ∘ h.rights.pw2,
        hd'.rights.pw3 ∘ h.rights.pw3, hd'.rights.rc ∘ h.rights.rc,
        hd'.rights.pwpiv ∘ h.rights.pwpiv,
        hd'.rights.mgm ∘ h.rights.mgm, hd'.rights.authenticated ∘ h.rights.authenticated⟩⟩
    exact wp_mono (wp_checkPin_blocked C hzero' data p2) (fun _ _ h ↦ ⟨h.1, htrans h.2⟩)
      fun _ _ h ↦ htrans h
  refine wp_get (wp_ite (fun _ ↦ ?_) fun _ ↦ wp_pure hrefl)
  cases c with
  | verify p1 p2 data =>
    obtain ⟨rfl, hdata, hfid⟩ := hsubmits
    refine wp_get (wp_ite (fun h ↦ nomatch h) fun _ ↦ wp_return hrefl fun _ ↦
      wp_return hrefl fun _ ↦ wp_ite (fun _ ↦ ?_) fun h ↦ absurd hdata h)
    exact wp_mono (hcheck hfid.symm data p2 d hrefl hzero) (fun _ _ h ↦ h.2) fun _ _ h ↦ h
  | changePin p1 p2 data =>
    obtain ⟨slot, hslot, hpin⟩ := map_eq_some_iff.mp hsubmits
    refine wp_get (wp_return hrefl fun _ ↦ ?_)
    rw [hslot]
    refine wp_return hrefl fun _ ↦ wp_bind (wp_mono
      (hcheck hpin _ p2 d hrefl hzero) (fun sw d' h ↦ ?_) fun _ _ h ↦ h)
    exact wp_return h.2 fun hok ↦ absurd h.1 hok
  | resetRetry p1 p2 data =>
    obtain ⟨rfl, rfl⟩ := hsubmits
    have hforgot : GrantsNothing d (d.setRam fun ram ↦ { ram with hasPw1 := false }) :=
      ⟨rfl, ⟨fun h ↦ (Bool.false_ne_true h).elim, id, id, id, id, id, id⟩⟩
    refine wp_return hrefl fun _ ↦ wp_ite (fun _ ↦ wp_bind (wp_modifyRam (wp_bind
      (wp_getState (wp_return hforgot fun _ ↦ wp_return hforgot
        fun _ ↦ wp_then (hcheck rfl _ p2 _ hforgot hzero) fun sw d' h ↦ ?_))))) fun h ↦ absurd rfl h
    exact wp_return h.2 fun hok ↦ absurd h.1 hok
  | pivVerify p1 p2 data =>
    obtain ⟨rfl, hdata, rfl⟩ := hsubmits
    have hforgot : ∀ g : CardRam → CardRam, (∀ ram, RightsLe (g ram) ram) →
        GrantsNothing d (d.setRam g) := fun g hg ↦ ⟨rfl, hg d.ram⟩
    refine wp_get (wp_return hrefl fun _ ↦ wp_return hrefl fun _ ↦ wp_ite (fun h ↦ absurd h
      (by decide)) fun _ ↦ wp_ite (fun _ ↦ ?_) fun _ ↦ wp_ite (fun _ ↦ ?_) fun h ↦ absurd hdata h)
    · exact wp_bind (wp_modifyRam (wp_pure (hforgot _ fun _ ↦
        ⟨id, id, id, id, fun h ↦ (Bool.false_ne_true h).elim, id, id⟩)))
    · have hbegun := hforgot (fun ram ↦ { ram with hasPwpiv := false }) fun _ ↦
        ⟨id, id, id, id, fun h ↦ (Bool.false_ne_true h).elim, id, id⟩
      have hzero : ∀ g, retries (d.setRam g) .pivPin = 0 := fun _ ↦ hzero
      refine wp_bind (wp_modifyRam (wp_bind (wp_mono
        (wp_pinCheckVerifier_blocked C (hzero _) data 2) (fun x d' h ↦ ?_)
        fun _ _ h ↦ False.elim h)))
      obtain ⟨hsw, -, rfl⟩ := h
      exact wp_ite (fun hok ↦ absurd hok hsw) fun _ ↦ wp_pure hbegun
  | pivChangePin p1 p2 data =>
    have href : pivReference p2 = some p.fid := hsubmits
    rw [run, cmdPivChangePin, href]
    rcases hfid : (some p.fid).filter fun _ ↦ decide (p1 = 0) with - | fid
    · exact wp_pure hrefl
    obtain rfl : fid = p.fid := (Option.some.inj (filter_eq_some_iff.mp hfid).1).symm
    refine wp_return hrefl fun _ ↦ wp_bind (wp_mono
      (wp_pinCheckVerifier_blocked C hzero _ 2) (fun x d' h ↦ ?_) fun _ _ h ↦ False.elim h)
    obtain ⟨hsw, -, rfl⟩ := h
    exact wp_return hrefl fun hok ↦ absurd hsw hok
  | pivResetRetry p1 p2 data =>
    obtain rfl : p = .pivPuk := hsubmits
    refine wp_return hrefl fun _ ↦ wp_return hrefl fun _ ↦ wp_bind
      (wp_mono (wp_pinCheckVerifier_blocked C (p := .pivPuk) hzero _ 2) (fun x d' h ↦ ?_)
        fun _ _ h ↦ False.elim h)
    obtain ⟨hsw, -, rfl⟩ := h
    exact wp_return hrefl fun hok ↦ absurd hsw hok
  | select | putData | read | setRetries | pivReset | authenticateMgm => exact hsubmits.elim

end Blocked

/-! ### Runs -/

/-- What happens to the card. -/
abbrev CardEvent := MachineEvent CardFile CardCommand

/-- The card after a loss of power, before anything is done. -/
def afterCut (d : CardDevice) (keep : CardFile → ℕ) : CardDevice :=
  { d with files := d.files.powerCut keep }

/-- An event by which no counter is lost: no PUT DATA takes counters out of the record or writes it
under its own id, and no counter in the record that is found after a loss of power is larger than it
was. -/
def KeepsCounters (config : CardConfig) (d : CardDevice) : CardEvent → Prop
  | .command c _ => d.ram.off = false → d.ram.app = some .openpgp → c.KeepsRecord config d
  | .flush _ => True
  | .reboot keep => (pwStatus (afterCut d keep)).length = (pwStatus d).length ∧
    ∀ p, retries (afterCut d keep) p ≤ retries d p

/-- The retry law, for an event between `d` and `d'`. -/
def RetryLaw (d : CardDevice) (event : CardEvent) (d' : CardDevice) : Prop :=
  match event with
  | .command c _ => Tallied true [] c d d' ∧
    ∀ p, c.Submits p → retries d p = 0 → GrantsNothing d d'
  | .flush _ | .reboot _ => d'.ram.history = d.ram.history ∧ ∀ p, retries d' p ≤ retries d p

/-- **One event.** -/
theorem RetryLaw.step (C : CardCrypto) (config : CardConfig) {event : CardEvent}
    (hle : (pwStatus d).length ≤ 9) (h : KeepsCounters config d event) :
    (pwStatus ((cardMachine C config).step d event).2).length ≤ 9 ∧
      RetryLaw d event ((cardMachine C config).step d event).2 := by
  cases event with
  | command c faults =>
    have hfaults : ∀ d', Tallied true [] c { d with faults :=
      faults } d' → Tallied true [] c d d' :=
      fun _ h ↦ ⟨h.length_le, h.le_nine, h.others, h.notes⟩
    have htallied : Tallied true [] c d ((cardMachine C config).step d (.command c faults)).2 :=
      Machine.step_command (M := cardMachine C config) (P := fun _ d' ↦ Tallied true [] c d d')
        (fun _ ↦ .refl _ _ hle)
        (fun hon ↦ wp_dispatch (d := { d with faults := faults }) C config hle (h hon))
        (fun _ _ h ↦ hfaults _ h) (fun _ _ h ↦ hfaults _ h)
        fun _ h ↦ (hfaults _ h).of_same ⟨rfl, rfl⟩
    refine ⟨htallied.le_nine, htallied, fun p hsubmits hzero ↦ ?_⟩
    exact Machine.step_command (M := cardMachine C config) (P := fun _ d' ↦ GrantsNothing d d')
      (fun _ ↦ .refl d)
      (fun _ ↦ wp_dispatch_blocked (d := { d with faults := faults }) C config hsubmits hzero)
      (fun _ _ h ↦ ⟨h.files, h.rights⟩) (fun _ _ h ↦ ⟨h.files, h.rights⟩)
      fun _ h ↦ ⟨h.files, ⟨h.rights.pw1, h.rights.pw2, h.rights.pw3, h.rights.rc, h.rights.pwpiv,
        h.rights.mgm, h.rights.authenticated⟩⟩
  | flush i =>
    have hsame : SameTally d ((cardMachine C config).step d (.flush i)).2 := by
      rw [Machine.step]
      split_ifs <;> exact ⟨rfl, rfl⟩
    exact ⟨hsame.pwStatus_eq ▸ hle, hsame.history, fun p ↦ hsame.retries_eq p ▸ UInt8.le_refl _⟩
  | reboot keep => exact ⟨h.1.trans_le hle, rfl, h.2⟩

/-- **The retry law.** Along every run in which no counter is lost: a value is compared with the
verifier of a PIN only once the counter of this PIN has been decremented from a value that is not 0,
counters are raised by right and changed only by commands that concern them, and a PIN whose counter
is 0 grants nothing. -/
theorem pin_retry_law (C : CardCrypto) (config : CardConfig) (d : CardDevice)
    (hle : (pwStatus d).length ≤ 9) (events : List CardEvent)
    (h : (cardMachine C config).Along (KeepsCounters config) d events) :
    (cardMachine C config).Along
      (fun d event ↦ RetryLaw d event ((cardMachine C config).step d event).2) d events :=
  Machine.Along.of_step (I := fun d ↦ (pwStatus d).length ≤ 9)
    (fun _ _ hle h ↦ RetryLaw.step C config hle h) hle h

/-- A command whose writes are left alone. -/
def undisturbed (c : CardCommand) : CardEvent :=
  .command c fun _ ↦ []

def wrongPivPin : CardEvent :=
  undisturbed (.pivVerify 0 0x80 [7, 7, 7, 7, 7, 7, 7, 7])

/-- A wrong PIV PIN, and the right one. -/
theorem pin_retry_law_twice :
    (cardMachine plainCardCrypto plainCardConfig).Along
      (fun d event ↦ RetryLaw d event
        ((cardMachine plainCardCrypto plainCardConfig).step d event).2) cardStart
      [undisturbed (.select .piv false), wrongPivPin,
        undisturbed (.pivVerify 0 0x80 defaultPivPin)] :=
  pin_retry_law plainCardCrypto plainCardConfig cardStart (by decide) _
    ⟨fun _ _ ↦ trivial, fun _ _ ↦ trivial, fun _ _ ↦ trivial, trivial⟩

/-- A card whose PIV PIN is blocked. -/
def pivBlocked : CardDevice :=
  (cardMachine plainCardCrypto plainCardConfig).run cardStart
    [undisturbed (.select .piv false), wrongPivPin, wrongPivPin, wrongPivPin]

/-- The status of the passwords is written, and the PIV applet selected again. -/
def pivRefilled : CardDevice :=
  (cardMachine plainCardCrypto plainCardConfig).run pivBlocked
    [undisturbed (.select .openpgp false), undisturbed (.verify 0 0x83 defaultPw3),
      undisturbed (.putData efPwStatus [0]), undisturbed (.select .piv false)]

/-- The right PIV PIN is given to it. -/
def pivOpened : CardDevice :=
  (cardMachine plainCardCrypto plainCardConfig).run pivRefilled
    [undisturbed (.pivVerify 0 0x80 defaultPivPin)]

/-- The power is lost after a wrong PIV PIN, before the counter has reached the flash. -/
def pivForgotten : CardDevice :=
  (cardMachine plainCardCrypto plainCardConfig).run cardStart
    [undisturbed (.select .piv false), wrongPivPin, .reboot fun _ ↦ 1]

/-- A PIV PIN that was blocked has its three tries again, and a counter that was decremented before a
comparison is found as it was. -/
theorem pin_retries_refilled :
    retries pivBlocked .pivPin = 0 ∧ retries pivRefilled .pivPin = 3 ∧
      pivOpened.ram.hasPwpiv = true ∧
      pivForgotten.ram.history = [.compared efPivPin 2 false] ∧ retries pivForgotten .pivPin = 3 := by
  decide +kernel

end PicoAll.Openpgp
