import PicoAll.Openpgp.PutData

/-!
# What the functions write

Of each function the files that it may write: all others read the same afterwards, however it ends.
-/

namespace PicoAll.Openpgp

open FaultProgram List

/-- However it ends, the program writes no other files. -/
def WritesOnly {α : Type} (S : Set CardFile) (m : CardProg α) : Prop :=
  ∀ r : CardFile → Option Bytes,
    Keeps (fun d : CardDevice ↦ ∀ f ∉ S, d.read f = r f) (fun _ ↦ True) m

namespace WritesOnly

variable {α β : Type} {S : Set CardFile} {m : CardProg α} {f : α → CardProg β} {fid : ℕ}

protected theorem pure (a : α) : WritesOnly S (pure a : CardProg α) :=
  fun _ ↦ .pure trivial

protected theorem fail (r : Status) : WritesOnly S (FaultProgram.fail r : CardProg α) :=
  fun _ ↦ .fail r

protected theorem getState : WritesOnly S (getState : CardProg CardDevice) :=
  fun _ ↦ Keeps.getState.weaken fun _ _ ↦ trivial

protected theorem liftExcept (x : Except Status α) : WritesOnly S (liftExcept x : CardProg α) :=
  fun _ ↦ .liftExcept fun _ _ ↦ trivial

protected theorem bind (hm : WritesOnly S m) (hf : ∀ a, WritesOnly S (f a)) :
    WritesOnly S (m >>= f) :=
  fun r ↦ (hm r).bind fun a _ ↦ hf a r

protected theorem ite {c : Prop} [Decidable c] {m' : CardProg α} (h : c → WritesOnly S m)
    (h' : ¬c → WritesOnly S m') : WritesOnly S (if c then m else m') :=
  fun r ↦ .ite (fun hc ↦ h hc r) fun hc ↦ h' hc r

protected theorem resultOf (hm : WritesOnly S m) : WritesOnly S (resultOf m) :=
  fun r ↦ .resultOf (hm r)

protected theorem modifyRam (g : CardRam → CardRam) : WritesOnly S (modifyRam g) :=
  fun _ _ _ h ↦ wp_modifyState ⟨h, trivial⟩

protected theorem notePin (note : PinNote) : WritesOnly S (notePin note) :=
  .modifyRam _

protected theorem put {err : Status} {file : CardFile} {a : Option Bytes} (h : file ∈ S) :
    WritesOnly S (put err file a : CardProg Unit) :=
  fun r ↦ .put (fun _ hd ↦ hd) fun d hd g hg ↦ by
    have hne : g ≠ file := by
      rintro rfl
      exact hg h
    exact (Device.read_written_of_ne hne).trans (hd g hg)

protected theorem sync {err : Status} (file : CardFile) :
    WritesOnly S (sync err file : CardProg Unit) :=
  fun _ _ _ hd ↦ wp_sync (fun _ ↦ ⟨hd, trivial⟩) (fun _ ↦ hd) (fun _ ↦ hd) fun _ ↦ hd

theorem filePut (h : .ef fid ∈ S) (data : Bytes) : WritesOnly S (filePut fid data) :=
  .put h

theorem filePutIgnoring (h : .ef fid ∈ S) (data : Bytes) : WritesOnly S (filePutIgnoring fid data) :=
  fun r ↦ .onError (WritesOnly.filePut h data r) fun _ ↦ .pure trivial

theorem flashClear (h : .ef fid ∈ S) : WritesOnly S (flashClear fid) :=
  .bind .getState fun _ ↦ .ite (fun _ ↦ .put h) fun _ ↦ .pure ()

/-! ### The functions of the PINs -/

theorem pinResetRetries (h : .ef efPwPriv ∈ S) (fid : ℕ) (force : Bool) :
    WritesOnly S (pinResetRetries fid force) :=
  .bind .getState fun _ ↦ .ite (fun _ ↦ .fail _) fun _ ↦ .ite (fun _ ↦ .fail _) fun _ ↦ filePut h _

theorem setResetCodeRetries (h : .ef efPwPriv ∈ S) (retries : UInt8) :
    WritesOnly S (setResetCodeRetries retries) :=
  .bind .getState fun _ ↦ .ite (fun _ ↦ .fail _) fun _ ↦ .ite (fun _ ↦ .fail _) fun _ ↦
    .ite (fun _ ↦ .pure ()) fun _ ↦ filePut h _

theorem restorePwStatusLimits (h : .ef efPwPriv ∈ S) : WritesOnly S restorePwStatusLimits :=
  .bind .getState fun _ ↦ .ite (fun _ ↦ filePutIgnoring h _) fun _ ↦ .pure ()

variable (C : CardCrypto)

theorem loadDek : WritesOnly S (loadDek C) := by
  refine .bind .getState fun d ↦ ?_
  rcases d.ram.dekSlot with - | slot
  · exact .fail _
  dsimp only
  rcases openDek C slot (d.ram.session slot) (d.read (.ef slot.file)) (fileData d efDek) with r | dek
  · exact .bind (.ite (fun _ ↦ .modifyRam _) fun _ ↦ .pure ()) fun _ ↦ .fail _
  · exact .modifyRam _

theorem sealDek (session : Bytes) : WritesOnly S (sealDek C session) :=
  .bind .getState fun _ ↦ .bind (.modifyRam _) fun _ ↦ .pure _

theorem pinTxnDelete (h : .pinTxn fid ∈ S) : WritesOnly S (pinTxnDelete fid) :=
  .bind .getState fun _ ↦ .ite (fun _ ↦ .bind (.sync _) fun _ ↦ .bind (.put h) fun _ ↦ .sync _)
    fun _ ↦ .pure ()

theorem pinTxnStage (h : .pinTxn fid ∈ S) (verifier session : Bytes) :
    WritesOnly S (pinTxnStage C fid verifier session) :=
  .bind (sealDek C session) fun _ ↦ .bind (.sync _) fun _ ↦ .bind (.put h) fun _ ↦ .sync _

theorem storePin {slot : DekSlot} (hpin : .ef slot.pin ∈ S) (hfile : .ef slot.file ∈ S)
    (htxn : .pinTxn slot.pin ∈ S) (verifier sealed : Bytes) :
    WritesOnly S (storePin slot verifier sealed) :=
  .bind (filePut hpin _) fun _ ↦ .bind (filePut hfile _) fun _ ↦ pinTxnDelete htxn

theorem resetCodeDeactivate (hpin : .ef efRc ∈ S) (hfile : .ef efDekRc ∈ S)
    (htxn : .pinTxn efRc ∈ S) (hstatus : .ef efPwPriv ∈ S) : WritesOnly S resetCodeDeactivate := by
  refine .bind (.resultOf (pinTxnDelete htxn)) fun deleted ↦ .bind .getState fun d ↦ ?_
  refine .bind (.ite (fun _ ↦ .resultOf (flashClear hpin)) fun _ ↦ .pure _) fun cleared ↦ ?_
  refine .bind (.resultOf (.bind (.liftExcept cleared) fun _ ↦ .bind ?_ fun _ ↦
    setResetCodeRetries hstatus 0)) fun result ↦ .bind (.modifyRam _) fun _ ↦ .liftExcept result
  exact .ite (fun _ ↦ flashClear hfile) fun _ ↦ .pure ()

/-! ### Start-up -/

theorem scanFile (h : .ef fid ∈ S) (content : Bytes) : WritesOnly S (scanFile fid content) :=
  .bind .getState fun _ ↦ .ite (fun _ ↦ .pure ()) fun _ ↦ filePutIgnoring h _

theorem scanPin (h : .ef fid ∈ S) (reset : Bool) (pin : Bytes) :
    WritesOnly S (scanPin C fid reset pin) :=
  .bind .getState fun _ ↦ .ite (fun _ ↦ filePutIgnoring h _) fun _ ↦ .pure ()

theorem scanDek {slot : DekSlot} (h : .ef slot.file ∈ S) (pin dek : Bytes) :
    WritesOnly S (scanDek C slot pin dek) :=
  .bind .getState fun _ ↦ .bind (.modifyRam _) fun _ ↦ filePutIgnoring h _

end WritesOnly

/-- The files that `scan_files_openpgp` may write. -/
def scanOpenpgpFiles : List CardFile :=
  [efDekPw1, efDekPw3, efPw1, efPw3, efSigCount, efPwPriv, efRc, efDekRc, efUifSig, efUifDec, efUifAut,
    efKdf, efSex, efPwRetries].map .ef ++ [.pinTxn efRc]

namespace WritesOnly

variable {S : Set CardFile}

theorem scanFilesOpenpgp (C : CardCrypto) (h : ∀ f ∈ scanOpenpgpFiles, f ∈ S) :
    WritesOnly S (scanFilesOpenpgp C) := by
  have hef : ∀ {fid : ℕ}, CardFile.ef fid ∈ scanOpenpgpFiles → CardFile.ef fid ∈ S := h _
  refine .bind .getState fun d ↦ .bind (.ite (fun _ ↦ ?_) fun _ ↦ .pure ()) fun _ ↦ ?_
  · exact .bind (.modifyRam _) fun _ ↦ .bind (scanDek C (hef (by decide)) _ _) fun _ ↦
      scanDek C (hef (by decide)) _ _
  refine .bind (scanPin C (hef (by decide)) _ _) fun _ ↦ ?_
  refine .bind (scanPin C (hef (by decide)) _ _) fun _ ↦ ?_
  refine .bind (scanFile (hef (by decide)) _) fun _ ↦ ?_
  refine .bind (scanFile (hef (by decide)) _) fun _ ↦ ?_
  refine .bind (restorePwStatusLimits (hef (by decide))) fun _ ↦ .bind .getState fun d ↦ ?_
  refine .bind (.ite (fun _ ↦ ?_) fun _ ↦ .pure ()) fun _ ↦ ?_
  · exact .bind (.resultOf (resetCodeDeactivate (hef (by decide)) (hef (by decide))
      (h _ (by decide)) (hef (by decide)))) fun _ ↦ .pure ()
  refine .bind (scanFile (hef (by decide)) _) fun _ ↦ ?_
  refine .bind (scanFile (hef (by decide)) _) fun _ ↦ ?_
  refine .bind (scanFile (hef (by decide)) _) fun _ ↦ ?_
  refine .bind (scanFile (hef (by decide)) _) fun _ ↦ ?_
  refine .bind (scanFile (hef (by decide)) _) fun _ ↦ ?_
  exact scanFile (hef (by decide)) _

/-! ### The key derivation object -/

theorem kdfReseedPin (C : CardCrypto) {slot : DekSlot} (hpin : .ef slot.pin ∈ S)
    (hfile : .ef slot.file ∈ S) (htxn : .pinTxn slot.pin ∈ S) (hstatus : .ef efPwPriv ∈ S)
    (value : Bytes) : WritesOnly S (kdfReseedPin C slot value) :=
  .bind (sealDek C _) fun _ ↦ .bind (pinTxnStage C htxn _ _) fun _ ↦
    .bind (storePin hpin hfile htxn _ _) fun _ ↦ .bind (.notePin _) fun _ ↦
      pinResetRetries hstatus _ _

theorem kdfRestore (snapshot : List (ℕ × Option Bytes)) (h : ∀ saved ∈ snapshot, .ef saved.1 ∈ S) :
    WritesOnly S (kdfRestore snapshot) := by
  induction snapshot with
  | nil => exact .pure ()
  | cons saved snapshot ih =>
    have hsaved : WritesOnly S (kdfRestoreFile saved) := by
      rcases saved with ⟨fid, - | data⟩
      · exact flashClear (h _ (mem_cons_self ..))
      · exact filePut (h (fid, some data) (mem_cons_self ..)) data
    exact .bind hsaved fun _ ↦ ih fun s hs ↦ h s (mem_cons_of_mem _ hs)

end WritesOnly

/-- The files that `openpgp_kdf_update` may write. -/
def kdfUpdateFiles : List CardFile :=
  kdfFiles.map .ef ++ [.pinTxn efPw1, .pinTxn efPw3] ++ scanOpenpgpFiles

theorem WritesOnly.openpgpKdfUpdate {S : Set CardFile} (C : CardCrypto) (data : Bytes)
    (h : ∀ f ∈ kdfUpdateFiles, f ∈ S) : WritesOnly S (openpgpKdfUpdate C data) := by
  have hscan : ∀ f ∈ scanOpenpgpFiles, f ∈ S := fun f hf ↦ h f (mem_append_right _ hf)
  refine .bind .getState fun d ↦ ?_
  rcases kdfUpdateCheck C d data with sw | pins
  · exact .pure _
  refine .bind (.resultOf (loadDek C)) fun r ↦ ?_
  rcases r with - | -
  · exact .pure _
  have hwrites : WritesOnly S (kdfWrites C data pins) := by
    refine .bind (filePut (h _ (by decide)) _) fun _ ↦ ?_
    refine .bind (kdfReseedPin C (h _ (by decide)) (h _ (by decide)) (h _ (by decide))
      (h _ (by decide)) _) fun _ ↦ ?_
    refine .bind (kdfReseedPin C (h _ (by decide)) (h _ (by decide)) (h _ (by decide))
      (h _ (by decide)) _) fun _ ↦ ?_
    exact resetCodeDeactivate (h _ (by decide)) (h _ (by decide)) (h _ (by decide)) (h _ (by decide))
  refine .bind (.resultOf hwrites) fun r ↦ ?_
  rcases r with - | -
  · refine .bind ?_ fun _ ↦ .pure _
    refine .bind (.modifyRam _) fun _ ↦ .bind (.modifyRam _) fun _ ↦ ?_
    refine .bind (.resultOf (pinTxnDelete (h _ (by decide)))) fun _ ↦ ?_
    refine .bind (.resultOf (pinTxnDelete (h _ (by decide)))) fun _ ↦ ?_
    refine .bind (.resultOf (kdfRestore _ fun saved hsaved ↦ ?_)) fun r ↦ ?_
    · obtain ⟨fid, hfid, rfl⟩ := mem_map.mp hsaved
      exact h _ (mem_append_left _ (mem_append_left _ (mem_map_of_mem hfid)))
    · rcases r with - | -
      · exact .pure ()
      · exact scanFilesOpenpgp C hscan
  · exact .bind (.modifyRam _) fun _ ↦ .bind (.modifyRam _) fun _ ↦ .pure _

end PicoAll.Openpgp
