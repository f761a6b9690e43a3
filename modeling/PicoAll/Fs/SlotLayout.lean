import PicoAll.Fs.ObjectContainerCalls

/-!
# What the layouts have in common

Most layouts number their records by slot: the record of an object written to a slot has one fixed
file for that slot and object, which doubles as its record id, and the clean-up after a commit goes
over all the numbers and deletes what the next manifest does not name. Their policies are constants,
bound into the records through a hash (`object_policy.c`).

What a layout does besides, writing a marker or allocating record ids from a store of its own, is
*confined* to files that are none of the container's.
-/

namespace PicoAll

open FaultProgram BigEndian List

/-! ### Policies -/

/-- `FILE_OBJECT_OPERATION_MASK`. -/
abbrev operationMask : ℕ := 0x1fff

/-- `FILE_OBJECT_FACT_MASK`. -/
abbrev factMask : ℕ := 0x7ff

/-- `file_object_policy_rule_valid`. The mask of the flags is zero. -/
def fileObjectPolicyRuleValid (rule : Bytes) : Bool :=
  let operations := beField rule 0 2
  let requiredFacts := beField rule 2 4
  let forbiddenFacts := beField rule 6 4
  let callerNamespace := beField rule 10 2
  let flags := beField rule 12 2
  operations != 0 && decide (operations ≤ operationMask) &&
    decide (requiredFacts ||| forbiddenFacts ≤ factMask) && requiredFacts &&& forbiddenFacts == 0 &&
    callerNamespace != 0 && flags == 0

/-- `file_object_policy_validate`: the version, and at most eight rules. -/
def fileObjectPolicyValidate (policy : Bytes) : Except Status Unit :=
  if policy.length < 2 ∨ beField policy 0 1 ≠ 1 ∨ beField policy 1 1 > 8 then
    .error .wrongData
  else if policy.length ≠ 2 + beField policy 1 1 * 14 then
    .error .wrongLength
  else if !(List.range (beField policy 1 1)).all fun i ↦
      fileObjectPolicyRuleValid ((policy.drop (2 + i * 14)).take 14) then
    .error .wrongData
  else
    .ok ()

/-- `file_object_policy_hash`, `sha256` being the hash function. -/
def fileObjectPolicyHash (sha256 : Bytes → Bytes) (policy : Bytes) : Except Status Bytes := do
  fileObjectPolicyValidate policy
  return (sha256 policy).take 16

/-- The policy of the internal objects of every application: one rule, which allows everything to
the firmware itself. -/
def internalPolicy : Bytes :=
  [1, 1, 0x1f, 0xff, 0x00, 0x00, 0x04, 0x60, 0x00, 0x00, 0x00, 0x00, 0x00, 0x01, 0x00, 0x00]

theorem internalPolicy_hash (sha256 : Bytes → Bytes) :
    fileObjectPolicyHash sha256 internalPolicy = .ok ((sha256 internalPolicy).take 16) := by
  have hvalid : fileObjectPolicyValidate internalPolicy = .ok () := by decide
  rfl

/-! ### Confined programs -/

/-- The program changes no file but those in `F`. -/
def Confined {α : Type} (F : ℕ → Prop) (m : FsProg TxnRam α) : Prop :=
  ∀ A s, wp A m (fun _ s' ↦ ∀ fid, ¬F fid → s'.files fid = s.files fid)
    (fun _ s' ↦ ∀ fid, ¬F fid → s'.files fid = s.files fid) s

namespace Confined

variable {α β : Type} {F : ℕ → Prop} {m : FsProg TxnRam α} {f : α → FsProg TxnRam β}

protected theorem pure (a : α) : Confined F (pure a) :=
  fun _ _ ↦ wp_pure fun _ _ ↦ rfl

protected theorem fail (r : Status) : Confined F (FaultProgram.fail r : FsProg TxnRam α) :=
  fun _ _ ↦ wp_fail fun _ _ ↦ rfl

protected theorem getState : Confined F (getState : FsProg TxnRam (FsState TxnRam)) :=
  fun _ _ ↦ wp_getState fun _ _ ↦ rfl

protected theorem liftExcept (x : Except Status α) : Confined F (liftExcept x) :=
  fun _ _ ↦ wp_liftExcept (fun _ _ _ _ ↦ rfl) fun _ _ _ _ ↦ rfl

protected theorem bind (hm : Confined F m) (hf : ∀ a, Confined F (f a)) : Confined F (m >>= f) := by
  intro A s
  refine wp_then (hm A s) fun a s₁ h₁ ↦ ?_
  exact wp_mono (hf a A s₁) (fun _ s₂ h₂ fid hfid ↦ (h₂ fid hfid).trans (h₁ fid hfid))
    fun _ s₂ h₂ fid hfid ↦ (h₂ fid hfid).trans (h₁ fid hfid)

protected theorem ite {c : Prop} [Decidable c] {m' : FsProg TxnRam α} (h : Confined F m)
    (h' : Confined F m') : Confined F (if c then m else m') := by
  split
  · exact h
  · exact h'

protected theorem onError {h : Status → FsProg TxnRam α} (hm : Confined F m)
    (hh : ∀ r, Confined F (h r)) : Confined F (onError m h) := by
  intro A s
  refine wp_onError (wp_mono (hm A s) (fun _ _ h ↦ h) fun e s₁ h₁ ↦ ?_)
  rcases e with r | -
  · exact wp_mono (hh r A s₁) (fun _ s₂ h₂ fid hfid ↦ (h₂ fid hfid).trans (h₁ fid hfid))
      fun _ s₂ h₂ fid hfid ↦ (h₂ fid hfid).trans (h₁ fid hfid)
  · exact h₁

/-- Changing the RAM tables changes no file. -/
protected theorem modifyState {g : FsState TxnRam → FsState TxnRam}
    (hg : ∀ s, (g s).files = s.files) : Confined F (modifyState g : FsProg TxnRam Unit) :=
  fun _ s ↦ wp_modifyState fun fid _ ↦ by rw [hg s]

variable {fid : ℕ}

/-- One operation on one file. -/
protected theorem perform {r : Status} (hfid : F fid) (c : Option Bytes) :
    Confined F (perform r (·.setFile fid c) : FsProg TxnRam Unit) := by
  intro A s
  have hset (f : ℕ) (hf : ¬F f) : (s.setFile fid c).files f = s.files f :=
    Files.set_of_ne _ _ fun heq ↦ hf (heq ▸ hfid)
  exact wp_perform hset (fun _ _ _ ↦ rfl) (fun _ ↦ hset) fun _ _ _ ↦ rfl

protected theorem fileSearch (fid : ℕ) : Confined F (fileSearch fid : FsProg TxnRam _) :=
  .bind .getState fun _ ↦ .pure _

protected theorem fileNew (hfid : F fid) : Confined F (fileNew fid : FsProg TxnRam _) :=
  .bind (.fileSearch fid) fun
    | some _ => .pure _
    | none => .perform hfid _

protected theorem filePutData (hfid : F fid) (data : Bytes) :
    Confined F (filePutData fid data : FsProg TxnRam _) :=
  .perform hfid _

protected theorem flashCommitSync : Confined F (flashCommitSync : FsProg TxnRam _) :=
  fun _ _ ↦ wp_perform (fun _ _ ↦ rfl) (fun _ _ _ ↦ rfl) (fun _ _ _ ↦ rfl) fun _ _ _ ↦ rfl

protected theorem fileDeletePresent (hfid : F fid) : Confined F (fileDeletePresent fid) :=
  .bind (.fileSearch fid) fun
    | some _ => .perform hfid _
    | none => .pure _

protected theorem fileDeleteQuietly (hfid : F fid) : Confined F (fileDeleteQuietly fid) :=
  .bind (.fileSearch fid) fun
    | some _ => .onError (.perform hfid _) fun _ ↦ .pure _
    | none => .pure _

protected theorem replaceFile (hfid : F fid) (data : Bytes) :
    Confined F (fileObjectContainerReplaceFile fid data) :=
  .bind (.fileDeletePresent hfid) fun _ ↦ .bind (.fileNew hfid) fun _ ↦ .filePutData hfid _

/-- What is confined to other files leaves a container alone. -/
theorem untouched {layout : FileObjectContainerLayout} {cid : UInt32} (hm : Confined F m)
    (hF : ∀ fid, F fid → ¬ContainerFid layout cid fid) (A : Outcome → Prop) (s : FsState TxnRam) :
    wp A m (fun _ s' ↦ Untouched layout cid s s') (fun _ s' ↦ Untouched layout cid s s') s :=
  wp_mono (hm A s) (fun _ _ h fid hfid ↦ h fid fun hF' ↦ hF fid hF' hfid)
    fun _ _ h fid hfid ↦ h fid fun hF' ↦ hF fid hF' hfid

end Confined

/-- The program changes no file but those in `F`, and what it returns is in `R`. -/
def ConfinedReturns {α : Type} (F : ℕ → Prop) (R : α → Prop) (m : FsProg TxnRam α) : Prop :=
  ∀ A s, wp A m (fun a s' ↦ R a ∧ ∀ fid, ¬F fid → s'.files fid = s.files fid)
    (fun _ s' ↦ ∀ fid, ¬F fid → s'.files fid = s.files fid) s

namespace ConfinedReturns

variable {α : Type} {F : ℕ → Prop} {R : α → Prop} {m : FsProg TxnRam α}

protected theorem pure {a : α} (ha : R a) : ConfinedReturns F R (pure a) :=
  fun _ _ ↦ wp_pure ⟨ha, fun _ _ ↦ rfl⟩

protected theorem of_confined (hm : Confined F m) : ConfinedReturns F (fun _ ↦ True) m :=
  fun A s ↦ wp_mono (hm A s) (fun _ _ h ↦ ⟨trivial, h⟩) fun _ _ h ↦ h

protected theorem ite {c : Prop} [Decidable c] {m' : FsProg TxnRam α} (h : ConfinedReturns F R m)
    (h' : ConfinedReturns F R m') : ConfinedReturns F R (if c then m else m') := by
  split
  · exact h
  · exact h'

protected theorem fail (r : Status) : ConfinedReturns F R (FaultProgram.fail r : FsProg TxnRam α) :=
  fun _ _ ↦ wp_fail fun _ _ ↦ rfl

end ConfinedReturns

/-! ### What an update keeps -/

/-- The operations on some files keep an invariant. -/
structure FilesKeep [FileDeletion] (I : FsState TxnRam → Prop) (F : ℕ → Prop) : Prop where
  delete : ∀ fid, F fid → Keeps I (fun _ ↦ True) (fileDeleteDynamic fid)
  set : ∀ fid, F fid → ∀ s c, I s → I (s.setFile fid c)

/-- The callbacks of a layout keep an invariant, and the files they give to an update are in `F`, if
the update is to a slot in `T`. -/
structure UpdateKeeps [FileDeletion] (layout : FileObjectContainerLayout) (cid : UInt32)
    (I : FsState TxnRam → Prop) (F : ℕ → Prop) (T : Fin 2 → Prop)
    (writes : List FileObjectContainerWrite) : Prop extends FilesKeep I F where
  manifest : ∀ slot, F (layout.manifestFid cid slot)
  allocate : ∀ slot, T slot → ∀ write ∈ writes, ∀ auth,
    Keeps I (fun r ↦ F r.2) (layout.recordAllocate cid slot write auth)
  activate : Keeps I (fun _ ↦ True) (layout.activate cid)
  retire : ∀ candidates next currentSlot targetSlot,
    Keeps I (fun _ ↦ True) (layout.retire cid candidates next currentSlot targetSlot)

section UpdateKeeps

variable [FileDeletion] {layout : FileObjectContainerLayout} {cid : UInt32}
  {I : FsState TxnRam → Prop} {F : ℕ → Prop} {T : Fin 2 → Prop} {fid : ℕ}
  {crypto : FileObjectContainerCrypto} {legacy : Option FileObjectContainerCrypto}
  {targetSlot : Fin 2} {allWrites : List FileObjectContainerWrite}

omit [FileDeletion] in
theorem keeps_fileSearch {R : Option Bytes → Prop} (hR : ∀ s, I s → R (s.files fid)) :
    Keeps I R (fileSearch fid) :=
  .bind .getState fun s hs ↦ .pure (hR s hs)

omit [FileDeletion] in
theorem keeps_forEach {α : Type} {f : α → FsProg TxnRam Unit} {l : List α}
    (h : ∀ a ∈ l, Preserves I (f a)) : Preserves I (forEach f l) := by
  induction l with
  | nil => exact .pure trivial
  | cons a l ih =>
    exact .bind (h a (mem_cons_self ..)) fun _ _ ↦
      ih fun b hb ↦ h b (mem_cons_of_mem _ hb)

theorem FilesKeep.deletePresent (h : FilesKeep I F) (hfid : F fid) :
    Preserves I (fileDeletePresent fid) := by
  refine .bind (keeps_fileSearch (R := fun _ ↦ True) fun _ _ ↦ trivial) fun file _ ↦ ?_
  rcases file with - | c
  · exact .pure trivial
  · exact h.delete fid hfid

theorem FilesKeep.deleteQuietly (h : FilesKeep I F) (hfid : F fid) :
    Preserves I (fileDeleteQuietly fid) := by
  refine .bind (keeps_fileSearch (R := fun _ ↦ True) fun _ _ ↦ trivial) fun file _ ↦ ?_
  rcases file with - | c
  · exact .pure trivial
  · exact .onError (h.delete fid hfid) fun _ ↦ .pure trivial

theorem FilesKeep.replaceFile (h : FilesKeep I F) (hfid : F fid) (data : Bytes) :
    Preserves I (fileObjectContainerReplaceFile fid data) := by
  refine .bind (h.deletePresent hfid) fun _ _ ↦ .bind (R := fun _ ↦ True) ?_ fun _ _ ↦
    .perform fun s hs ↦ h.set fid hfid s _ hs
  refine .bind (keeps_fileSearch (R := fun _ ↦ True) fun _ _ ↦ trivial) fun file _ ↦ ?_
  rcases file with - | c
  · exact .perform fun s hs ↦ h.set fid hfid s _ hs
  · exact .pure trivial

theorem FilesKeep.abort {α : Type} {R : α → Prop} (h : FilesKeep I F) {newRecordFids : List ℕ}
    (hfids : ∀ fid ∈ newRecordFids, F fid) (r : Status) :
    Keeps I R (containerAbort layout newRecordFids r : FsProg TxnRam α) := by
  exact .ite (fun _ ↦ .bind (keeps_forEach fun fid hfid ↦ h.deleteQuietly (hfids fid hfid))
    fun _ _ ↦ .fail r) fun _ ↦ .fail r

theorem UpdateKeeps.writeRecord (h : UpdateKeeps layout cid I F T allWrites)
    (hslot : T targetSlot) {write : FileObjectContainerWrite} (hwrite : write ∈ allWrites)
    (generation : UInt32) (next : FileObjectManifest) : Keeps I (fun r ↦ F r.2)
      (fileObjectContainerWriteRecord layout cid targetSlot write generation next crypto) :=
  .bind (h.allocate targetSlot hslot write hwrite crypto.auth) fun _ hr ↦
    .bind (R := fun _ ↦ True) (.liftExcept fun _ _ ↦ trivial) fun _ _ ↦
    .ite (fun _ ↦ .bind (R := fun _ ↦ True) (.fail _) fun _ _ ↦
      .bind (R := fun _ ↦ True) (.liftExcept fun _ _ ↦ trivial) fun _ _ ↦
        .bind (h.replaceFile hr _) fun _ _ ↦ .pure hr)
      fun _ ↦ .bind (R := fun _ ↦ True) (.liftExcept fun _ _ ↦ trivial) fun _ _ ↦
        .bind (h.replaceFile hr _) fun _ _ ↦ .pure hr

theorem UpdateKeeps.writeRecords (h : UpdateKeeps layout cid I F T allWrites)
    (hslot : T targetSlot) (writes : List FileObjectContainerWrite) :
    ∀ {earlier : List FileObjectContainerWrite} {next : FileObjectManifest} {newRecordFids : List ℕ},
    (∀ write ∈ writes, write ∈ allWrites) → (∀ fid ∈ newRecordFids, F fid) →
    Keeps I (fun r ↦ ∀ fid ∈ r.2, F fid)
      (containerWriteRecords layout cid targetSlot crypto earlier writes next
        newRecordFids) := by
  induction writes with
  | nil => exact fun _ hfids ↦ .pure hfids
  | cons write writes ih =>
    intro earlier next newRecordFids hwrites hfids
    have hrest : ∀ write ∈ writes, write ∈ allWrites :=
      fun w hw ↦ hwrites w (mem_cons_of_mem _ hw)
    have happend {fid : ℕ} (hfid : F fid) : ∀ f ∈ newRecordFids ++ [fid], F f := by
      intro f hf
      rcases mem_append.mp hf with hf | hf
      · exact hfids f hf
      · rw [mem_singleton] at hf
        exact hf ▸ hfid
    refine .ite (fun _ ↦ .bind (R := fun _ ↦ True) (h.abort hfids _) fun _ _ ↦ ?_) fun _ ↦ ?_
    all_goals
      refine .bind (.onError (h.writeRecord hslot (hwrites write (mem_cons_self ..)) _ next)
        (h.abort hfids)) ?_
      rintro ⟨replacement, recordFid⟩ hfid
      exact .ite (fun _ ↦ .bind (R := fun _ ↦ True) (h.abort (happend hfid) _) fun _ _ ↦
        ih hrest (happend hfid)) fun _ ↦ ih hrest (happend hfid)

/-- **An update keeps** what its layout's callbacks keep, given the slot that it goes to. -/
theorem UpdateKeeps.update {writes : List FileObjectContainerWrite}
    (h : UpdateKeeps layout cid I F T writes) (validateRecords : Bool) {A : Outcome → Prop}
    {s : FsState TxnRam} (hI : I s)
    (hslot : ∀ state, containerUpdateState layout cid s.files crypto legacy
      validateRecords = .ok state → T (containerTargetSlot (state.map (·.current.1)))) :
    wp A (fileObjectContainerUpdateInternal layout cid writes crypto legacy validateRecords)
      (fun _ s' ↦ I s') (fun _ s' ↦ I s') s := by
  refine wp_guard hI fun _ ↦ wp_get ?_
  refine wp_lift (fun state hstate ↦ ?_) fun _ _ ↦ hI
  refine wp_lift (fun base _ ↦ ?_) fun _ _ ↦ hI
  refine wp_then (h.writeRecords (hslot state hstate) writes (fun _ hw ↦ hw)
    (show ∀ fid ∈ [], F fid from nofun) A s hI) ?_
  rintro ⟨unsorted, newRecordFids⟩ s₁ ⟨hs₁, hfids⟩
  have hmanifest (next : FileObjectManifest) (crypto : FileObjectContainerCrypto) :
      Preserves I (onError (do
        let manifest ← liftExcept (fileObjectManifestBuild next [] crypto.auth)
        fileObjectContainerReplaceFile (layout.manifestFid cid
          (containerTargetSlot (state.map (·.current.1)))) manifest)
        (containerAbort layout newRecordFids)) :=
    .onError (.bind (R := fun _ ↦ True) (.liftExcept fun _ _ ↦ trivial) fun _ _ ↦
      h.replaceFile (h.manifest _) _) (h.abort hfids)
  refine wp_mono ((?_ : Preserves I _) A s₁ hs₁) (fun _ _ h ↦ h.1) fun _ _ h ↦ h
  exact .bind (hmanifest _ _) fun _ _ ↦ .bind h.activate fun _ _ ↦ h.retire _ _ _ _

/-- **An update that succeeds** has activated the container, whatever happened on the way. -/
theorem wp_updateActivated {J : FsState TxnRam → Prop}
    (hactivate : ∀ s, wp (fun _ ↦ True) (layout.activate cid) (fun _ s' ↦ J s') (fun _ _ ↦ True) s)
    (hretire : ∀ candidates next currentSlot targetSlot s, J s → wp (fun _ ↦ True)
      (layout.retire cid candidates next currentSlot targetSlot) (fun _ s' ↦ J s')
      (fun _ _ ↦ True) s)
    (writes : List FileObjectContainerWrite) (validateRecords : Bool) (s : FsState TxnRam) :
    wp (fun _ ↦ True)
      (fileObjectContainerUpdateInternal layout cid writes crypto legacy validateRecords)
      (fun _ s' ↦ J s') (fun _ _ ↦ True) s := by
  have hany {α : Type} (m : FsProg TxnRam α) (s : FsState TxnRam) :
      wp (fun _ ↦ True) m (fun _ _ ↦ True) (fun _ _ ↦ True) s :=
    fun _ _ ↦ ⟨fun _ _ ↦ trivial, by split <;> trivial⟩
  refine wp_guard trivial fun _ ↦ wp_get ?_
  refine wp_seq (hany _ s) (fun state s₁ _ ↦ ?_) fun _ _ _ ↦ trivial
  refine wp_seq (hany _ s₁) (fun base s₂ _ ↦ ?_) fun _ _ _ ↦ trivial
  refine wp_seq (hany _ s₂) (fun written s₃ _ ↦ ?_) fun _ _ _ ↦ trivial
  refine wp_seq (hany _ s₃) (fun _ s₄ _ ↦ ?_) fun _ _ _ ↦ trivial
  exact wp_seq (hactivate s₄) (fun _ s₅ h ↦ hretire _ _ _ _ s₅ h) fun _ _ _ ↦ trivial

/-- **A deletion keeps** what deleting each of the container's files keeps. -/
theorem keeps_containerDelete
    (hrecord : ∀ object fid, layout.recordFid cid object = .ok fid →
      Preserves I (fileDeletePresent fid))
    (hmanifest : ∀ slot, Preserves I (fileDeletePresent (layout.manifestFid cid slot)))
    (hdeactivate : Preserves I (layout.deactivate cid)) :
    Preserves I (fileObjectContainerDelete layout cid crypto legacy) := by
  have hslot (state : FileObjectContainerState) (slot : Fin 2) :
      Preserves I (containerDeleteSlot layout cid state slot) := by
    rw [containerDeleteSlot]
    rcases state.candidates slot with - | manifest
    · exact hmanifest slot
    · refine .bind (keeps_forEach fun object _ ↦ ?_) fun _ _ ↦ hmanifest slot
      exact .bind (.liftExcept fun _ hfid ↦ hfid) fun fid hfid ↦ hrecord object fid hfid
  refine .ite (fun _ ↦ .bind (R := fun _ ↦ True) (.fail _) fun _ _ ↦ ?_) fun _ ↦ ?_
  all_goals
    exact .get fun _ ↦ .bind (R := fun _ ↦ True) (.liftExcept fun _ _ ↦ trivial)
      fun state _ ↦ .bind (hslot state 0) fun _ _ ↦ .bind (hslot state 1) fun _ _ ↦ hdeactivate

end UpdateKeeps

/-- The callbacks of a layout are confined to some files, among which are those of the container. -/
structure LayoutConfined (layout : FileObjectContainerLayout) (cid : UInt32)
    (F : ℕ → Prop) : Prop where
  manifest : ∀ slot, F (layout.manifestFid cid slot)
  allocate : ∀ slot write auth,
    ConfinedReturns F (fun r ↦ F r.2) (layout.recordAllocate cid slot write auth)
  activate : Confined F (layout.activate cid)
  retire : ∀ candidates next currentSlot targetSlot,
    Confined F (layout.retire cid candidates next currentSlot targetSlot)

section LayoutConfined

variable {layout : FileObjectContainerLayout} {cid : UInt32} {F : ℕ → Prop}
  {crypto : FileObjectContainerCrypto} {legacy : Option FileObjectContainerCrypto}

theorem ConfinedReturns.keeps {α : Type} {R : α → Prop} {m : FsProg TxnRam α}
    (hm : ConfinedReturns F R m) (files : Files) :
    Keeps (fun s ↦ ∀ fid, ¬F fid → s.files fid = files fid) R m :=
  fun A s hs ↦ wp_mono (hm A s)
    (fun _ _ h ↦ ⟨fun fid hfid ↦ (h.2 fid hfid).trans (hs fid hfid), h.1⟩)
    fun _ _ h fid hfid ↦ (h fid hfid).trans (hs fid hfid)

theorem confined_forEach {α : Type} {f : α → FsProg TxnRam Unit} {l : List α}
    (h : ∀ a ∈ l, Confined F (f a)) : Confined F (forEach f l) := by
  induction l with
  | nil => exact .pure _
  | cons a l ih =>
    exact .bind (h a (mem_cons_self ..)) fun _ ↦
      ih fun b hb ↦ h b (mem_cons_of_mem _ hb)

/-- **An update is confined** to what its layout's callbacks are confined to. -/
theorem LayoutConfined.update (h : LayoutConfined layout cid F)
    (writes : List FileObjectContainerWrite) (validateRecords : Bool) :
    Confined F (fileObjectContainerUpdateInternal layout cid writes crypto legacy
      validateRecords) := by
  intro A s
  have hset (fid : ℕ) (hfid : F fid) (s' : FsState TxnRam) (c : Option Bytes)
      (hs' : ∀ f, ¬F f → s'.files f = s.files f) (f : ℕ) (hf : ¬F f) :
      (s'.setFile fid c).files f = s.files f := by
    have hne : f ≠ fid := fun heq ↦ hf (heq ▸ hfid)
    rw [FsState.files_setFile, Files.set_of_ne _ _ hne, hs' f hf]
  have hkeeps : UpdateKeeps layout cid (fun s' ↦ ∀ fid, ¬F fid → s'.files fid = s.files fid)
      F (fun _ ↦ True) writes :=
    { delete := fun fid hfid ↦ .perform fun s' ↦ hset fid hfid s' none
      set := hset
      manifest := h.manifest
      allocate := fun slot _ write _ auth ↦ (h.allocate slot write auth).keeps s.files
      activate := (ConfinedReturns.of_confined h.activate).keeps s.files
      retire := fun c n cs t ↦ (ConfinedReturns.of_confined (h.retire c n cs t)).keeps s.files }
  exact hkeeps.update validateRecords (fun _ _ ↦ rfl) fun _ _ ↦ trivial

end LayoutConfined

/-! ### Numbered files -/

/-- `(high << 8) | low`. -/
def prefixedFid (high : ℕ) (low : UInt8) : ℕ :=
  high * 256 + low.toNat

theorem prefixedFid_inj {high high' : ℕ} {low low' : UInt8} :
    prefixedFid high low = prefixedFid high' low' ↔ high = high' ∧ low = low' := by
  have hlt := low.toNat_lt
  have hlt' := low'.toNat_lt
  rw [← UInt8.toNat_inj, prefixedFid, prefixedFid]
  omega

theorem prefixedFid_eq (high : ℕ) (low : UInt8) :
    prefixedFid high low = prefixedFid high 0 + low.toNat := by
  simp [prefixedFid]

/-- A file of a slot is a file of one of the two slots. -/
theorem slot_cases (f : Fin 2 → ℕ) (slot : Fin 2) : f slot = f 0 ∨ f slot = f 1 := by
  match slot with
  | 0 => exact .inl rfl
  | 1 => exact .inr rfl

variable {fid : ℕ} {next : FileObjectManifest}

/-- A file id survives its way through a record id. -/
theorem toNat_recordId (h : fid < 65536) : (UInt64.ofNat fid).toNat = fid := by
  rw [UInt64.toNat_ofNat']
  omega

theorem toUInt32_le (slot : UInt8) : slot.toUInt32 ≤ 0xff := by
  exact Nat.le_of_lt_succ slot.toNat_lt

/-- A record whose slot is a byte has a file if its id is valid. -/
theorem slotRecordFid_eq_ok {slot : UInt8} {valid : UInt8 → Bool} {recordId : ℕ} :
    (if slot.toUInt32 > 0xff ∨ !valid slot.toUInt32.toUInt8 then .error .wrongData
      else .ok recordId : Except Status ℕ) = .ok fid ↔ valid slot = true ∧ fid = recordId := by
  have hle : ¬slot.toUInt32 > 0xff := UInt32.not_lt.mpr (toUInt32_le slot)
  rw [UInt8.toUInt8_toUInt32]
  cases hvalid : valid slot <;> simp [hle, eq_comm]

/-- The rules of a layout that numbers its records by slot: `number` gives the file, and `Key` says
which keys have one. -/
structure SlotNumbering (layout : FileObjectContainerLayout) (cid : UInt32)
    (Allowed : FileObjectContainerWrite → Prop) (number : Fin 2 → UInt16 × UInt16 → ℕ)
    (Key : UInt16 × UInt16 → Prop) : Prop where
  allocate : ∀ slot write auth, Key write.key →
    layout.recordAllocate cid slot write auth =
      pure (.ofNat (number slot write.key), number slot write.key)
  key_of_writeValid : ∀ write, layout.writeValid write = true → Key write.key
  recordFid : ∀ object fid, layout.descriptorValid cid object = true →
    layout.recordFid cid object = .ok fid → fid = object.recordId.toNat
  accepts : ∀ slot write generation, Allowed write → layout.writeValid write = true →
    layout.descriptorValid cid
      (write.descriptor generation (.ofNat (number slot write.key))) = true ∧
    layout.recordFid cid
      (write.descriptor generation (.ofNat (number slot write.key))) = .ok (number slot write.key)
  number_inj : ∀ slot slot' key key', Key key → Key key' → number slot key = number slot' key' →
    key = key'
  number_pos : ∀ slot key, Key key → 0 < number slot key
  number_lt : ∀ slot key, Key key → number slot key < 65536

section Numbering

variable {layout : FileObjectContainerLayout} {cid : UInt32}
  {Allowed : FileObjectContainerWrite → Prop} {number : Fin 2 → UInt16 × UInt16 → ℕ}
  {Key : UInt16 × UInt16 → Prop}

theorem SlotNumbering.toNat_number (h : SlotNumbering layout cid Allowed number Key)
    (slot : Fin 2) {key : UInt16 × UInt16} (hkey : Key key) :
    (UInt64.ofNat (number slot key)).toNat = number slot key :=
  toNat_recordId (h.number_lt slot key hkey)

variable {object : FileObjectDescriptor}

section

variable (h : SlotNumbering layout cid Allowed number Key)
include h

/-- A record id that has been handed out is a number of the object's key. -/
theorem SlotNumbering.recordId_of_allocated (hobject : RecordIdAllocated layout cid object) :
    Key object.key ∧ ∃ slot, object.recordId.toNat = number slot object.key := by
  obtain ⟨slot, write, auth, s, os, r, hvalid, hkey, hresult, hr⟩ := hobject
  have hwrite := h.key_of_writeValid write hvalid
  rw [h.allocate slot write auth hwrite] at hresult
  cases hresult
  rw [← hkey]
  exact ⟨hwrite, slot, by rw [← hr, h.toNat_number slot hwrite]⟩

/-- **Allocation by number** keeps to the rules. -/
theorem SlotNumbering.wp_recordAllocate (A : Outcome → Prop) (slot : Fin 2)
    (write : FileObjectContainerWrite) (auth : FileObjectAuthenticator) (s : FsState TxnRam)
    (hallowed : Allowed write) (hvalid : layout.writeValid write = true) :
    wp A (layout.recordAllocate cid slot write auth)
      (fun r s' ↦ Untouched layout cid s s' ∧ Allocated layout cid s write r)
      (fun _ s' ↦ Untouched layout cid s s') s := by
  have hkey := h.key_of_writeValid write hvalid
  have htoNat := h.toNat_number slot hkey
  rw [h.allocate slot write auth hkey]
  refine wp_pure ⟨fun _ _ ↦ rfl, ?_, fun generation ↦ (h.accepts slot write generation hallowed
    hvalid).1, fun generation ↦ (h.accepts slot write generation hallowed hvalid).2, ?_, ?_⟩
  · intro hzero
    have hpos := h.number_pos slot write.key hkey
    rw [← htoNat, show UInt64.ofNat (number slot write.key) = 0 from hzero] at hpos
    cases hpos
  · intro object fid hobject hown hfid _ hne heq
    obtain ⟨hkey', slot', hnumber⟩ := h.recordId_of_allocated hown
    refine hne (h.number_inj slot' slot _ _ hkey' hkey ?_)
    rw [← hnumber, ← h.recordFid object fid hobject hfid]
    exact heq
  · intro object hobject hfid _
    rw [← UInt64.toNat_inj, ← h.recordFid object _ hobject hfid, htoNat]

/-- The record files of a slot-numbered layout are told apart by their ids. -/
theorem SlotNumbering.references {manifest : FileObjectManifest}
    (hobject : object ∈ manifest.objects) (hvalid : layout.descriptorValid cid object = true)
    {fid : ℕ} (hfid : layout.recordFid cid object = .ok fid) :
    fileObjectContainerReferences manifest (.ofNat fid) = true := by
  rw [fileObjectContainerReferences, any_eq_true]
  refine ⟨object, hobject, ?_⟩
  rw [h.recordFid object fid hvalid hfid]
  simp

end

end Numbering

/-! ### Sweeping -/

/-- Delete files, whatever comes of each deletion. -/
abbrev sweep [FileDeletion] (fids : List ℕ) : FsProg TxnRam Unit :=
  forEach fileDeleteQuietly fids

/-- What a sweep leaves: everything else as it was, and nothing that it went over if nothing went
wrong. -/
structure Swept (A : Outcome → Prop) (fids : List ℕ) (s s' : FsState TxnRam) : Prop where
  shrunk : Shrunk s s'
  frame : ∀ fid, fid ∉ fids → s'.files fid = s.files fid
  gone : ¬A .fail → ∀ fid ∈ fids, s'.files fid = none

theorem wp_sweep (A : Outcome → Prop) (fids : List ℕ) (s : FsState TxnRam) :
    wp A (sweep fids) (fun _ s' ↦ Swept A fids s s')
      (fun _ s' ↦ Shrunk s s' ∧ (∀ fid, fid ∉ fids → s'.files fid = s.files fid) ∧ A .cut) s := by
  have hset {s' : FsState TxnRam} (hs' : Shrunk s s')
      (hframe : ∀ f, f ∉ fids → s'.files f = s.files f) {fid : ℕ} (hfid : fid ∈ fids) :
      Shrunk s (s'.setFile fid none) ∧
        ∀ f, f ∉ fids → (s'.setFile fid none).files f = s.files f := by
    refine ⟨hs'.trans (.setFile s' fid), fun f hf ↦ ?_⟩
    have hne : f ≠ fid := fun heq ↦ hf (heq ▸ hfid)
    rw [FsState.files_setFile, Files.set_of_ne _ _ hne, hframe f hf]
  refine wp_mono (wp_forEach_all
    (I := fun s' ↦ Shrunk s s' ∧ ∀ f, f ∉ fids → s'.files f = s.files f)
    (R := fun fid s' ↦ ¬A .fail → s'.files fid = none) ⟨fun _ ↦ .inl rfl, fun _ _ ↦ rfl⟩
    fun fid hfid s' ⟨hs', hframe⟩ ↦ ?_) ?_ fun _ _ h ↦ h
  · have hgone := hset hs' hframe hfid
    refine wp_fileDeleteQuietly ⟨hgone, fun _ ↦ Files.set_self .., fun f hf hA ↦ ?_⟩ (fun hA ↦ ?_)
      fun hA ↦ ⟨hs', hframe, hA⟩
    · exact Shrunk.none (.setFile s' fid) (hf hA)
    · exact ⟨⟨hs', hframe⟩, fun hA' ↦ absurd hA hA', fun _ h ↦ h⟩
  · rintro - s' ⟨⟨hs', hframe⟩, -, hall⟩
    exact ⟨hs', hframe, fun hA fid hfid ↦ hall fid hfid hA⟩

/-- Which records a clean-up leaves, of those that the candidates name: those the next manifest names
as well. -/
structure RetiresUnreferenced (layout : FileObjectContainerLayout) (cid : UInt32)
    (candidates : Fin 2 → Option FileObjectManifest) (next : FileObjectManifest)
    (s s' : FsState TxnRam) : Prop where
  shrunk : Shrunk s s'
  gone : ∀ slot manifest, candidates slot = some manifest → ∀ object ∈ manifest.objects,
    RecordIdAllocated layout cid object → ∀ fid,
      layout.recordFid cid object = .ok fid →
      s'.files fid = none ∨ ∃ o ∈ next.objects, layout.recordFid cid o = .ok fid

/-- A layout whose undisturbed clean-up leaves no record that the next manifest does not name. -/
def LayoutSweeps (layout : FileObjectContainerLayout) (cid : UInt32) : Prop :=
  ∀ candidates next currentSlot targetSlot s, CandidatesOk layout cid candidates next →
    wp (· = .ok) (layout.retire cid candidates next currentSlot targetSlot)
      (fun _ s' ↦ RetiresUnreferenced layout cid candidates next s s')
      (fun _ _ ↦ True) s

/-- A clean-up so far. -/
structure Retiring (layout : FileObjectContainerLayout) (cid : UInt32)
    (next : FileObjectManifest) (targetSlot : Fin 2) (s s' : FsState TxnRam) : Prop where
  shrunk : Shrunk s s'
  retired : Retired layout cid s s' next targetSlot

theorem Retiring.refl (layout : FileObjectContainerLayout) (cid : UInt32)
    (next : FileObjectManifest) (targetSlot : Fin 2) (s : FsState TxnRam) :
    Retiring layout cid next targetSlot s s :=
  ⟨fun _ ↦ .inl rfl, rfl, fun _ _ _ _ ↦ rfl, .inl rfl⟩

/-- A clean-up may delete a file that is not the target manifest and no record of the next one. -/
theorem Retiring.delete {layout : FileObjectContainerLayout} {cid : UInt32} {targetSlot : Fin 2}
    {s s' : FsState TxnRam} (h : Retiring layout cid next targetSlot s s')
    (hmanifest : layout.manifestFid cid targetSlot ≠ fid)
    (hrecords : ∀ object ∈ next.objects, layout.recordFid cid object ≠ .ok fid) :
    Retiring layout cid next targetSlot s (s'.setFile fid none) := by
  have hshrunk : Shrunk s (s'.setFile fid none) := h.shrunk.trans (.setFile s' fid)
  refine ⟨hshrunk, ?_, fun object hobject f hf ↦ ?_, hshrunk _⟩
  · rw [FsState.files_setFile, Files.set_of_ne _ _ hmanifest, h.retired.manifest_eq]
  · have hne : f ≠ fid := fun heq ↦ hrecords object hobject (heq ▸ hf)
    rw [FsState.files_setFile, Files.set_of_ne _ _ hne, h.retired.record_eq object hobject f hf]

/-- What the sweeping clean-ups go over: for each slot its manifest, unless it is the target, and the
records that the next manifest does not name. -/
def retireFids (manifestFid : Fin 2 → ℕ) (recordFids : Fin 2 → List ℕ) (next : FileObjectManifest)
    (targetSlot : Fin 2) : List ℕ :=
  [0, 1].flatMap fun slot ↦
    (if slot ≠ targetSlot then [manifestFid slot] else []) ++
      (recordFids slot).filter fun fid ↦ !fileObjectContainerReferences next (.ofNat fid)

theorem mem_retireFids {manifestFid : Fin 2 → ℕ} {recordFids : Fin 2 → List ℕ} {targetSlot : Fin 2} :
    fid ∈ retireFids manifestFid recordFids next targetSlot ↔
      fid = manifestFid targetSlot.rev ∨ ∃ slot, fid ∈ recordFids slot ∧
        fileObjectContainerReferences next (.ofNat fid) = false := by
  have hslot : ∀ slot targetSlot : Fin 2, slot ≠ targetSlot ↔ slot = targetSlot.rev := by decide
  have hmem : ∀ slot : Fin 2, slot ∈ ([0, 1] : List (Fin 2)) := by decide
  rw [retireFids, mem_flatMap]
  constructor
  · rintro ⟨slot, -, h⟩
    rcases mem_append.mp h with h | h
    · split_ifs at h with hne
      · rw [mem_singleton] at h
        exact .inl (by rw [h, (hslot _ _).mp hne])
      · cases h
    · exact .inr ⟨slot, by simpa using h⟩
  · rintro (rfl | ⟨slot, hfid, href⟩)
    · refine ⟨targetSlot.rev, hmem _, mem_append_left _ ?_⟩
      rw [if_pos ((hslot _ _).mpr rfl)]
      exact mem_singleton_self _
    · exact ⟨slot, hmem _, mem_append_right _ (by simp [hfid, href])⟩

/-- The facts about its files that a sweeping layout needs. -/
structure SweepNumbering (layout : FileObjectContainerLayout) (cid : UInt32)
    (Allowed : FileObjectContainerWrite → Prop) (number : Fin 2 → UInt16 × UInt16 → ℕ)
    (Key : UInt16 × UInt16 → Prop) (recordFids : Fin 2 → List ℕ) : Prop
    extends SlotNumbering layout cid Allowed number Key where
  manifest_ne : ∀ slot : Fin 2,
    layout.manifestFid cid slot.rev ≠ layout.manifestFid cid slot
  record_ne_manifest : ∀ object fid slot, layout.descriptorValid cid object = true →
    layout.recordFid cid object = .ok fid → fid ≠ layout.manifestFid cid slot
  recordFids_ne_manifest : ∀ slot slot', layout.manifestFid cid slot ∉ recordFids slot'
  number_mem : ∀ slot key, Key key → number slot key ∈ recordFids slot

section SweepNumbering

variable {layout : FileObjectContainerLayout} {cid : UInt32}
  {Allowed : FileObjectContainerWrite → Prop} {number : Fin 2 → UInt16 × UInt16 → ℕ}
  {Key : UInt16 × UInt16 → Prop} {recordFids : Fin 2 → List ℕ}
  {candidates : Fin 2 → Option FileObjectManifest} {next : FileObjectManifest}
  {targetSlot : Fin 2}

/-- **A sweeping clean-up** keeps to the rules. -/
theorem SweepNumbering.wp_retire
    (h : SweepNumbering layout cid Allowed number Key recordFids) (A : Outcome → Prop)
    (s : FsState TxnRam) (hcandidates : CandidatesOk layout cid candidates next) :
    wp A (sweep (retireFids (layout.manifestFid cid) recordFids next targetSlot))
      (fun _ s' ↦ Retired layout cid s s' next targetSlot)
      (fun _ s' ↦ Retired layout cid s s' next targetSlot) s := by
  have hmanifest : layout.manifestFid cid targetSlot ∉
      retireFids (layout.manifestFid cid) recordFids next targetSlot := by
    rw [mem_retireFids]
    rintro (heq | ⟨slot, hmem, -⟩)
    · exact h.manifest_ne targetSlot heq.symm
    · exact h.recordFids_ne_manifest targetSlot slot hmem
  have hrecords : ∀ object ∈ next.objects, ∀ fid, layout.recordFid cid object = .ok fid →
      fid ∉ retireFids (layout.manifestFid cid) recordFids next targetSlot := by
    intro object hobject fid hfid
    have hvalid := (hcandidates.next_valid object hobject).1
    rw [mem_retireFids]
    rintro (heq | ⟨slot, -, href⟩)
    · exact h.record_ne_manifest object fid _ hvalid hfid heq
    · rw [h.references hobject hvalid hfid] at href
      cases href
  have hretired {s' : FsState TxnRam} (hs' : Shrunk s s')
      (hframe : ∀ fid, fid ∉ retireFids (layout.manifestFid cid) recordFids next
        targetSlot → s'.files fid = s.files fid) :
      Retired layout cid s s' next targetSlot :=
    ⟨hframe _ hmanifest, fun object hobject fid hfid ↦ hframe fid (hrecords object hobject fid hfid),
      hs' _⟩
  exact wp_mono (wp_sweep A _ s) (fun _ _ h ↦ hretired h.shrunk h.frame)
    fun _ _ h ↦ hretired h.1 h.2.1

/-- A sweeping clean-up leaves no record that is not named. -/
theorem SweepNumbering.wp_retire_unreferenced
    (h : SweepNumbering layout cid Allowed number Key recordFids) (s : FsState TxnRam)
    (hcandidates : CandidatesOk layout cid candidates next) :
    wp (· = .ok) (sweep (retireFids (layout.manifestFid cid) recordFids next targetSlot))
      (fun _ s' ↦ RetiresUnreferenced layout cid candidates next s s')
      (fun _ _ ↦ True) s := by
  refine wp_mono (wp_sweep _ _ s) (fun _ s' hswept ↦ ⟨hswept.shrunk, ?_⟩) fun _ _ _ ↦ trivial
  intro slot manifest hslot object hobject hallocated fid hfid
  have hvalid := (hcandidates.placed slot manifest hslot object hobject).1
  obtain ⟨hkey, slot', hnumber⟩ := h.recordId_of_allocated hallocated
  have hid := h.recordFid object fid hvalid hfid
  rcases href : fileObjectContainerReferences next (.ofNat fid) with - | -
  · refine .inl (hswept.gone (by simp) fid (mem_retireFids.mpr (.inr ⟨slot', ?_, href⟩)))
    rw [hid, hnumber]
    exact h.number_mem slot' _ hkey
  · obtain ⟨o, ho, hrecord⟩ := any_eq_true.mp href
    obtain ⟨hovalid, fid', hfid'⟩ := hcandidates.next_valid o ho
    have hid' := h.recordFid o fid' hovalid hfid'
    refine .inr ⟨o, ho, ?_⟩
    have heq : o.recordId = object.recordId := by
      rw [beq_iff_eq, hid, UInt64.ofNat_toNat] at hrecord
      exact hrecord
    rw [hfid', hid', heq, hid]

end SweepNumbering

/-! ### Markers -/

/-- The content of a marker: four bytes of magic, a version, the slot and two reserved bytes. -/
def containerMarker (magic : Bytes) (slot : UInt8) : Bytes :=
  magic ++ [1, slot, 0, 0]

/-- The `activate` of the layouts with a marker: the marker is written unless it is there. -/
def markerActivate [FileDeletion] (fid : ℕ) (marker : Bytes) : FsProg TxnRam Unit := do
  if (← fileSearch fid) = some marker then
    pure ()
  else
    fileObjectContainerReplaceFile fid marker

theorem confined_markerActivate {F : ℕ → Prop} (hfid : F fid) (marker : Bytes) :
    Confined F (markerActivate fid marker) :=
  .bind (.fileSearch fid) fun _ ↦ .ite (.pure _) (.replaceFile hfid marker)

theorem wp_fileDeletePresent_shrunk {A : Outcome → Prop} {s s₀ : FsState TxnRam} (hs : Shrunk s₀ s) :
    wp A (fileDeletePresent fid) (fun _ s' ↦ Shrunk s₀ s') (fun _ _ ↦ True) s :=
  wp_mono wp_fileDeletePresent_gone (fun _ _ h ↦ hs.trans h.1) fun _ _ _ ↦ trivial

end PicoAll
