import PicoAll.Fs.SlotLayout

/-!
# Allocating record ids

`file_object_record_id_allocate`: the last record id handed out is an object of the transactional
store. An id is handed out once the store has taken it in both of its slots. All of this happens in
the four files of that object.
-/

namespace PicoAll

open FaultProgram BigEndian

/-- `"PKRI"`. -/
abbrev recordIdMagic : ℕ := 0x504b5249

/-- `FILE_OBJECT_RECORD_ID_STATE_SIZE`. -/
abbrev recordIdStateSize : ℕ := 16

/-- The state of the allocator: magic, version, three reserved bytes and the last id. -/
def recordIdState (recordId : ℕ) : Bytes :=
  Fields.encode [(4, recordIdMagic), (1, 1), (1, 0), (1, 0), (1, 0), (8, recordId)]

section Allocate

variable (static : ℕ → Bool) (layout : FileObjectTxnLayout) (auth : FileObjectAuthenticator)

/-- The id in the stored state, from an open handle. -/
def recordIdPrevious (handle : UInt32) : FsProg TxnRam ℕ := do
  let (payloadSize, _) ← fileObjectTxnGetInfo auth handle
  if payloadSize ≠ recordIdStateSize then
    FaultProgram.fail .wrongData
  let state ← fileObjectTxnReadAt auth handle 0 recordIdStateSize
  if beField state 0 4 ≠ recordIdMagic ∨ beField state 4 1 ≠ 1 ∨ beField state 5 3 ≠ 0 then
    FaultProgram.fail .wrongData
  let previousId := beField state 8 8
  if previousId = 0 ∨ previousId = 2 ^ 64 - 1 then
    FaultProgram.fail .wrongData
  return previousId

/-- The next id: one more than the stored one, or the first. -/
def recordIdNext : FsProg TxnRam ℕ := do
  let opened ← onError (some <$> fileObjectTxnOpen static layout auth) fun r ↦
    if r = .fileNotFound then pure none else FaultProgram.fail r
  match opened with
  | none => return 1
  | some handle =>
    let previousId ← onError (recordIdPrevious auth handle) fun r ↦ do
      onError (fileObjectTxnClose handle) fun _ ↦ pure ()
      FaultProgram.fail r
    fileObjectTxnClose handle
    return previousId + 1

def fileObjectRecordIdAllocate : FsProg TxnRam UInt64 := do
  let nextId ← recordIdNext static layout auth
  fileObjectTxnPut static layout auth (recordIdState nextId)
  fileObjectTxnPut static layout auth (recordIdState nextId)
  return .ofNat nextId

end Allocate

/-! ### The files of the transactional store -/

section Confined

variable {static : ℕ → Bool} {layout : FileObjectTxnLayout} {auth : FileObjectAuthenticator}

/-- The four files of an object of the transactional store. -/
def TxnFid (layout : FileObjectTxnLayout) (fid : ℕ) : Prop :=
  ∃ slot, fid = layout.recordFid slot ∨ fid = layout.commitFid slot

variable {F : ℕ → Prop}

theorem confined_authenticated {α : Type} (x : Except Status α) :
    Confined F (authenticated x : FsProg TxnRam α) := by
  have hperform : Confined F (perform .execError id : FsProg TxnRam Unit) := fun _ _ ↦
    wp_perform (fun _ _ ↦ rfl) (fun _ _ _ ↦ rfl) (fun _ _ _ ↦ rfl) fun _ _ _ ↦ rfl
  exact .bind hperform fun _ ↦ .liftExcept x

theorem confined_fileObjectTxnReplaceFile {fid : ℕ} (hfid : F fid) (data : Bytes) :
    Confined F (fileObjectTxnReplaceFile static fid data : FsProg TxnRam Unit) := by
  have hremove : Confined F (fileObjectTxnRemoveFile static fid : FsProg TxnRam Unit) :=
    .bind (.fileSearch fid) fun
      | none => .pure _
      | some _ => .ite (.fail _) (.perform hfid _)
  exact .bind hremove fun _ ↦ .bind (.fileNew hfid) fun _ ↦ .filePutData hfid data

theorem confined_fileObjectTxnRemoveFile {fid : ℕ} (hfid : F fid) :
    Confined F (fileObjectTxnRemoveFile static fid : FsProg TxnRam Unit) :=
  .bind (.fileSearch fid) fun
    | none => .pure _
    | some _ => .ite (.fail _) (.perform hfid _)

/-- A put of a transaction writes its four files only. -/
theorem confined_fileObjectTxnPut (data : Bytes) :
    Confined (TxnFid layout) (fileObjectTxnPut static layout auth data : FsProg TxnRam Unit) := by
  have hrecord (slot : Fin 2) : TxnFid layout (layout.recordFid slot) := ⟨slot, .inl rfl⟩
  have hcommit (slot : Fin 2) : TxnFid layout (layout.commitFid slot) := ⟨slot, .inr rfl⟩
  have hwrite (slot : Fin 2) (generation recordId : ℕ) : Confined (TxnFid layout)
      (fileObjectTxnWriteRecord static layout auth slot generation recordId data :
        FsProg TxnRam Bytes) :=
    .ite (.bind (.fail _) fun _ ↦ .bind (confined_authenticated _) fun _ ↦
        .bind (confined_fileObjectTxnReplaceFile (hrecord slot) _) fun _ ↦ .pure _)
      (.bind (confined_authenticated _) fun _ ↦
        .bind (confined_fileObjectTxnReplaceFile (hrecord slot) _) fun _ ↦ .pure _)
  have hcommitWrite (slot recordSlot : Fin 2) (generation recordId payloadSize : ℕ)
      (recordTag : Bytes) : Confined (TxnFid layout)
      (fileObjectTxnWriteCommit static layout auth slot recordSlot generation recordId payloadSize
        recordTag : FsProg TxnRam Unit) :=
    .bind (confined_authenticated _) fun _ ↦ confined_fileObjectTxnReplaceFile (hcommit slot) _
  refine .ite (.bind (.fail _) fun _ ↦ .ite (.bind (.fail _) fun _ ↦ ?_) ?_)
    (.ite (.bind (.fail _) fun _ ↦ ?_) ?_)
  all_goals
    exact .bind .getState fun _ ↦ .bind (confined_authenticated _) fun target ↦
      .bind (confined_fileObjectTxnRemoveFile (hcommit target.1)) fun _ ↦
      .bind (confined_fileObjectTxnRemoveFile (hrecord target.1)) fun _ ↦
      .bind (hwrite target.1 _ _) fun _ ↦ .bind .flashCommitSync fun _ ↦
      .bind (hcommitWrite target.1 target.1 _ _ _ _) fun _ ↦ .flashCommitSync

theorem confined_fileObjectTxnOpen :
    Confined F (fileObjectTxnOpen static layout auth) := by
  refine .ite (.bind (.fail _) fun _ ↦ ?_) ?_
  all_goals
    refine .bind .getState fun s ↦ .bind (confined_authenticated _) fun state ↦
      .ite (.bind (.fail _) fun _ ↦ ?_) ?_
    all_goals
      rcases s.ram.freeEntry with - | i
      · exact .fail _
      · exact .bind (.modifyState fun _ ↦ rfl) fun _ ↦ .pure _

variable (handle : UInt32)

theorem confined_fileObjectTxnResolve :
    Confined F (fileObjectTxnResolve auth handle) := by
  refine .bind .getState fun s ↦ ?_
  split
  · exact .fail _
  · exact .bind (confined_authenticated _) fun _ ↦
      .ite (.bind (.fail _) fun _ ↦ .pure _) (.pure _)

theorem confined_fileObjectTxnReadAt (offset len : ℕ) :
    Confined F (fileObjectTxnReadAt auth handle offset len) := by
  refine .bind (confined_fileObjectTxnResolve handle) fun entry ↦ ?_
  refine .ite (.bind (.fail _) fun _ ↦ ?_) ?_
  all_goals
    by_cases h : entry.state.recordSlot < 2
    · rw [dif_pos h]
      refine .bind (.fileSearch _) fun file ↦ ?_
      rcases file with - | file
      · exact .fail _
      · exact .liftExcept _
    · rw [dif_neg h]
      exact .fail _

theorem confined_fileObjectTxnClose :
    Confined F (fileObjectTxnClose handle) := by
  refine .bind .getState fun s ↦ ?_
  split
  · exact .fail _
  · exact .modifyState fun _ ↦ rfl

variable {A : Outcome → Prop} {s : FsState TxnRam}

/-- A confined program may be followed by what only its result matters to. -/
theorem Confined.wp_bind_trivial {α β : Type} {m : FsProg TxnRam α} {f : α → FsProg TxnRam β}
    {Q : β → FsState TxnRam → Prop} (hm : Confined F m)
    (hf : ∀ a s', wp A (f a) Q (fun _ _ ↦ True) s') : wp A (m >>= f) Q (fun _ _ ↦ True) s :=
  wp_seq (hm A s) (fun a s' _ ↦ hf a s') fun _ _ _ ↦ trivial

theorem confined_recordIdPrevious :
    Confined F (recordIdPrevious auth handle) := by
  have hinfo : Confined F (fileObjectTxnGetInfo auth handle) :=
    .bind (confined_fileObjectTxnResolve handle) fun _ ↦ .pure _
  refine .bind hinfo fun info ↦ ?_
  have hcheck (state : Bytes) : Confined F (do
      let previousId := beField state 8 8
      if previousId = 0 ∨ previousId = 2 ^ 64 - 1 then
        FaultProgram.fail .wrongData
      return previousId : FsProg TxnRam ℕ) :=
    .ite (.bind (.fail _) fun _ ↦ .pure _) (.pure _)
  have hstate : Confined F (do
      let state ← fileObjectTxnReadAt auth handle 0 recordIdStateSize
      if beField state 0 4 ≠ recordIdMagic ∨ beField state 4 1 ≠ 1 ∨ beField state 5 3 ≠ 0 then
        FaultProgram.fail .wrongData
      let previousId := beField state 8 8
      if previousId = 0 ∨ previousId = 2 ^ 64 - 1 then
        FaultProgram.fail .wrongData
      return previousId : FsProg TxnRam ℕ) :=
    .bind (confined_fileObjectTxnReadAt handle _ _) fun state ↦
      .ite (.bind (.fail _) fun _ ↦ hcheck state) (hcheck state)
  exact .ite (.bind (.fail _) fun _ ↦ hstate) hstate

/-- A stored id that is accepted has a successor. -/
theorem wp_recordIdPrevious {handle : UInt32} :
    wp A (recordIdPrevious auth handle) (fun n _ ↦ n + 1 < 2 ^ 64) (fun _ _ ↦ True) s := by
  have hinfo : Confined (fun _ ↦ False) (fileObjectTxnGetInfo auth handle) :=
    .bind (confined_fileObjectTxnResolve handle) fun _ ↦ .pure _
  refine hinfo.wp_bind_trivial fun info s₁ ↦ ?_
  refine wp_guard trivial fun _ ↦ ?_
  refine (confined_fileObjectTxnReadAt (F := fun _ ↦ False) handle _ _).wp_bind_trivial
    fun state s₂ ↦ ?_
  refine wp_guard trivial fun _ ↦ ?_
  refine wp_guard trivial fun hid ↦ wp_pure ?_
  have hlt := beField_lt state 8 8
  omega

theorem confined_recordIdNext : Confined F (recordIdNext static layout auth) := by
  have hopen : Confined F (some <$> fileObjectTxnOpen static layout auth) :=
    .bind confined_fileObjectTxnOpen fun _ ↦ .pure _
  refine .bind (.onError hopen fun _ ↦ .ite (.pure _) (.fail _)) fun
    | none => .pure _
    | some handle => .bind (.onError (confined_recordIdPrevious handle) fun _ ↦ .bind
        (.onError (confined_fileObjectTxnClose handle) fun _ ↦ .pure _) fun _ ↦ .fail _) fun _ ↦
      .bind (confined_fileObjectTxnClose handle) fun _ ↦ .pure _

theorem wp_recordIdNext :
    wp A (recordIdNext static layout auth) (fun n _ ↦ 0 < n ∧ n < 2 ^ 64) (fun _ _ ↦ True) s := by
  have hopen : Confined (fun _ ↦ False) (some <$> fileObjectTxnOpen static layout auth) :=
    .bind confined_fileObjectTxnOpen fun _ ↦ .pure _
  refine Confined.wp_bind_trivial (.onError hopen fun _ ↦ .ite (.pure _) (.fail _)) fun opened s₁ ↦ ?_
  rcases opened with - | handle
  · exact wp_pure ⟨by decide, by decide⟩
  · refine wp_bind (wp_onError (wp_mono wp_recordIdPrevious (fun n s₂ hn ↦ ?_) fun e s₂ _ ↦ ?_))
    · exact (confined_fileObjectTxnClose (F := fun _ ↦ False) handle).wp_bind_trivial fun _ _ ↦
        wp_pure ⟨Nat.succ_pos n, hn⟩
    · rcases e with r | -
      · exact Confined.wp_bind_trivial (F := fun _ ↦ False)
          (.onError (confined_fileObjectTxnClose handle) fun _ ↦ .pure _) fun _ _ ↦ wp_fail trivial
      · trivial

/-- **Allocating an id** touches the allocator's files only, and the id is not zero. -/
theorem wp_fileObjectRecordIdAllocate (A : Outcome → Prop) (s : FsState TxnRam) :
    wp A (fileObjectRecordIdAllocate static layout auth)
      (fun r s' ↦ (∀ fid, ¬TxnFid layout fid → s'.files fid = s.files fid) ∧ r ≠ 0)
      (fun _ s' ↦ ∀ fid, ¬TxnFid layout fid → s'.files fid = s.files fid) s := by
  have hconfined : Confined (TxnFid layout) (fileObjectRecordIdAllocate static layout auth) :=
    .bind confined_recordIdNext fun _ ↦ .bind (confined_fileObjectTxnPut _) fun _ ↦
      .bind (confined_fileObjectTxnPut _) fun _ ↦ .pure _
  have hresult : wp A (fileObjectRecordIdAllocate static layout auth) (fun r _ ↦ r ≠ 0)
      (fun _ _ ↦ True) s := by
    refine wp_seq wp_recordIdNext (fun n s₁ hn ↦ ?_) fun _ _ _ ↦ trivial
    refine (confined_fileObjectTxnPut _).wp_bind_trivial fun _ _ ↦
      (confined_fileObjectTxnPut _).wp_bind_trivial fun _ _ ↦ wp_pure fun hzero ↦ ?_
    have htoNat := congrArg UInt64.toNat hzero
    rw [UInt64.toNat_ofNat', Nat.mod_eq_of_lt hn.2] at htoNat
    exact absurd htoNat (Nat.ne_of_gt hn.1)
  exact wp_mono (wp_and (hconfined A s) hresult) (fun _ _ h ↦ h) fun _ _ h ↦ h.1

end Confined

end PicoAll
