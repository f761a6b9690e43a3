import PicoAll.Fs.ObjectStoreTxnRecover

/-!
# A put or a delete is all or nothing

Every state a put or a delete passes through differs from the one it started in at most in the two
files of the *target* slot, the one that is not current (`Framed`). As long as that slot's commit
does not parse the old version is read; once it does, the slot is complete and the new version is
read. There is no third possibility because the commit is removed first and written last.
-/

namespace PicoAll

open FaultProgram BigEndian List

variable {ρ : Type} {static : ℕ → Bool} {layout : FileObjectTxnLayout}
  {auth : FileObjectAuthenticator} {files files' : Files}

/-! ### What a valid layout provides -/

theorem static_of_layoutValid (h : fileObjectTxnLayoutValid static layout = true) (slot : Fin 2) :
    static (layout.recordFid slot) = false ∧ static (layout.commitFid slot) = false := by
  simp only [fileObjectTxnLayoutValid, all_cons, Bool.and_eq_true, Bool.not_eq_true'] at h
  match slot with
  | 0 => exact ⟨h.1.1.2, h.1.2.2.1.2⟩
  | 1 => exact ⟨h.1.2.1.2, h.1.2.2.2.1.2⟩

theorem distinct_of_layoutValid (h : fileObjectTxnLayoutValid static layout = true) :
    (∀ slot slot', layout.recordFid slot ≠ layout.commitFid slot') ∧
      (∀ slot : Fin 2, layout.recordFid slot.rev ≠ layout.recordFid slot) ∧
      ∀ slot : Fin 2, layout.commitFid slot.rev ≠ layout.commitFid slot := by
  have hnodup : [layout.recordFid 0, layout.recordFid 1, layout.commitFid 0,
      layout.commitFid 1].Nodup := by
    simp only [fileObjectTxnLayoutValid, Bool.and_eq_true, decide_eq_true_eq] at h
    exact h.2
  simp only [nodup_cons, mem_cons, not_mem_nil, or_false, not_or] at hnodup
  obtain ⟨⟨h01, h02, h03⟩, ⟨h12, h13⟩, h23, -⟩ := hnodup
  refine ⟨?_, ?_, ?_⟩
  · rw [Fin.forall_fin_two, Fin.forall_fin_two, Fin.forall_fin_two]
    exact ⟨⟨h02, h03⟩, h12, h13⟩
  · rw [Fin.forall_fin_two]
    exact ⟨Ne.symm h01, h01⟩
  · rw [Fin.forall_fin_two]
    exact ⟨Ne.symm h23, h23⟩

/-! ### The states in between -/

/-- Nothing outside the two files of a slot has changed. -/
def Framed (layout : FileObjectTxnLayout) (slot : Fin 2) (files files' : Files) : Prop :=
  ∀ fid, fid ≠ layout.recordFid slot → fid ≠ layout.commitFid slot → files' fid = files fid

theorem Framed.refl (layout : FileObjectTxnLayout) (slot : Fin 2) (files : Files) :
    Framed layout slot files files :=
  fun _ _ _ ↦ rfl

variable {slot : Fin 2} {generation : ℕ}
  (hvalid : fileObjectTxnLayoutValid static layout = true)

section

variable (h : Framed layout slot files files')
include h

theorem Framed.set_record (c : Option Bytes) :
    Framed layout slot files (files'.set (layout.recordFid slot) c) :=
  fun fid hr hc ↦ (Files.set_of_ne _ _ hr).trans (h fid hr hc)

theorem Framed.set_commit (c : Option Bytes) :
    Framed layout slot files (files'.set (layout.commitFid slot) c) :=
  fun fid hr hc ↦ (Files.set_of_ne _ _ hc).trans (h fid hr hc)

theorem Framed.agreeOn_rev (hvalid : fileObjectTxnLayoutValid static layout = true) :
    AgreeOn layout slot.rev files files' := by
  obtain ⟨hrc, hrr, hcc⟩ := distinct_of_layoutValid hvalid
  exact ⟨h _ (hrr slot) (hrc _ _), h _ (hrc _ _).symm (hcc slot)⟩

/-- Soundness of the target slot is enough: the other slot has not been touched. -/
theorem Framed.sound
    (hvalid : fileObjectTxnLayoutValid static layout = true) (hsound : TxnSound layout auth files)
    (hslot : ∀ state tag, txnCommitState layout auth slot (files' (layout.commitFid slot)) =
      .ok (state, tag) → state.deleted = true ∨ state.recordSlot = slot) :
    TxnSound layout auth files' := by
  intro slot' state tag hc
  by_cases hs : slot' = slot
  · subst hs
    exact hslot state tag hc
  · obtain rfl : slot' = slot.rev := by
      rw [Fin.ext_iff, Fin.val_rev]
      omega
    exact hsound slot.rev state tag ((h.agreeOn_rev hvalid).2 ▸ hc)

end

/-- The target slot is out of the running: its commit does not parse. -/
def Broken (layout : FileObjectTxnLayout) (auth : FileObjectAuthenticator) (slot : Fin 2)
    (files files' : Files) : Prop :=
  Framed layout slot files files' ∧
    ∃ r, txnCommitState layout auth slot (files' (layout.commitFid slot)) = .error r

theorem Broken.set_record (h : Broken layout auth slot files files')
    (hvalid : fileObjectTxnLayoutValid static layout = true) (c : Option Bytes) :
    Broken layout auth slot files (files'.set (layout.recordFid slot) c) := by
  refine ⟨h.1.set_record c, ?_⟩
  rw [Files.set_of_ne _ _ ((distinct_of_layoutValid hvalid).1 slot slot).symm]
  exact h.2

theorem Broken.set_commit (h : Framed layout slot files files') {c : Option Bytes}
    (hc : c = none ∨ c = some []) :
    Broken layout auth slot files (files'.set (layout.commitFid slot) c) :=
  ⟨h.set_commit c, _, by rw [Files.set_self]; exact txnCommitState_empty hc⟩

/-! ### What is read from the states in between -/

/-- What the version after a put or a delete has to be, and what holds if the call stops early. -/
structure TxnAfter (layout : FileObjectTxnLayout) (auth : FileObjectAuthenticator)
    (files files' : Files) (version : Except Status Bytes) : Prop where
  /-- Files that are not the object's are untouched. -/
  frame : ∀ fid, (∀ slot, fid ≠ layout.recordFid slot ∧ fid ≠ layout.commitFid slot) →
    files' fid = files fid
  /-- The invariant is kept. -/
  inv : TxnInvariant layout auth files'
  /-- The version read. -/
  version_eq : txnVersion layout auth files' = version

/-- At most one slot is valid while the other is broken. -/
theorem TxnInvariant.of_parse_error (hsound : TxnSound layout auth files) {r : Status}
    (h : fileObjectTxnParseCommit layout auth files slot = .error r) :
    TxnInvariant layout auth files := by
  refine ⟨hsound, fun slot' a b ha hb ↦ ?_⟩
  by_cases hs : slot' = slot
  · rw [hs, h] at ha
    cases ha
  · obtain hs : slot'.rev = slot := by
      rw [Fin.ext_iff, Fin.val_rev]
      omega
    rw [hs, h] at hb
    cases hb

include hvalid in
/-- The state is as good as one in which nothing has happened. -/
theorem TxnAfter.of_broken (hsound : TxnSound layout auth files)
    (hfound : ∀ r, fileObjectTxnRecover layout auth files = .error r → r = .fileNotFound)
    (h : Broken layout auth (txnTarget layout auth files) files files') :
    TxnAfter layout auth files files' (txnVersion layout auth files) where
  frame fid hfid := h.1 fid (hfid _).1 (hfid _).2
  inv := by
    obtain ⟨r, hr⟩ := h.2
    refine .of_parse_error (h.1.sound hvalid hsound fun state tag hc ↦ ?_)
      (parseCommit_of_commit_error hr)
    rw [hr] at hc
    cases hc
  version_eq := by
    obtain ⟨r, hr⟩ := h.2
    exact (version_of_target_broken hsound (h.1.agreeOn_rev hvalid) hr hfound).2

theorem TxnAfter.refl (hinv : TxnInvariant layout auth files) :
    TxnAfter layout auth files files (txnVersion layout auth files) :=
  ⟨fun _ _ ↦ rfl, hinv, rfl⟩

include hvalid in
/-- **Completing the target slot makes it current**, since its generation is one above everything
that was valid before. -/
theorem recover_of_target_complete
    (hsound : TxnSound layout auth files) (h : Framed layout slot files files')
    {state : FileObjectTxnState}
    (hnew : fileObjectTxnParseCommit layout auth files' slot = .ok state)
    (hgen : ∀ st, fileObjectTxnParseCommit layout auth files slot.rev = .ok st →
      st.generation < state.generation) :
    fileObjectTxnRecover layout auth files' = .ok state ∧
      ∀ slot a b, fileObjectTxnParseCommit layout auth files' slot = .ok a →
        fileObjectTxnParseCommit layout auth files' slot.rev = .ok b →
        a.generation ≠ b.generation := by
  have hother := parseCommit_congr hsound (h.agreeOn_rev hvalid)
  constructor
  · rcases hrev : fileObjectTxnParseCommit layout auth files slot.rev with r | st
    · exact recover_of_rev_error hnew (hother.trans hrev)
    · exact recover_of_newer hnew (hother.trans hrev) (hgen st hrev)
  · intro slot' a b ha hb
    by_cases hs : slot' = slot
    · subst hs
      rw [hnew] at ha
      cases ha
      exact (hgen b (hother.symm.trans hb)).ne'
    · obtain rfl : slot' = slot.rev := by
        rw [Fin.ext_iff, Fin.val_rev]
        omega
      rw [Fin.rev_rev, hnew] at hb
      cases hb
      exact (hgen a (hother.symm.trans ha)).ne

/-- The slot and the generation a new version gets. -/
theorem nextState_ok (h : fileObjectTxnNextState layout auth files = .ok (slot, generation)) :
    slot = txnTarget layout auth files ∧ generation ≠ 0 ∧ generation < 256 ^ 4 ∧
      (∀ r, fileObjectTxnRecover layout auth files = .error r → r = .fileNotFound) ∧
      ∀ st, fileObjectTxnParseCommit layout auth files slot.rev = .ok st →
        st.generation < generation := by
  unfold fileObjectTxnNextState at h
  unfold txnTarget
  rcases hrec : fileObjectTxnRecover layout auth files with r | current <;> simp only [hrec] at h
  · by_cases hr : r = .fileNotFound
    · subst hr
      cases h
      refine ⟨rfl, by decide, by decide, fun r hr ↦ (Except.error.inj hr).symm, fun st hst ↦ ?_⟩
      obtain ⟨r, hr⟩ := recover_not_found.mp hrec (Fin.rev 0)
      rw [hst] at hr
      cases hr
    · cases r <;> first | exact absurd rfl hr | cases h
  · have hcur := parseCommit_of_recover hrec
    obtain ⟨tag, hc⟩ := parseCommit_ok hcur
    have hlt := (txnCommitState_ok hc).2.1
    split_ifs at h with hmax
    cases h
    refine ⟨rfl, by omega, ?_, fun r hr ↦ (nomatch hr), fun st hst ↦ ?_⟩
    · simp only [UINT32_MAX] at hmax
      omega
    · rw [Fin.rev_rev, hcur] at hst
      cases hst
      omega

/-- The two files of a put that is complete. -/
structure TxnPutDone (layout : FileObjectTxnLayout) (auth : FileObjectAuthenticator)
    (files files' : Files) (slot : Fin 2) (generation : ℕ) (data : Bytes) : Prop where
  next : fileObjectTxnNextState layout auth files = .ok (slot, generation)
  length_le : data.length ≤ UINT32_MAX - txnRecordHeaderSize - authTagSize
  framed : Framed layout slot files files'
  record : files' (layout.recordFid slot) =
    some (txnRecordContent layout auth slot generation generation data)
  commit : files' (layout.commitFid slot) =
    some (txnCommitContent layout auth slot generation generation (layout.recordFid slot) slot 0
      data.length (auth.tag ((txnRecordFields layout slot generation generation
        data.length).encode ++ data)))

variable {data : Bytes}

theorem TxnPutDone.commitState (h : TxnPutDone layout auth files files' slot generation data) :
    txnCommitState layout auth slot (files' (layout.commitFid slot)) =
      .ok (⟨generation, generation, data.length, slot, slot, false⟩,
        auth.tag ((txnRecordFields layout slot generation generation data.length).encode ++
          data)) := by
  obtain ⟨-, hg0, hg, -, -⟩ := nextState_ok h.next
  have hlen := h.length_le
  have hlen32 : data.length < 256 ^ 4 := by
    simp only [UINT32_MAX, txnRecordHeaderSize, authTagSize] at hlen
    omega
  have hs : ¬(slot : ℕ) > 1 := by omega
  rw [h.commit, txnCommitState_content hg0 hg hg (layout.recordFid_lt slot) (by omega) (by omega)
    hlen32 (auth.length_tag _)]
  simp [txnCommitReference, hg0, hs]

include hvalid in
/-- A complete put is what recovery selects. -/
theorem TxnPutDone.recover (hsound : TxnSound layout auth files)
    (h : TxnPutDone layout auth files files' slot generation data) :
    fileObjectTxnRecover layout auth files' =
        .ok ⟨generation, generation, data.length, slot, slot, false⟩ ∧
      ∀ slot a b, fileObjectTxnParseCommit layout auth files' slot = .ok a →
        fileObjectTxnParseCommit layout auth files' slot.rev = .ok b →
        a.generation ≠ b.generation := by
  obtain ⟨-, -, hg, -, hgen⟩ := nextState_ok h.next
  have hparse : fileObjectTxnParseCommit layout auth files' slot =
      .ok ⟨generation, generation, data.length, slot, slot, false⟩ := by
    simp [fileObjectTxnParseCommit, h.commitState,
      validateRecord_content hg hg h.length_le h.record]
  exact recover_of_target_complete hvalid hsound h.framed hparse hgen

/-- The payload of a record. -/
theorem fileReadAt_txnRecordContent (slot : Fin 2) (generation recordId : ℕ) (data : Bytes) :
    fileReadAt (txnRecordContent layout auth slot generation recordId data) txnRecordHeaderSize
      data.length = .ok data := by
  have hheader := length_txnRecordFields layout slot generation recordId data.length
  have hlength : (txnRecordContent layout auth slot generation recordId data).length =
      32 + data.length + 16 := by
    simp [txnRecordContent, hheader, auth.length_tag, Nat.add_assoc]
  rw [fileReadAt, if_neg (by rw [hlength]; simp only [txnRecordHeaderSize]; omega)]
  rw [txnRecordContent]
  simp only [append_assoc]
  rw [drop_left' hheader, take_left' rfl]

include hvalid in
/-- A complete put. -/
theorem TxnAfter.of_put (hsound : TxnSound layout auth files)
    (h : TxnPutDone layout auth files files' slot generation data) :
    TxnAfter layout auth files files' (.ok data) := by
  obtain ⟨hrec, hdistinct⟩ := h.recover hvalid hsound
  refine ⟨fun fid hfid ↦ h.framed fid (hfid slot).1 (hfid slot).2, ⟨?_, hdistinct⟩, ?_⟩
  · refine h.framed.sound hvalid hsound fun state tag hc ↦ ?_
    rw [h.commitState] at hc
    cases hc
    exact .inr rfl
  · have hslot : (slot : ℕ) < 2 := slot.isLt
    rw [txnVersion_of_live hrec rfl hslot h.record, fileReadAt_txnRecordContent]

/-- The commit of a delete that is complete. -/
structure TxnDeleteDone (layout : FileObjectTxnLayout) (auth : FileObjectAuthenticator)
    (files files' : Files) (slot : Fin 2) (generation : ℕ) : Prop where
  next : fileObjectTxnNextState layout auth files = .ok (slot, generation)
  framed : Framed layout slot files files'
  commit : files' (layout.commitFid slot) =
    some (txnCommitContent layout auth slot generation 0 0 0xff 1 0
      (List.replicate authTagSize 0))

theorem TxnDeleteDone.commitState (h : TxnDeleteDone layout auth files files' slot generation) :
    txnCommitState layout auth slot (files' (layout.commitFid slot)) =
      .ok (⟨generation, 0, 0, slot, 0xff, true⟩, List.replicate authTagSize 0) := by
  obtain ⟨-, hg0, hg, -, -⟩ := nextState_ok h.next
  rw [h.commit, txnCommitState_content hg0 hg (by decide) (by decide) (by decide) (by omega)
    (by decide) (by simp)]
  simp [txnCommitReference]

include hvalid in
/-- A complete delete is what recovery selects. -/
theorem TxnDeleteDone.recover (hsound : TxnSound layout auth files)
    (h : TxnDeleteDone layout auth files files' slot generation) :
    fileObjectTxnRecover layout auth files' = .ok ⟨generation, 0, 0, slot, 0xff, true⟩ ∧
      ∀ slot a b, fileObjectTxnParseCommit layout auth files' slot = .ok a →
        fileObjectTxnParseCommit layout auth files' slot.rev = .ok b →
        a.generation ≠ b.generation := by
  obtain ⟨-, -, -, -, hgen⟩ := nextState_ok h.next
  have hparse : fileObjectTxnParseCommit layout auth files' slot =
      .ok ⟨generation, 0, 0, slot, 0xff, true⟩ := by
    simp [fileObjectTxnParseCommit, h.commitState]
  exact recover_of_target_complete hvalid hsound h.framed hparse hgen

include hvalid in
/-- A complete delete. -/
theorem TxnAfter.of_delete (hsound : TxnSound layout auth files)
    (h : TxnDeleteDone layout auth files files' slot generation) :
    TxnAfter layout auth files files' (.error .fileNotFound) := by
  obtain ⟨hrec, hdistinct⟩ := h.recover hvalid hsound
  refine ⟨fun fid hfid ↦ h.framed fid (hfid slot).1 (hfid slot).2, ⟨?_, hdistinct⟩, ?_⟩
  · refine h.framed.sound hvalid hsound fun state tag hc ↦ ?_
    rw [h.commitState] at hc
    cases hc
    exact .inl rfl
  · simp [txnVersion, hrec]

/-! ### The file operations of the store -/

section Programs

variable {s : FsState ρ} {E : Exit Status → FsState ρ → Prop}

theorem wp_authenticated {α : Type} {x : Except Status α} {Q : α → FsState ρ → Prop}
    (hok : ∀ a, x = .ok a → Q a s) (herr : ∀ e, E e s) :
    wp (fun _ ↦ True) (authenticated x) Q E s :=
  wp_bind (wp_perform (wp_liftExcept hok fun _ _ ↦ herr _) (fun _ ↦ herr _) (fun _ ↦ herr _)
    fun _ ↦ herr _)

variable {Q : Unit → FsState ρ → Prop}

theorem wp_fileObjectTxnRemoveFile {fid : ℕ} (hstatic : static fid = false)
    (hok : Q () (s.setFile fid none))
    (herr : ∀ e c, c = s.files fid ∨ c = none → E e (s.setFile fid c)) :
    wp (fun _ ↦ True) (fileObjectTxnRemoveFile static fid) Q E s := by
  refine wp_bind (wp_fileSearch ?_)
  have hstay (e : Exit Status) : E e s := by simpa using herr e _ (.inl rfl)
  rcases hf : s.files fid with - | c
  · rw [← hf, FsState.setFile_get] at hok
    exact wp_pure hok
  · simp only [hstatic, Bool.false_eq_true, if_false]
    refine wp_fileDeleteNoCommit ?_ (fun _ ↦ hstay _) (fun _ ↦ ?_) fun _ ↦ hstay _
    · simpa [hstatic] using hok
    · simpa [hstatic] using herr _ none (.inr rfl)

/-- Replacing a file goes through its absence and its being empty, and ends with the new content. -/
theorem wp_fileObjectTxnReplaceFile {fid : ℕ} {data : Bytes} (hstatic : static fid = false)
    (hok : Q () (s.setFile fid (some data)))
    (herr : ∀ e c, c = s.files fid ∨ c = none ∨ c = some [] ∨ c = some data → E e (s.setFile fid c)) :
    wp (fun _ ↦ True) (fileObjectTxnReplaceFile static fid data) Q E s := by
  refine wp_bind (wp_fileObjectTxnRemoveFile hstatic ?_ fun e c hc ↦ herr e c (by tauto))
  refine wp_bind (wp_fileNew (fun c hc ↦ ?_) (fun _ ↦ ?_) (fun _ _ ↦ ?_) (fun _ _ ↦ ?_)
    fun _ _ ↦ ?_)
  · simp at hc
  · refine wp_filePutData ?_ (fun _ ↦ ?_) (fun _ ↦ ?_) fun _ ↦ ?_
    · simpa using hok
    · simpa using herr _ (some []) (by tauto)
    · simpa using herr _ (some data) (by tauto)
    · simpa using herr _ (some []) (by tauto)
  · exact herr _ none (by tauto)
  · simpa using herr _ (some []) (by tauto)
  · exact herr _ none (by tauto)

/-- Removing the commit and then the record of the target slot keeps the old version. -/
theorem wp_removeTarget {α : Type} {k : FsProg ρ α} {Q : α → FsState ρ → Prop} {slot : Fin 2}
    (hvalid : fileObjectTxnLayoutValid static layout = true) (hstart : ∀ e, E e s)
    (hbroken : ∀ e s', Broken layout auth slot s.files s'.files → E e s')
    (hk : ∀ s', Broken layout auth slot s.files s'.files → wp (fun _ ↦ True) k Q E s') :
    wp (fun _ ↦ True) (do
      fileObjectTxnRemoveFile static (layout.commitFid slot)
      fileObjectTxnRemoveFile static (layout.recordFid slot)
      k) Q E s := by
  obtain ⟨hsr, hsc⟩ := static_of_layoutValid hvalid slot
  have hfirst : Broken layout auth slot s.files (s.setFile (layout.commitFid slot) none).files :=
    .set_commit (.refl _ _ _) (.inl rfl)
  refine wp_bind (wp_fileObjectTxnRemoveFile hsc ?_ ?_)
  · refine wp_bind (wp_fileObjectTxnRemoveFile hsr (hk _ (hfirst.set_record hvalid _)) ?_)
    exact fun e c _ ↦ hbroken e _ (hfirst.set_record hvalid c)
  · rintro e c (rfl | rfl)
    · simpa using hstart e
    · exact hbroken e _ hfirst

/-- Writing a commit over a broken target either leaves it broken or completes it. -/
theorem wp_replaceCommit {commit : Bytes} {slot : Fin 2} {old : Files}
    (hvalid : fileObjectTxnLayoutValid static layout = true)
    (hs : Broken layout auth slot old s.files)
    (hbroken : ∀ e s', Broken layout auth slot old s'.files → E e s')
    (hdone : ∀ s', Framed layout slot old s'.files →
      s'.files (layout.recordFid slot) = s.files (layout.recordFid slot) →
      s'.files (layout.commitFid slot) = some commit → Q () s' ∧ ∀ e, E e s') :
    wp (fun _ ↦ True) (fileObjectTxnReplaceFile static (layout.commitFid slot) commit) Q E s := by
  have hwritten := hdone (s.setFile (layout.commitFid slot) (some commit)) (hs.1.set_commit _)
    (Files.set_of_ne _ _ ((distinct_of_layoutValid hvalid).1 slot slot)) (Files.set_self ..)
  refine wp_fileObjectTxnReplaceFile (static_of_layoutValid hvalid slot).2 hwritten.1 ?_
  rintro e c (rfl | rfl | rfl | rfl)
  · simpa using hbroken e s hs
  · exact hbroken e _ (.set_commit hs.1 (.inl rfl))
  · exact hbroken e _ (.set_commit hs.1 (.inr rfl))
  · exact hwritten.2 e

section Stages

variable {P N : Files → Prop}

include hvalid in
/-- **The stages of a put**, whatever goes wrong on the way: until its commit is there the target
slot is out of the running, and then the put is complete. -/
theorem wp_fileObjectTxnPut_stages (data : Bytes) (hstart : P s.files)
    (hold : (∀ r, fileObjectTxnRecover layout auth s.files = .error r → r = .fileNotFound) →
      ∀ files', Broken layout auth (txnTarget layout auth s.files) s.files files' → P files')
    (hnew : ∀ slot generation files',
      TxnPutDone layout auth s.files files' slot generation data → N files') :
    wp (fun _ ↦ True) (fileObjectTxnPut static layout auth data)
      (fun _ s' ↦ N s'.files) (fun _ s' ↦ P s'.files ∨ N s'.files) s := by
  unfold fileObjectTxnPut
  simp only [hvalid, Bool.not_true, Bool.false_eq_true, if_false]
  refine wp_guard (.inl hstart) fun _ ↦ ?_
  refine wp_get (wp_bind (wp_authenticated ?_ fun _ ↦ .inl hstart))
  rintro ⟨slot, generation⟩ hnext
  obtain ⟨hslot, -, -, hfound, -⟩ := nextState_ok hnext
  have hold (e : Exit Status) (s' : FsState ρ)
      (h : Broken layout auth slot s.files s'.files) : P s'.files ∨ N s'.files :=
    .inl (hold hfound s'.files (hslot ▸ h))
  refine wp_removeTarget hvalid (fun _ ↦ .inl hstart) hold fun s₁ h₁ ↦ ?_
  refine wp_bind (wp_guard (hold (.code .noMemory) s₁ h₁) fun hlen ↦ ?_)
  refine wp_bind (wp_authenticated ?_ fun e ↦ hold e s₁ h₁)
  rintro recordTag htag
  cases htag
  refine wp_bind (wp_fileObjectTxnReplaceFile (static_of_layoutValid hvalid slot).1 ?_
    fun e c _ ↦ hold e _ (h₁.set_record hvalid c))
  have h₂ := h₁.set_record hvalid
    (some (txnRecordContent layout auth slot generation generation data))
  refine wp_pure (wp_bind (wp_flashCommitSync ?_ (hold (.code .memoryFatal) _ h₂)
    fun _ ↦ hold .cut _ h₂))
  refine wp_bind (wp_bind (wp_authenticated ?_ fun e ↦ hold e _ h₂))
  rintro commit hcommit
  cases hcommit
  refine wp_replaceCommit hvalid h₂ hold fun s₃ h₃ hrecord hcommit ↦ ?_
  have hdone : N s₃.files := hnew slot generation s₃.files
    ⟨hnext, by omega, h₃, hrecord.trans (Files.set_self ..), hcommit⟩
  exact ⟨wp_flashCommitSync hdone (.inr hdone) fun _ ↦ .inr hdone, fun _ ↦ .inr hdone⟩

include hvalid in
/-- **The stages of a delete.** -/
theorem wp_fileObjectTxnDelete_stages (hstart : P s.files)
    (hold : (∀ r, fileObjectTxnRecover layout auth s.files = .error r → r = .fileNotFound) →
      ∀ files', Broken layout auth (txnTarget layout auth s.files) s.files files' → P files')
    (hnew : ∀ slot generation files',
      TxnDeleteDone layout auth s.files files' slot generation → N files') :
    wp (fun _ ↦ True) (fileObjectTxnDelete static layout auth)
      (fun _ s' ↦ N s'.files) (fun _ s' ↦ P s'.files ∨ N s'.files) s := by
  unfold fileObjectTxnDelete
  simp only [hvalid, Bool.not_true, Bool.false_eq_true, if_false]
  refine wp_get (wp_bind (wp_authenticated ?_ fun _ ↦ .inl hstart))
  intro current hrec
  refine wp_guard (.inl hstart) fun _ ↦ ?_
  refine wp_guard (.inl hstart) fun hmax ↦ ?_
  have hnext : fileObjectTxnNextState layout auth s.files =
      .ok (current.commitSlot.rev, current.generation + 1) := by
    simp [fileObjectTxnNextState, hrec, hmax]
  obtain ⟨hslot, -, -, hfound, -⟩ := nextState_ok hnext
  have hold (e : Exit Status) (s' : FsState ρ)
      (h : Broken layout auth current.commitSlot.rev s.files s'.files) :
      P s'.files ∨ N s'.files :=
    .inl (hold hfound s'.files (hslot ▸ h))
  refine wp_removeTarget hvalid (fun _ ↦ .inl hstart) hold fun s₁ h₁ ↦ ?_
  refine wp_bind (wp_flashCommitSync ?_ (hold (.code .memoryFatal) _ h₁) fun _ ↦ hold .cut _ h₁)
  refine wp_bind (wp_bind (wp_authenticated ?_ fun e ↦ hold e _ h₁))
  rintro commit hcommit
  cases hcommit
  refine wp_replaceCommit hvalid h₁ hold fun s₂ h₂ _ hcommit ↦ ?_
  have hdone : N s₂.files := hnew _ _ s₂.files ⟨hnext, h₂, hcommit⟩
  exact ⟨wp_flashCommitSync hdone (.inr hdone) fun _ ↦ .inr hdone, fun _ ↦ .inr hdone⟩

end Stages

variable (hinv : TxnInvariant layout auth s.files)

include hvalid hinv

/-- **A put is all or nothing**, whatever goes wrong on the way. -/
theorem wp_fileObjectTxnPut (data : Bytes) :
    wp (fun _ ↦ True) (fileObjectTxnPut static layout auth data)
      (fun _ s' ↦ TxnAfter layout auth s.files s'.files (.ok data))
      (fun _ s' ↦ TxnAfter layout auth s.files s'.files (txnVersion layout auth s.files) ∨
        TxnAfter layout auth s.files s'.files (.ok data)) s :=
  wp_fileObjectTxnPut_stages
    (P := fun files' ↦ TxnAfter layout auth s.files files' (txnVersion layout auth s.files))
    (N := fun files' ↦ TxnAfter layout auth s.files files' (.ok data)) hvalid data (.refl hinv)
    (fun hfound _ h ↦ .of_broken hvalid hinv.sound hfound h)
    fun _ _ _ h ↦ .of_put hvalid hinv.sound h

/-- **A delete is all or nothing.** -/
theorem wp_fileObjectTxnDelete :
    wp (fun _ ↦ True) (fileObjectTxnDelete static layout auth)
      (fun _ s' ↦ TxnAfter layout auth s.files s'.files (.error .fileNotFound))
      (fun _ s' ↦ TxnAfter layout auth s.files s'.files (txnVersion layout auth s.files) ∨
        TxnAfter layout auth s.files s'.files (.error .fileNotFound)) s :=
  wp_fileObjectTxnDelete_stages
    (P := fun files' ↦ TxnAfter layout auth s.files files' (txnVersion layout auth s.files))
    (N := fun files' ↦ TxnAfter layout auth s.files files' (.error .fileNotFound)) hvalid
    (.refl hinv) (fun hfound _ h ↦ .of_broken hvalid hinv.sound hfound h)
    fun _ _ _ h ↦ .of_delete hvalid hinv.sound h

end Programs

end PicoAll
