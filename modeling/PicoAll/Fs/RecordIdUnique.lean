import PicoAll.Fs.RecordId
import PicoAll.Fs.ObjectStoreTxnStable

/-!
# Record ids are handed out once

An id is handed out when both slots of the allocator hold it, so that either slot alone knows the
greatest id there has been (`RecordIdInv`). While the next id is being written one slot is out of the
running, and for that time the allocator has no spare copy: if the other slot is lost then, it starts
again at one (`recordId_reused`). As long as a slot is lost only while the other one is valid, the
ids handed out increase (`record_ids_increase`); after the last one, nothing is handed out.
-/

namespace PicoAll

open FaultProgram BigEndian List Nat

variable {static : ℕ → Bool} {layout : FileObjectTxnLayout} {auth : FileObjectAuthenticator}
  {files files' : Files}

/-! ### What the slots hold -/

theorem length_recordIdState (n : ℕ) : (recordIdState n).length = recordIdStateSize :=
  Fields.length_encode _

/-- The id is read back. -/
theorem beField_recordIdState {n : ℕ} (hn : n < 2 ^ 64) : beField (recordIdState n) 8 8 = n := by
  have hfits : Fields.Fits [(4, recordIdMagic), (1, 1), (1, 0), (1, 0), (1, 0), (8, n)] := by
    simp only [Fields.Fits, forall_mem_cons]
    exact ⟨by decide, by decide, by decide, by decide, by decide, hn, by simp⟩
  have hfields := Fields.at_encode hfits []
  exact hfields.2.2.2.2.2.1

/-- A valid slot holds an id. -/
structure RecordIdSlot (layout : FileObjectTxnLayout) (auth : FileObjectAuthenticator)
    (files : Files) (slot : Fin 2) (n : ℕ) : Prop where
  lt : n < 2 ^ 64
  parse : ∃ g, fileObjectTxnParseCommit layout auth files slot =
      .ok ⟨g, g, recordIdStateSize, slot, slot, false⟩ ∧
    files (layout.recordFid slot) =
      some (txnRecordContent layout auth slot g g (recordIdState n))

/-- Every valid slot holds an id that is at least `high`, and there is one if `high` is not zero. -/
structure RecordIdInv (layout : FileObjectTxnLayout) (auth : FileObjectAuthenticator) (high : ℕ)
    (files : Files) : Prop where
  inv : TxnInvariant layout auth files
  holds : ∀ slot state, fileObjectTxnParseCommit layout auth files slot = .ok state →
    ∃ n, high ≤ n ∧ RecordIdSlot layout auth files slot n
  found : 0 < high → ∃ slot state, fileObjectTxnParseCommit layout auth files slot = .ok state

variable {high n : ℕ} {slot : Fin 2}

/-- What is not changed by changes elsewhere. -/
theorem RecordIdSlot.congr (h : RecordIdSlot layout auth files slot n)
    (hsound : TxnSound layout auth files) (hagree : AgreeOn layout slot files files') :
    RecordIdSlot layout auth files' slot n := by
  obtain ⟨g, hparse, hrecord⟩ := h.parse
  exact ⟨h.lt, g, (parseCommit_congr hsound hagree).trans hparse, hagree.1.trans hrecord⟩

/-- **The other slot is enough**: what is changed is a slot that is out of the running afterwards,
while the other one is valid. -/
theorem RecordIdInv.of_lost (h : RecordIdInv layout auth high files)
    (hinv : TxnInvariant layout auth files') (hagree : AgreeOn layout slot.rev files files')
    (hlost : ∃ r, fileObjectTxnParseCommit layout auth files' slot = .error r)
    (hother : 0 < high → ∃ state, fileObjectTxnParseCommit layout auth files slot.rev = .ok state) :
    RecordIdInv layout auth high files' := by
  have hrev := parseCommit_congr h.inv.sound hagree
  refine ⟨hinv, fun slot' state hparse ↦ ?_, fun hpos ↦ ?_⟩
  · by_cases hslot : slot' = slot
    · obtain ⟨r, hr⟩ := hlost
      rw [hslot, hr] at hparse
      cases hparse
    · obtain rfl : slot' = slot.rev := by
        rw [Fin.ext_iff, Fin.val_rev]
        omega
      obtain ⟨n, hn, hholds⟩ := h.holds _ state (hrev.symm.trans hparse)
      exact ⟨n, hn, hholds.congr h.inv.sound hagree⟩
  · obtain ⟨state, hstate⟩ := hother hpos
    exact ⟨slot.rev, state, hrev.trans hstate⟩

/-- The slot that is current is not the one that is written next. -/
theorem RecordIdInv.current (h : RecordIdInv layout auth high files)
    (hfound : ∀ r, fileObjectTxnRecover layout auth files = .error r → r = .fileNotFound)
    (hpos : 0 < high) : ∃ state, fileObjectTxnParseCommit layout auth files
      (txnTarget layout auth files).rev = .ok state := by
  rcases hrec : fileObjectTxnRecover layout auth files with r | current
  · obtain rfl := hfound r hrec
    obtain ⟨slot, state, hstate⟩ := h.found hpos
    obtain ⟨r, hr⟩ := recover_not_found.mp hrec slot
    rw [hr] at hstate
    cases hstate
  · refine ⟨current, ?_⟩
    rw [txnTarget, hrec]
    simp only [Fin.rev_rev]
    exact parseCommit_of_recover hrec

/-- The slot that is written is out of the running. -/
theorem RecordIdInv.of_broken (hvalid : fileObjectTxnLayoutValid static layout = true)
    (h : RecordIdInv layout auth high files)
    (hfound : ∀ r, fileObjectTxnRecover layout auth files = .error r → r = .fileNotFound)
    (hbroken : Broken layout auth (txnTarget layout auth files) files files') :
    RecordIdInv layout auth high files' := by
  obtain ⟨r, hr⟩ := hbroken.2
  exact h.of_lost (TxnAfter.of_broken hvalid h.inv.sound hfound hbroken).inv
    (hbroken.1.agreeOn_rev hvalid) ⟨r, parseCommit_of_commit_error hr⟩ (h.current hfound)

/-- The id is the current version. -/
def RecordIdCurrent (layout : FileObjectTxnLayout) (auth : FileObjectAuthenticator)
    (files : Files) (n : ℕ) : Prop :=
  ∃ state, fileObjectTxnRecover layout auth files = .ok state ∧
    RecordIdSlot layout auth files state.commitSlot n

/-- **A complete put of an id.** If the id was current already, both slots hold it now. -/
theorem RecordIdInv.of_put (hvalid : fileObjectTxnLayoutValid static layout = true)
    (h : RecordIdInv layout auth high files) (hn : high ≤ n) (hlt : n < 2 ^ 64) {generation : ℕ}
    (hput : TxnPutDone layout auth files files' slot generation (recordIdState n)) :
    RecordIdInv layout auth high files' ∧ RecordIdCurrent layout auth files' n ∧
      (RecordIdCurrent layout auth files n → RecordIdInv layout auth n files') := by
  have hinv := (TxnAfter.of_put hvalid h.inv.sound hput).inv
  have hrec := (hput.recover hvalid h.inv.sound).1
  have hparse := parseCommit_of_recover hrec
  have hslot : RecordIdSlot layout auth files' slot n := by
    refine ⟨hlt, generation, ?_, hput.record⟩
    exact hparse
  have hagree := hput.framed.agreeOn_rev hvalid
  have hrev := parseCommit_congr h.inv.sound hagree
  -- What both slots hold is at least what the other slot holds.
  have hall (m : ℕ) (hmn : m ≤ n) (hother : ∀ state,
      fileObjectTxnParseCommit layout auth files slot.rev = .ok state →
        ∃ k, m ≤ k ∧ RecordIdSlot layout auth files slot.rev k) :
      RecordIdInv layout auth m files' := by
    refine ⟨hinv, fun slot' state hstate ↦ ?_, fun _ ↦ ⟨slot, _, hparse⟩⟩
    by_cases hs : slot' = slot
    · exact ⟨n, hmn, hs ▸ hslot⟩
    · obtain rfl : slot' = slot.rev := by
        rw [Fin.ext_iff, Fin.val_rev]
        omega
      obtain ⟨k, hk, hholds⟩ := hother state (hrev.symm.trans hstate)
      exact ⟨k, hk, hholds.congr h.inv.sound hagree⟩
  refine ⟨hall high hn (h.holds _), ⟨_, hrec, hslot⟩, fun hcurrent ↦ hall n le_rfl fun _ _ ↦ ?_⟩
  obtain ⟨state, hstate, hholds⟩ := hcurrent
  have htarget : slot = state.commitSlot.rev := by
    rw [(nextState_ok hput.next).1, txnTarget, hstate]
  rw [htarget, Fin.rev_rev]
  exact ⟨n, le_rfl, hholds⟩

variable {s : FsState TxnRam} {state : FileObjectTxnState}

theorem wp_put_recordId (hvalid : fileObjectTxnLayoutValid static layout = true)
    (h : RecordIdInv layout auth high s.files) (hn : high ≤ n) (hlt : n < 2 ^ 64) :
    wp (fun _ ↦ True) (fileObjectTxnPut static layout auth (recordIdState n))
      (fun _ s' ↦ RecordIdInv layout auth high s'.files ∧ RecordIdCurrent layout auth s'.files n ∧
        (RecordIdCurrent layout auth s.files n → RecordIdInv layout auth n s'.files))
      (fun _ s' ↦ RecordIdInv layout auth high s'.files) s :=
  wp_mono (wp_fileObjectTxnPut_stages (P := RecordIdInv layout auth high)
      (N := fun files' ↦ RecordIdInv layout auth high files' ∧
        RecordIdCurrent layout auth files' n ∧
        (RecordIdCurrent layout auth s.files n → RecordIdInv layout auth n files'))
      hvalid (recordIdState n) h (fun hfound _ hbroken ↦ h.of_broken hvalid hfound hbroken)
      fun _ _ _ hput ↦ h.of_put hvalid hn hlt hput)
    (fun _ _ h' ↦ h') fun _ _ h' ↦ h'.elim id And.left

/-! ### The next id -/

/-- What is current can be read. -/
theorem RecordIdSlot.version (h : RecordIdSlot layout auth files state.commitSlot n)
    (hrec : fileObjectTxnRecover layout auth files = .ok state) :
    state.deleted = false ∧ txnVersion layout auth files = .ok (recordIdState n) := by
  obtain ⟨g, hparse, hrecord⟩ := h.parse
  have hstate := Except.ok.inj ((parseCommit_of_recover hrec).symm.trans hparse)
  rw [hstate] at hrec
  refine ⟨by rw [hstate], ?_⟩
  rw [txnVersion_of_live hrec rfl state.commitSlot.isLt hrecord]
  exact fileReadAt_txnRecordContent state.commitSlot g g (recordIdState n)

/-- An object that cannot be opened because it is not found has no version, or a deleted one. -/
theorem wp_fileObjectTxnOpen_found (s : FsState TxnRam) :
    wp (fun _ ↦ True) (fileObjectTxnOpen static layout auth) (fun _ _ ↦ True)
      (fun e _ ↦ e = .code .fileNotFound →
        fileObjectTxnRecover layout auth s.files = .error .fileNotFound ∨
          ∃ state, fileObjectTxnRecover layout auth s.files = .ok state ∧ state.deleted = true) s := by
  refine wp_guard (by simp) fun _ ↦ wp_get ?_
  refine wp_bind (wp_bind (wp_perform (wp_liftExcept (fun state hrec ↦ ?_) fun r hr he ↦ ?_)
    (by simp) (by simp) (by simp)))
  · refine wp_ite (fun hdeleted ↦ wp_bind (wp_fail fun _ ↦ .inr ⟨state, hrec, hdeleted⟩)) fun _ ↦ ?_
    rcases s.ram.freeEntry with - | i
    · exact wp_fail (by simp)
    · exact wp_bind (wp_modifyState (wp_pure trivial))
  · rw [Exit.code.injEq] at he
    exact .inl (he ▸ hr)

/-- The id that is read through a handle is the one that is current. -/
theorem wp_recordIdPrevious_high {handle : UInt32} (hn : n < 2 ^ 64)
    (hpinned : TxnPinned layout auth handle state (recordIdState n) s) :
    wp (fun _ ↦ True) (recordIdPrevious auth handle) (fun previous _ ↦ previous = n)
      (fun _ _ ↦ True) s := by
  have hread := wp_result (readsOnly_readAt handle 0 recordIdStateSize s (fun _ ↦ True) s rfl)
    fun os bytes hres ↦ (hpinned.readAt_ok 0 recordIdStateSize hres).2.2
  refine wp_seq (readsOnly_getInfo handle s _ s rfl) (fun info s₁ h₁ ↦ ?_) fun _ _ _ ↦ trivial
  obtain ⟨rfl, -⟩ := h₁
  refine wp_guard trivial fun _ ↦ ?_
  refine wp_seq hread (fun bytes s₂ h₂ ↦ ?_) fun _ _ _ ↦ trivial
  obtain ⟨-, hbytes⟩ := h₂
  refine wp_guard trivial fun _ ↦ ?_
  refine wp_guard trivial fun _ ↦ wp_pure ?_
  rw [hbytes, drop_zero, ← length_recordIdState n, take_length, beField_recordIdState hn]

/-- **The next id is above everything that has been handed out.** -/
theorem wp_recordIdNext_high (h : RecordIdInv layout auth high s.files) :
    wp (fun _ ↦ True) (recordIdNext static layout auth)
      (fun n s' ↦ high < n ∧ n < 2 ^ 64 ∧ s'.files = s.files) (fun _ s' ↦ s'.files = s.files) s := by
  have hfiles := @confined_recordIdNext static layout auth (fun _ ↦ False) (fun _ ↦ True) s
  suffices hhigh : wp (fun _ ↦ True) (recordIdNext static layout auth) (fun n _ ↦ high < n)
      (fun _ _ ↦ True) s by
    refine wp_mono (wp_and (wp_and hfiles wp_recordIdNext) hhigh) (fun n s' h' ↦ ?_)
      fun _ s' h' ↦ funext fun fid ↦ h'.1.1 fid id
    exact ⟨h'.2, h'.1.2.2, funext fun fid ↦ h'.1.1 fid id⟩
  have hopen := wp_and (@wp_fileObjectTxnOpen static layout auth s)
    (@wp_fileObjectTxnOpen_found static layout auth s)
  refine wp_bind (wp_onError (wp_seq hopen (fun handle s₁ h₁ ↦ wp_pure ?_) fun e s₁ h₁ ↦ ?_))
  · obtain ⟨state, data, hrec, hversion, -, hpinned⟩ := h₁.1.pinned h.inv
    obtain ⟨n, hn, hslot⟩ := h.holds _ state (parseCommit_of_recover hrec)
    obtain rfl : data = recordIdState n :=
      Except.ok.inj (hversion.symm.trans (hslot.version hrec).2)
    refine wp_bind (wp_onError (wp_mono (wp_recordIdPrevious_high hslot.lt hpinned)
      (fun previous s₂ hprevious ↦ ?_) fun e s₂ _ ↦ ?_))
    · refine (confined_fileObjectTxnClose (F := fun _ ↦ False) handle).wp_bind_trivial fun _ _ ↦
        wp_pure ?_
      omega
    · rcases e with r | -
      · exact Confined.wp_bind_trivial (F := fun _ ↦ False)
          (.onError (confined_fileObjectTxnClose handle) fun _ ↦ .pure _) fun _ _ ↦ wp_fail trivial
      · trivial
  · rcases e with r | -
    · -- There is nothing to be found only if nothing has been handed out.
      refine wp_ite (fun hr ↦ wp_pure (wp_pure (lt_succ_of_le (le_zero.mpr ?_))))
        fun _ ↦ wp_fail trivial
      by_contra hpos
      obtain ⟨slot, state, hstate⟩ := h.found (pos_of_ne_zero hpos)
      rcases h₁.2 (by rw [hr]) with hrec | ⟨current, hrec, hdeleted⟩
      · obtain ⟨r', hr'⟩ := recover_not_found.mp hrec slot
        rw [hr'] at hstate
        cases hstate
      · obtain ⟨n, -, hslot⟩ := h.holds _ current (parseCommit_of_recover hrec)
        rw [(hslot.version hrec).1] at hdeleted
        cases hdeleted
    · trivial

/-- **One allocation**: an id above everything that has been handed out, which is then the least
that either slot holds. -/
theorem wp_allocate_high (hvalid : fileObjectTxnLayoutValid static layout = true)
    (h : RecordIdInv layout auth high s.files) :
    wp (fun _ ↦ True) (fileObjectRecordIdAllocate static layout auth)
      (fun r s' ↦ high < r.toNat ∧ RecordIdInv layout auth r.toNat s'.files)
      (fun _ s' ↦ RecordIdInv layout auth high s'.files) s := by
  refine wp_seq (wp_recordIdNext_high h) (fun n s₁ h₁ ↦ ?_) fun _ s₁ h₁ ↦ ?_
  · obtain ⟨hn, hlt, hfiles⟩ := h₁
    have hinv : RecordIdInv layout auth high s₁.files := hfiles ▸ h
    refine wp_then (wp_put_recordId hvalid hinv hn.le hlt) fun _ s₂ h₂ ↦ ?_
    refine wp_then (wp_put_recordId hvalid h₂.1 hn.le hlt) fun _ s₃ h₃ ↦ wp_pure ?_
    rw [UInt64.toNat_ofNat', mod_eq_of_lt hlt]
    exact ⟨hn, h₃.2.2 h₂.2.1⟩
  · exact h₁ ▸ h

/-! ### Runs -/

/-- The ids that have been handed out, the newest first, and the files after that. Allocations may
fail or lose power anywhere, whatever the handle table holds; the rest of the system changes other
files; and a file of a slot may be lost or damaged, by which the slot is never made valid, while the
other slot is valid. -/
inductive RecordIdReachable (static : ℕ → Bool) (layout : FileObjectTxnLayout)
    (auth : FileObjectAuthenticator) : List UInt64 → Files → Prop
  | absent {files : Files}
      (h : ∀ slot, files (layout.recordFid slot) = none ∧ files (layout.commitFid slot) = none) :
      RecordIdReachable static layout auth [] files
  | allocated {ids : List UInt64} {files : Files} (h : RecordIdReachable static layout auth ids files)
      (ram : TxnRam) (os : List Outcome) {recordId : UInt64}
      (hok : (fileObjectRecordIdAllocate static layout auth).result ⟨files, ram⟩ os =
        .ok recordId) :
      RecordIdReachable static layout auth (recordId :: ids)
        ((fileObjectRecordIdAllocate static layout auth).final ⟨files, ram⟩ os).files
  | failed {ids : List UInt64} {files : Files} (h : RecordIdReachable static layout auth ids files)
      (ram : TxnRam) (os : List Outcome) {e : Exit Status}
      (herr : (fileObjectRecordIdAllocate static layout auth).result ⟨files, ram⟩ os = .error e) :
      RecordIdReachable static layout auth ids
        ((fileObjectRecordIdAllocate static layout auth).final ⟨files, ram⟩ os).files
  | other {ids : List UInt64} {files files' : Files}
      (h : RecordIdReachable static layout auth ids files)
      (hsame : ∀ slot, AgreeOn layout slot files files') :
      RecordIdReachable static layout auth ids files'
  | damageRecord {ids : List UInt64} {files : Files}
      (h : RecordIdReachable static layout auth ids files) (slot : Fin 2) (content : Option Bytes)
      (hbad : ∀ state, fileObjectTxnParseCommit layout auth
        (files.set (layout.recordFid slot) content) slot ≠ .ok state)
      (hother : ∃ state, fileObjectTxnParseCommit layout auth files slot.rev = .ok state) :
      RecordIdReachable static layout auth ids (files.set (layout.recordFid slot) content)
  | damageCommit {ids : List UInt64} {files : Files}
      (h : RecordIdReachable static layout auth ids files) (slot : Fin 2) (content : Option Bytes)
      (hbad : ∀ v, txnCommitState layout auth slot content ≠ .ok v)
      (hother : ∃ state, fileObjectTxnParseCommit layout auth files slot.rev = .ok state) :
      RecordIdReachable static layout auth ids (files.set (layout.commitFid slot) content)

/-- The greatest id that has been handed out, or zero. -/
def recordIdHigh (ids : List UInt64) : ℕ :=
  (ids.head?.map UInt64.toNat).getD 0

/-- **Along every run** each slot that is valid holds an id at least as great as any that has been
handed out. -/
theorem RecordIdReachable.invariant (hvalid : fileObjectTxnLayoutValid static layout = true)
    {ids : List UInt64} (h : RecordIdReachable static layout auth ids files) :
    RecordIdInv layout auth (recordIdHigh ids) files ∧ ids.Pairwise (· > ·) := by
  induction h with
  | @absent files h =>
    have hinv := (@TxnReachable.absent static layout auth files h).invariant hvalid
    have hnone (slot : Fin 2) := @parseCommit_of_commit_error layout auth files slot .fileNotFound
      (txnCommitState_empty (.inl (h slot).2))
    refine ⟨⟨hinv, fun slot state hstate ↦ ?_, fun hpos ↦ absurd hpos (lt_irrefl 0)⟩, .nil⟩
    rw [hnone] at hstate
    cases hstate
  | @allocated ids files _ ram os recordId hok ih =>
    have hpost := final_of_result_ok (wp_allocate_high (s := ⟨files, ram⟩) hvalid ih.1) hok
    refine ⟨hpost.2, pairwise_cons.mpr ⟨fun older holder ↦ ?_, ih.2⟩⟩
    -- The newest id so far is the greatest.
    refine UInt64.lt_iff_toNat_lt.mpr (lt_of_le_of_lt ?_ hpost.1)
    rcases ids with - | ⟨newest, rest⟩
    · cases holder
    · rcases mem_cons.mp holder with rfl | hrest
      · exact le_rfl
      · exact (UInt64.lt_iff_toNat_lt.mp (rel_of_pairwise_cons ih.2 hrest)).le
  | @failed ids files _ ram os e herr ih =>
    rcases run_of_wp (wp_allocate_high (s := ⟨files, ram⟩) hvalid ih.1)
      (fun _ _ ↦ trivial) with ⟨r, hr, -⟩ | ⟨e', -, hpost⟩
    · rw [herr] at hr
      cases hr
    · exact ⟨hpost, ih.2⟩
  | @other ids files files' _ hsame ih =>
    have hinv := (TxnSame.of_agree ih.1.inv hsame).inv
    refine ⟨⟨hinv, fun slot state hstate ↦ ?_, fun hpos ↦ ?_⟩, ih.2⟩
    · rw [parseCommit_congr ih.1.inv.sound (hsame slot)] at hstate
      obtain ⟨n, hn, hslot⟩ := ih.1.holds slot state hstate
      exact ⟨n, hn, hslot.congr ih.1.inv.sound (hsame slot)⟩
    · obtain ⟨slot, state, hstate⟩ := ih.1.found hpos
      exact ⟨slot, state, (parseCommit_congr ih.1.inv.sound (hsame slot)).trans hstate⟩
  | @damageRecord ids files _ slot content hbad hother ih =>
    have hframed : Framed layout slot files (files.set (layout.recordFid slot) content) :=
      (Framed.refl layout slot files).set_record content
    have hlost : ∃ r, fileObjectTxnParseCommit layout auth
        (files.set (layout.recordFid slot) content) slot = .error r := by
      rcases hp : fileObjectTxnParseCommit layout auth
        (files.set (layout.recordFid slot) content) slot with r | state
      · exact ⟨r, rfl⟩
      · exact absurd hp (hbad state)
    obtain ⟨r, hr⟩ := hlost
    have hinv : TxnInvariant layout auth (files.set (layout.recordFid slot) content) := by
      refine .of_parse_error (fun slot' state tag hc ↦ ih.1.inv.sound slot' state tag ?_) hr
      rwa [Files.set_of_ne _ _ ((distinct_of_layoutValid hvalid).1 _ _).symm] at hc
    exact ⟨ih.1.of_lost hinv (hframed.agreeOn_rev hvalid) ⟨r, hr⟩ fun _ ↦ hother, ih.2⟩
  | @damageCommit ids files _ slot content hbad hother ih =>
    have hframed : Framed layout slot files (files.set (layout.commitFid slot) content) :=
      (Framed.refl layout slot files).set_commit content
    obtain ⟨r, hr⟩ := commitState_set_error files hbad
    have hlost := parseCommit_of_commit_error hr
    have hinv : TxnInvariant layout auth (files.set (layout.commitFid slot) content) := by
      refine .of_parse_error (hframed.sound hvalid ih.1.inv.sound fun state tag hc ↦ ?_) hlost
      rw [hr] at hc
      cases hc
    exact ⟨ih.1.of_lost hinv (hframed.agreeOn_rev hvalid) ⟨r, hlost⟩ fun _ ↦ hother, ih.2⟩

/-- On a layout that is not valid nothing is handed out. -/
theorem wp_allocate_of_invalid (h : fileObjectTxnLayoutValid static layout = false) :
    wp (fun _ ↦ True) (fileObjectRecordIdAllocate static layout auth) (fun _ _ ↦ False)
      (fun _ _ ↦ True) s := by
  have hopen : fileObjectTxnOpen static layout auth = FaultProgram.fail .nullParam := by
    rw [fileObjectTxnOpen, h]
    rfl
  rw [fileObjectRecordIdAllocate, recordIdNext, hopen]
  exact wp_bind (wp_bind (wp_onError (wp_bind (wp_fail (wp_fail trivial)))))

/-- **Record ids are never reused**: in every run, whatever fails, wherever the power is lost, and
whichever slot is lost while the other one is valid, an id that is handed out is greater than all
that were handed out before, and once the greatest id has been, every allocation fails. -/
theorem record_ids_increase {ids : List UInt64}
    (h : RecordIdReachable static layout auth ids files) :
    ids.Pairwise (· > ·) ∧ ∀ (ram : TxnRam) (os : List Outcome),
      (∀ recordId, (fileObjectRecordIdAllocate static layout auth).result ⟨files, ram⟩ os =
        .ok recordId → ∀ older ∈ ids, older < recordId) ∧
      (.ofNat (2 ^ 64 - 1) ∈ ids → ∃ e,
        (fileObjectRecordIdAllocate static layout auth).result ⟨files, ram⟩ os = .error e) := by
  rcases hvalid : fileObjectTxnLayoutValid static layout with - | -
  · have hnone (files : Files) (ram : TxnRam) (os : List Outcome) (recordId : UInt64) :
        (fileObjectRecordIdAllocate static layout auth).result ⟨files, ram⟩ os ≠ .ok recordId :=
      fun hok ↦ final_of_result_ok (wp_allocate_of_invalid hvalid) hok
    have hids : ids = [] := by
      induction h with
      | absent | failed | other | damageRecord | damageCommit => first | rfl | assumption
      | allocated _ ram os hok => exact absurd hok (hnone _ ram os _)
    subst hids
    exact ⟨.nil, fun ram os ↦ ⟨fun recordId hok ↦ absurd hok (hnone files ram os recordId),
      fun hmem ↦ absurd hmem not_mem_nil⟩⟩
  · have hincrease := fun (ram : TxnRam) (os : List Outcome) (recordId : UInt64) hok ↦
      ((@RecordIdReachable.allocated static layout auth ids files h ram os recordId hok).invariant
        hvalid).2
    refine ⟨(h.invariant hvalid).2, fun ram os ↦ ⟨fun recordId hok older holder ↦
      rel_of_pairwise_cons (hincrease ram os recordId hok) holder, fun hmax ↦ ?_⟩⟩
    rcases hres : (fileObjectRecordIdAllocate static layout auth).result ⟨files, ram⟩ os
      with e | recordId
    · exact ⟨e, rfl⟩
    · have hlt := rel_of_pairwise_cons (hincrease ram os recordId hres) hmax
      have hnat := UInt64.lt_iff_toNat_lt.mp hlt
      have hbound := recordId.toNat_lt
      rw [UInt64.toNat_ofNat', mod_eq_of_lt (by decide)] at hnat
      omega

/-- The files after the first allocation of an allocator. -/
def exampleRecordIdFiles : Files :=
  ((fileObjectRecordIdAllocate (fun _ ↦ false) exampleTxnLayout exampleTxnAuth).final
    ⟨fun _ ↦ none, .boot⟩ []).files

/-- The first id is handed out; the second one is greater. -/
theorem record_ids_increase_second :
    (fileObjectRecordIdAllocate (fun _ ↦ false) exampleTxnLayout exampleTxnAuth).result
        ⟨exampleRecordIdFiles, .boot⟩ [] = .ok 2 ∧ (1 : UInt64) < 2 := by
  have hfirst : (fileObjectRecordIdAllocate (fun _ ↦ false) exampleTxnLayout exampleTxnAuth).result
      ⟨fun _ ↦ none, .boot⟩ [] = .ok 1 := by decide +kernel
  have hreach : RecordIdReachable (fun _ ↦ false) exampleTxnLayout exampleTxnAuth [1]
      exampleRecordIdFiles := .allocated (.absent fun _ ↦ ⟨rfl, rfl⟩) .boot [] hfirst
  have hsecond : (fileObjectRecordIdAllocate (fun _ ↦ false) exampleTxnLayout exampleTxnAuth).result
      ⟨exampleRecordIdFiles, .boot⟩ [] = .ok 2 := by decide +kernel
  exact ⟨hsecond,
    ((record_ids_increase hreach).2 .boot []).1 2 hsecond 1 (mem_singleton_self 1)⟩

/-- The first id is handed out; the next allocation loses power when the slot it writes to is empty;
then the other slot is lost. The allocator hands out the first id again. -/
theorem recordId_reused :
    let allocate := fileObjectRecordIdAllocate (fun _ ↦ false) exampleTxnLayout exampleTxnAuth
    let cut := allocate.final ⟨exampleRecordIdFiles, .boot⟩ [.ok, .ok, .ok, .ok, .ok, .cut]
    let lost := cut.files.set (exampleTxnLayout.commitFid 1) none
    allocate.result ⟨fun _ ↦ none, .boot⟩ [] = .ok 1 ∧
      allocate.result ⟨exampleRecordIdFiles, .boot⟩ [.ok, .ok, .ok, .ok, .ok, .cut] =
        .error .cut ∧
      allocate.result ⟨lost, .boot⟩ [] = .ok 1 := by
  decide +kernel

end PicoAll
