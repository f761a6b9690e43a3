import PicoAll.Lib.FieldRead
import PicoAll.Fs.ObjectStoreTxn

/-!
# What recovery selects

The pure half of the crash argument: which version `file_object_txn_recover` picks, and how that
depends on the four files.

A slot's verdict is a function of that slot's own two files, *provided* its commit names a record of
its own slot — which every commit the store has ever written does (`TxnSound`). Everything else
follows: destroying the slot that is not current changes nothing, and completing it makes the
completed version current.
-/

namespace PicoAll

open FaultProgram BigEndian List

variable {layout : FileObjectTxnLayout} {auth : FileObjectAuthenticator} {files files' : Files}
  {static : ℕ → Bool}

/-! ### Formats read back -/

theorem length_txnRecordFields (layout : FileObjectTxnLayout) (slot : Fin 2)
    (generation recordId payloadSize : ℕ) :
    (txnRecordFields layout slot generation recordId payloadSize).encode.length = 32 :=
  Fields.length_encode _

theorem length_txnCommitFields (layout : FileObjectTxnLayout) (commitSlot : Fin 2)
    (generation recordId recordFid recordSlot flags payloadSize : ℕ) :
    (txnCommitFields layout commitSlot generation recordId recordFid recordSlot flags
      payloadSize).encode.length = 32 :=
  Fields.length_encode _

variable {slot : Fin 2} {generation recordId : ℕ} {state : FileObjectTxnState} {r : Status}
  {payloadSize : ℕ} {recordTag : Bytes} {file : Option Bytes}

/-- A record header passes its own checks. -/
theorem txnRecordHeaderOk_encode (hg : generation < 256 ^ 4) (hr : recordId < 256 ^ 4)
    (hp : payloadSize < 256 ^ 4) :
    txnRecordHeaderOk layout slot generation recordId payloadSize
      (txnRecordFields layout slot generation recordId payloadSize).encode = true := by
  have hfits : (txnRecordFields layout slot generation recordId payloadSize).Fits := by
    simp only [txnRecordFields, Fields.Fits, forall_mem_cons]
    exact ⟨by decide, by decide, by decide, slot.isLt.trans (by decide), by decide,
      layout.namespaceId_lt, layout.objectType_lt, layout.objectId_lt, hg, hr, hp,
      layout.recordFid_lt slot, by decide, by simp⟩
  have h := Fields.at_encode hfits []
  rw [append_nil] at h
  generalize (txnRecordFields layout slot generation recordId payloadSize).encode = header at h ⊢
  simp only [txnRecordFields, Fields.At, Nat.reduceAdd, Nat.zero_add] at h
  simp [txnRecordHeaderOk, h]

/-- **A written record validates** against the tag it was written with. -/
theorem validateRecord_content {data : Bytes} (hg : generation < 256 ^ 4) (hr : recordId < 256 ^ 4)
    (hlen : data.length ≤ UINT32_MAX - txnRecordHeaderSize - authTagSize)
    (hfile : files (layout.recordFid slot) =
      some (txnRecordContent layout auth slot generation recordId data)) :
    fileObjectTxnValidateRecord layout auth files slot generation recordId data.length
      (auth.tag ((txnRecordFields layout slot generation recordId data.length).encode ++ data)) =
      .ok () := by
  have hheader := length_txnRecordFields layout slot generation recordId data.length
  have hok : txnRecordHeaderOk layout slot generation recordId data.length
      (txnRecordFields layout slot generation recordId data.length).encode = true :=
    txnRecordHeaderOk_encode hg hr
      (by simp only [UINT32_MAX, txnRecordHeaderSize, authTagSize] at hlen; omega)
  have htag := auth.length_tag
    ((txnRecordFields layout slot generation recordId data.length).encode ++ data)
  set header := (txnRecordFields layout slot generation recordId data.length).encode
  have hcontent : txnRecordContent layout auth slot generation recordId data =
      header ++ (data ++ auth.tag (header ++ data)) := by
    simp [txnRecordContent, header]
  have htake : (header ++ (data ++ auth.tag (header ++ data))).take 32 = header := by
    rw [← hheader, take_left]
  have hdrop : (header ++ (data ++ auth.tag (header ++ data))).drop 32 =
      data ++ auth.tag (header ++ data) := by
    rw [← hheader, drop_left]
  have hstored : (header ++ (data ++ auth.tag (header ++ data))).drop (32 + data.length) =
      auth.tag (header ++ data) := by
    rw [← drop_drop, hdrop, drop_left]
  have hslot : ¬(slot : ℕ) > 1 := by omega
  have hdata : fileHasData (some (header ++ (data ++ auth.tag (header ++ data)))) = true := by
    rw [fileHasData_some]
    intro h
    have hzero := congrArg List.length h
    simp [hheader] at hzero
  rw [fileObjectTxnValidateRecord, dif_neg hslot]
  simp only [Fin.eta, hfile, hcontent, htake, hdrop, hstored, hdata, take_left]
  have htake16 : (auth.tag (header ++ data)).take authTagSize = auth.tag (header ++ data) :=
    take_of_length_le htag.le
  simp [htake16, hok, htag, hheader, Nat.add_assoc]
  simpa using hlen

/-- **A written commit parses** up to what it names. -/
theorem txnCommitState_content {recordFid recordSlot flags : ℕ} (hg0 : generation ≠ 0)
    (hg : generation < 256 ^ 4) (hr : recordId < 256 ^ 4) (hf : recordFid < 256 ^ 2)
    (hs : recordSlot < 256 ^ 1) (hflags : flags ≤ 1) (hp : payloadSize < 256 ^ 4)
    (htag : recordTag.length = 16) :
    txnCommitState layout auth slot (some (txnCommitContent layout auth slot generation
        recordId recordFid recordSlot flags payloadSize recordTag)) =
      txnCommitReference layout slot generation recordId recordFid recordSlot flags payloadSize
        recordTag := by
  obtain ⟨fields, hfields⟩ : ∃ fields, fields = txnCommitFields layout slot generation recordId
    recordFid recordSlot flags payloadSize := ⟨_, rfl⟩
  have hheader : fields.encode.length = 32 := by rw [hfields, length_txnCommitFields]
  obtain ⟨tag, htagdef⟩ : ∃ tag, tag = auth.tag (fields.encode ++ recordTag) := ⟨_, rfl⟩
  have hlentag : tag.length = 16 := by rw [htagdef, auth.length_tag]
  obtain ⟨commit, hcommit⟩ : ∃ commit, commit = fields.encode ++ (recordTag ++ tag) := ⟨_, rfl⟩
  have hcontent : txnCommitContent layout auth slot generation recordId recordFid recordSlot flags
      payloadSize recordTag = commit := by
    rw [hcommit, htagdef, hfields, txnCommitContent, append_assoc]
  have hfits : fields.Fits := by
    simp only [hfields, txnCommitFields, Fields.Fits, forall_mem_cons]
    exact ⟨by decide, by decide, by decide, slot.isLt.trans (by decide), by decide,
      layout.namespaceId_lt, layout.objectType_lt, layout.objectId_lt, hg, hr, hf, hs, by omega, hp,
      by simp⟩
  have h := Fields.at_encode hfits (recordTag ++ tag)
  rw [← hcommit] at h
  have htake : commit.take 48 = fields.encode ++ recordTag := by
    rw [hcommit, ← append_assoc, take_left' (by simp [hheader, htag])]
  have hdrop : commit.drop 48 = tag := by
    rw [hcommit, ← append_assoc, drop_left' (by simp [hheader, htag])]
  have hrecordTag : (commit.drop 32).take 16 = recordTag := by
    rw [hcommit, drop_left' hheader, take_left' htag]
  have hsize : commit.length = 64 := by simp [hcommit, hheader, htag, hlentag]
  have hdata : fileHasData (some commit) = true := by
    rw [fileHasData_some, ← length_pos_iff_ne_nil, hsize]
    decide
  subst hfields
  simp only [txnCommitFields, Fields.At, Nat.reduceAdd, Nat.zero_add] at h
  rw [hcontent, txnCommitState]
  simp only [h, hrecordTag, htake, hdrop, hdata, hsize, ← htagdef]
  simp [hg0, Nat.not_lt.2 hflags, txnCommitHeaderSize, authTagSize]

/-! ### Facts about parsed commits -/

/-- What a commit that parses says about itself. -/
theorem txnCommitState_ok (h : txnCommitState layout auth slot file = .ok (state, recordTag)) :
    state.commitSlot = slot ∧ state.generation < 256 ^ 4 ∧
      (state.deleted = false → state.recordSlot < 2) := by
  rcases file with - | commit
  · cases h
  · have hg := beField_lt commit 16 4
    simp only [txnCommitState] at h
    split_ifs at h
    simp only [txnCommitReference] at h
    split_ifs at h
    · cases h
      exact ⟨rfl, hg, by simp⟩
    · cases h
      exact ⟨rfl, hg, fun _ ↦ by simp only; omega⟩

/-- A missing or empty commit file does not parse. -/
theorem txnCommitState_empty (h : file = none ∨ file = some []) :
    txnCommitState layout auth slot file = .error .fileNotFound := by
  rcases h with rfl | rfl <;> rfl

theorem txnCommitState_error (h : txnCommitState layout auth slot file = .error r) :
    fileObjectTxnInvalidRecord r = true := by
  rcases file with - | commit
  · cases h; rfl
  · simp only [txnCommitState] at h
    split_ifs at h
    any_goals (cases h; rfl)
    simp only [txnCommitReference] at h
    split_ifs at h <;> (cases h; rfl)

theorem validateRecord_error {slot : ℕ}
    (h : fileObjectTxnValidateRecord layout auth files slot generation recordId payloadSize recordTag =
      .error r) :
    fileObjectTxnInvalidRecord r = true := by
  simp only [fileObjectTxnValidateRecord] at h
  split_ifs at h
  · cases h; rfl
  · split at h
    · cases h; rfl
    · split_ifs at h <;> (cases h; rfl)

/-- What a slot's verdict is made of. -/
theorem parseCommit_cases (layout : FileObjectTxnLayout) (auth : FileObjectAuthenticator)
    (files : Files) (slot : Fin 2) :
    (∃ r, fileObjectTxnParseCommit layout auth files slot = .error r ∧
      fileObjectTxnInvalidRecord r = true) ∨
    ∃ state recordTag, fileObjectTxnParseCommit layout auth files slot = .ok state ∧
      txnCommitState layout auth slot (files (layout.commitFid slot)) = .ok (state, recordTag) := by
  rcases hc : txnCommitState layout auth slot (files (layout.commitFid slot)) with r | ⟨state, tag⟩
  · exact .inl ⟨r, by simp [fileObjectTxnParseCommit, hc], txnCommitState_error hc⟩
  · rcases hd : state.deleted with - | -
    · rcases hv : fileObjectTxnValidateRecord layout auth files state.recordSlot state.generation
        state.recordId state.payloadSize tag with r | u
      · exact .inl ⟨r, by simp [fileObjectTxnParseCommit, hc, hd, hv], validateRecord_error hv⟩
      · exact .inr ⟨state, tag, by simp [fileObjectTxnParseCommit, hc, hd, hv], rfl⟩
    · exact .inr ⟨state, tag, by simp [fileObjectTxnParseCommit, hc, hd], rfl⟩

/-- A commit that does not parse makes its slot invalid. -/
theorem parseCommit_of_commit_error
    (h : txnCommitState layout auth slot (files (layout.commitFid slot)) = .error r) :
    fileObjectTxnParseCommit layout auth files slot = .error r := by
  simp [fileObjectTxnParseCommit, h]

/-- Bytes that are no commit are refused where they are put. -/
theorem commitState_set_error {content : Option Bytes} (files : Files)
    (hbad : ∀ v, txnCommitState layout auth slot content ≠ .ok v) :
    ∃ r, txnCommitState layout auth slot
      (files.set (layout.commitFid slot) content (layout.commitFid slot)) = .error r := by
  rw [Files.set_self]
  rcases hc : txnCommitState layout auth slot content with r | v
  · exact ⟨r, rfl⟩
  · exact absurd hc (hbad v)

theorem parseCommit_ok (h : fileObjectTxnParseCommit layout auth files slot = .ok state) :
    ∃ recordTag, txnCommitState layout auth slot (files (layout.commitFid slot)) =
      .ok (state, recordTag) := by
  rcases parseCommit_cases layout auth files slot with ⟨r, hr, -⟩ | ⟨state', tag, hok, hc⟩
  · rw [h] at hr; cases hr
  · rw [h] at hok; cases hok; exact ⟨tag, hc⟩

/-! ### Selection -/

/-- **Recovery in closed form**: the verdicts on the two slots decide it, and an invalid slot merely
does not take part. -/
theorem recover_eq (layout : FileObjectTxnLayout) (auth : FileObjectAuthenticator) (files : Files) :
    fileObjectTxnRecover layout auth files =
      match fileObjectTxnParseCommit layout auth files 0,
        fileObjectTxnParseCommit layout auth files 1 with
      | .error _, .error _ => .error .fileNotFound
      | .ok a, .error _ => .ok a
      | .error _, .ok b => .ok b
      | .ok a, .ok b =>
        if b.generation = a.generation then .error .wrongData
        else if b.generation > a.generation then .ok b
        else .ok a := by
  rcases parseCommit_cases layout auth files 0 with ⟨r, h0, hr⟩ | ⟨a, -, h0, -⟩ <;>
    rcases parseCommit_cases layout auth files 1 with ⟨r', h1, hr'⟩ | ⟨b, -, h1, -⟩
  · simp [fileObjectTxnRecover, txnRecoverSlot, h0, h1, hr, hr']
  · simp [fileObjectTxnRecover, txnRecoverSlot, h0, h1, hr]
  · simp [fileObjectTxnRecover, txnRecoverSlot, h0, h1, hr']
  · simp only [fileObjectTxnRecover, txnRecoverSlot, h0, h1, foldlM_cons, foldlM_nil]
    by_cases heq : b.generation = a.generation
    · simp [heq]
    · by_cases hgt : b.generation > a.generation <;> simp [heq, hgt]

/-- What is selected is a valid version. -/
theorem parseCommit_of_recover (h : fileObjectTxnRecover layout auth files = .ok state) :
    fileObjectTxnParseCommit layout auth files state.commitSlot = .ok state := by
  have hslot {slot : Fin 2} {st : FileObjectTxnState}
      (hp : fileObjectTxnParseCommit layout auth files slot = .ok st) :
      fileObjectTxnParseCommit layout auth files st.commitSlot = .ok st := by
    obtain ⟨tag, hc⟩ := parseCommit_ok hp
    rw [(txnCommitState_ok hc).1, hp]
  rw [recover_eq] at h
  split at h
  · cases h
  · cases h; exact hslot ‹_›
  · cases h; exact hslot ‹_›
  · split_ifs at h <;> (cases h; exact hslot ‹_›)

/-- A valid slot beside an invalid one is selected. -/
theorem recover_of_rev_error (h : fileObjectTxnParseCommit layout auth files slot = .ok state)
    (hrev : fileObjectTxnParseCommit layout auth files slot.rev = .error r) :
    fileObjectTxnRecover layout auth files = .ok state := by
  rw [recover_eq]
  match slot, h, hrev with
  | 0, h0, h1 =>
    replace h1 : fileObjectTxnParseCommit layout auth files 1 = .error r := h1
    simp [h0, h1]
  | 1, h1, h0 =>
    replace h0 : fileObjectTxnParseCommit layout auth files 0 = .error r := h0
    simp [h0, h1]

/-- The newer of two valid slots is selected. -/
theorem recover_of_newer {state' : FileObjectTxnState}
    (h : fileObjectTxnParseCommit layout auth files slot = .ok state)
    (hrev : fileObjectTxnParseCommit layout auth files slot.rev = .ok state')
    (hgen : state'.generation < state.generation) :
    fileObjectTxnRecover layout auth files = .ok state := by
  rw [recover_eq]
  match slot, h, hrev with
  | 0, h0, h1 =>
    replace h1 : fileObjectTxnParseCommit layout auth files 1 = .ok state' := h1
    simp only [h0, h1]
    rw [if_neg (by omega), if_neg (by omega)]
  | 1, h1, h0 =>
    replace h0 : fileObjectTxnParseCommit layout auth files 0 = .ok state' := h0
    simp only [h0, h1]
    rw [if_neg (by omega), if_pos (by omega)]

/-- Nothing is found exactly when no slot is valid. -/
theorem recover_not_found :
    fileObjectTxnRecover layout auth files = .error .fileNotFound ↔
      ∀ slot, ∃ r, fileObjectTxnParseCommit layout auth files slot = .error r := by
  rw [recover_eq, Fin.forall_fin_two]
  rcases fileObjectTxnParseCommit layout auth files 0 with r | a <;>
    rcases fileObjectTxnParseCommit layout auth files 1 with r' | b <;> simp
  split_ifs <;> simp

/-! ### A slot depends on its own files only -/

/-- **Soundness of the stored commits**: a commit names a record of its own slot, or none. -/
def TxnSound (layout : FileObjectTxnLayout) (auth : FileObjectAuthenticator) (files : Files) :
    Prop :=
  ∀ slot state recordTag,
    txnCommitState layout auth slot (files (layout.commitFid slot)) = .ok (state, recordTag) →
      state.deleted = true ∨ state.recordSlot = slot

/-- Two file maps that agree on both files of a slot. -/
def AgreeOn (layout : FileObjectTxnLayout) (slot : Fin 2) (files files' : Files) : Prop :=
  files' (layout.recordFid slot) = files (layout.recordFid slot) ∧
    files' (layout.commitFid slot) = files (layout.commitFid slot)

theorem parseCommit_congr (hsound : TxnSound layout auth files)
    (h : AgreeOn layout slot files files') :
    fileObjectTxnParseCommit layout auth files' slot =
      fileObjectTxnParseCommit layout auth files slot := by
  simp only [fileObjectTxnParseCommit, h.2]
  rcases hc : txnCommitState layout auth slot (files (layout.commitFid slot)) with r | ⟨state, tag⟩
  · rfl
  · rcases hsound slot state tag hc with hd | hs
    · simp [hd]
    · simp [fileObjectTxnValidateRecord, hs, h.1]

/-- What the object currently reads as: the payload of the version recovery selects. -/
def txnVersion (layout : FileObjectTxnLayout) (auth : FileObjectAuthenticator) (files : Files) :
    Except Status Bytes := do
  let state ← fileObjectTxnRecover layout auth files
  if state.deleted then
    throw .fileNotFound
  if h : state.recordSlot < 2 then
    match files (layout.recordFid ⟨state.recordSlot, h⟩) with
    | none => throw .nullParam
    | some file => fileReadAt file txnRecordHeaderSize state.payloadSize
  else
    throw .nullParam

/-- The version that is there is in the record of its slot. -/
theorem txnVersion_of_live {layout : FileObjectTxnLayout} {auth : FileObjectAuthenticator}
    {files : Files} {file : Bytes} (h : fileObjectTxnRecover layout auth files = .ok state)
    (hlive : state.deleted = false) (hslot : state.recordSlot < 2)
    (hf : files (layout.recordFid ⟨state.recordSlot, hslot⟩) = some file) :
    txnVersion layout auth files = fileReadAt file txnRecordHeaderSize state.payloadSize := by
  simp only [txnVersion, h, ok_bind, hlive, Bool.false_eq_true, if_false, hslot, dite_true, hf]

/-- The slot the next version goes to. -/
def txnTarget (layout : FileObjectTxnLayout) (auth : FileObjectAuthenticator) (files : Files) :
    Fin 2 :=
  match fileObjectTxnRecover layout auth files with
  | .ok current => current.commitSlot.rev
  | .error _ => 0

/-- **Destroying the target slot changes nothing**: while its commit does not parse, the version
read is the one there was. -/
theorem version_of_target_broken (hsound : TxnSound layout auth files)
    (htarget : AgreeOn layout (txnTarget layout auth files).rev files files')
    (hbroken : txnCommitState layout auth (txnTarget layout auth files)
      (files' (layout.commitFid (txnTarget layout auth files))) = .error r)
    (hfound : ∀ r, fileObjectTxnRecover layout auth files = .error r → r = .fileNotFound) :
    fileObjectTxnRecover layout auth files' = fileObjectTxnRecover layout auth files ∧
      txnVersion layout auth files' = txnVersion layout auth files := by
  have hinvalid := parseCommit_of_commit_error hbroken
  have hother := parseCommit_congr hsound htarget
  rcases hrec : fileObjectTxnRecover layout auth files with r' | current
  · -- no slot was valid before, and the other one is still not
    obtain rfl := hfound r' hrec
    have hnone := recover_not_found.mp hrec
    have hrec' : fileObjectTxnRecover layout auth files' = .error .fileNotFound := by
      refine recover_not_found.mpr fun slot ↦ ?_
      by_cases hs : slot = txnTarget layout auth files
      · exact ⟨r, hs ▸ hinvalid⟩
      · obtain rfl : slot = (txnTarget layout auth files).rev := by
          rw [Fin.ext_iff, Fin.val_rev]
          omega
        rw [hother]
        exact hnone _
    exact ⟨hrec', by simp [txnVersion, hrec, hrec']⟩
  · -- the current version sits in the other slot
    have htgt : txnTarget layout auth files = current.commitSlot.rev := by
      simp [txnTarget, hrec]
    rw [htgt] at hinvalid hother htarget
    rw [Fin.rev_rev] at hother htarget
    have hcur := parseCommit_of_recover hrec
    have hrec' : fileObjectTxnRecover layout auth files' = .ok current :=
      recover_of_rev_error (hother.trans hcur) hinvalid
    refine ⟨hrec', ?_⟩
    obtain ⟨tag, hc⟩ := parseCommit_ok hcur
    rcases hsound _ _ _ hc with hd | hs
    · simp [txnVersion, hrec, hrec', hd]
    · simp [txnVersion, hrec, hrec', hs, htarget.1]

/-- **What is selected can be read**: its record is intact, and its payload is all there. -/
theorem version_of_recover (h : fileObjectTxnRecover layout auth files = .ok state)
    (hlive : state.deleted = false) :
    ∃ data, txnVersion layout auth files = .ok data ∧ data.length = state.payloadSize := by
  have hp := parseCommit_of_recover h
  obtain ⟨tag, hc⟩ := parseCommit_ok hp
  have hslot := (txnCommitState_ok hc).2.2 hlive
  have hv : fileObjectTxnValidateRecord layout auth files state.recordSlot state.generation
      state.recordId state.payloadSize tag = .ok () := by
    rcases hv : fileObjectTxnValidateRecord layout auth files state.recordSlot state.generation
      state.recordId state.payloadSize tag with r | u
    · simp [fileObjectTxnParseCommit, hc, hlive, hv] at hp
    · rfl
  rw [fileObjectTxnValidateRecord, dif_neg (by omega)] at hv
  rcases hf : files (layout.recordFid ⟨state.recordSlot, hslot⟩) with - | file
  · simp [hf] at hv
  · simp only [hf] at hv
    split_ifs at hv with hdata hsize
    have hread : fileReadAt file txnRecordHeaderSize state.payloadSize =
        .ok ((file.drop txnRecordHeaderSize).take state.payloadSize) := by
      rw [fileReadAt, if_neg (by omega)]
    refine ⟨(file.drop txnRecordHeaderSize).take state.payloadSize, ?_, ?_⟩
    · rw [txnVersion_of_live h hlive hslot hf, hread]
    · simp only [length_take, length_drop]
      omega

/-- **The stored state of an object**: commits are sound, and no two valid versions share a
generation. -/
structure TxnInvariant (layout : FileObjectTxnLayout) (auth : FileObjectAuthenticator)
    (files : Files) : Prop where
  /-- A commit names a record of its own slot. -/
  sound : TxnSound layout auth files
  /-- Valid versions are told apart by their generations. -/
  distinct : ∀ slot a b, fileObjectTxnParseCommit layout auth files slot = .ok a →
    fileObjectTxnParseCommit layout auth files slot.rev = .ok b → a.generation ≠ b.generation

/-- **Nothing valid is overlooked**: where some version is valid, recovery succeeds, with one at
least as new. -/
theorem TxnInvariant.recover_ok (hinv : TxnInvariant layout auth files)
    (h : fileObjectTxnParseCommit layout auth files slot = .ok state) :
    ∃ current, fileObjectTxnRecover layout auth files = .ok current ∧
      state.generation ≤ current.generation := by
  rcases hrev : fileObjectTxnParseCommit layout auth files slot.rev with r | other
  · exact ⟨state, recover_of_rev_error h hrev, le_rfl⟩
  · rcases Nat.lt_or_gt_of_ne (hinv.distinct slot _ _ h hrev) with hlt | hlt
    · refine ⟨other, recover_of_newer hrev ?_ hlt, hlt.le⟩
      rw [Fin.rev_rev]
      exact h
    · exact ⟨state, recover_of_newer h hrev hlt, le_rfl⟩

end PicoAll
