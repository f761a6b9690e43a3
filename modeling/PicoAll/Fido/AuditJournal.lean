import PicoAll.Fido.AuditLog

/-!
# The runs of the audit journal

The journal over its whole life: calls in any order, under any failure of the file operations and
with the power lost at any point, power cycles, and the rest of the system in between. The log runs
along with the files; it counts a call if what the journal loads has changed.

At any time the journal loads, and what it loads is a record of the log (`audit_journal`). A
checkpoint's head is the chain over the log up to the checkpoint's sequence number; later calls leave
that part of the log alone, but for the runs that count up one of its entries
(`audit_checkpoint_stays`).
-/

namespace PicoAll

open FaultProgram ByteBuffer AuditLog List

variable {sha256 : Bytes → Bytes} {serialHash : Bytes} {log log' : AuditLog} {record : Bytes}
  {files : Files} {s s' : FsState AuditRam} {A : Outcome → Prop}

/-! ### Loading -/

theorem fileHasData_of_length {record : Bytes} (h : record.length = auditRecordSize) :
    fileHasData (some record) = true := by
  rw [fileHasData_some]
  rintro rfl
  cases h

/-- A valid record that has been saved loads. -/
theorem auditLoad_of_valid (hfile : files auditJournalFid = some record)
    (hlen : record.length = auditRecordSize) (hvalid : auditRecordValid record = true) :
    auditLoad sha256 serialHash files = .ok record := by
  rw [auditLoad, hfile]
  simp [fileHasData_of_length hlen, hvalid]

/-- A file without data loads as an empty journal. -/
theorem auditLoad_of_empty (hfile : fileHasData (files auditJournalFid) = false) :
    auditLoad sha256 serialHash files = .ok (auditGenesisRecord sha256 serialHash) := by
  rw [auditLoad]
  rcases hrecord : files auditJournalFid with - | record
  · rfl
  · rw [hrecord] at hfile
    simp [hfile]

variable {n : ℕ} {entry : Bytes}

theorem slice_replicate_zero {off len : ℕ} (h : off + len ≤ n) :
    slice (List.replicate n (0 : UInt8)) off len = List.replicate len 0 := by
  rw [slice, drop_replicate, take_replicate, Nat.min_eq_left (by omega)]

/-- The log of an empty journal. -/
def AuditLog.empty : AuditLog :=
  ⟨[], 0⟩

theorem AuditLog.Ok.empty : empty.Ok :=
  ⟨le_rfl, by decide, by decide, fun n entry h ↦ by cases h⟩

/-- The record of an empty journal is that of the empty log. -/
theorem auditGenesisRecord_is (hsha : ∀ data, (sha256 data).length = 32) :
    AuditRecordIs sha256 serialHash .empty (auditGenesisRecord sha256 serialHash) := by
  have hgenesis : (auditGenesis sha256 serialHash).length = 32 := hsha _
  obtain ⟨zeros, hzeros⟩ : ∃ zeros, zeros = List.replicate auditRecordSize (0 : UInt8) := ⟨_, rfl⟩
  have hlenZeros : zeros.length = auditRecordSize := by rw [hzeros, length_replicate]
  have hfirst : 0 + ([1] : Bytes).length ≤ zeros.length := by
    rw [hlenZeros]
    decide
  have hlenFirst : (patch zeros 0 [1]).length = auditRecordSize := by
    rw [length_patch hfirst, hlenZeros]
  have hbase : 9 + (auditGenesis sha256 serialHash).length ≤ (patch zeros 0 [1]).length := by
    rw [hgenesis, hlenFirst]
    decide
  rw [auditGenesisRecord, ← hzeros]
  have hfront {off len : ℕ} (h : off + len ≤ 9) :
      slice (patch (patch zeros 0 [1]) 9 (auditGenesis sha256 serialHash)) off len =
        slice (patch zeros 0 [1]) off len :=
    slice_patch_of_disjoint hbase (.inl h)
  have hzero {off : ℕ} (h : 1 ≤ off ∧ off + 4 ≤ 9) :
      rd32 (patch (patch zeros 0 [1]) 9 (auditGenesis sha256 serialHash)) off = 0 := by
    have hle : 9 ≤ auditRecordSize := by decide
    rw [rd32, hfront h.2, slice_patch_of_disjoint hfirst (.inr h.1), hzeros,
      slice_replicate_zero (h.2.trans hle)]
    rfl
  refine ⟨by rw [length_patch hbase, hlenFirst], ?_, hzero (by decide), hzero (by decide), ?_, ?_⟩
  · rw [hfront (by decide)]
    exact slice_patch_self hfirst
  · rw [auditBase, ← hgenesis, slice_patch_self hbase]
    rfl
  · exact fun n _ entry hentry ↦ by cases hentry

/-! ### What the files hold -/

/-- **The files hold a log**: the journal loads, and what it loads is a record of the log. -/
structure AuditJournalIs (sha256 : Bytes → Bytes) (serialHash : Bytes) (log : AuditLog)
    (files : Files) : Prop where
  ok : log.Ok
  loads : ∃ record, auditLoad sha256 serialHash files = .ok record ∧
    AuditRecordIs sha256 serialHash log record

theorem AuditJournalIs.of_empty (hsha : ∀ data, (sha256 data).length = 32)
    (hfile : fileHasData (files auditJournalFid) = false) :
    AuditJournalIs sha256 serialHash .empty files :=
  ⟨.empty, _, auditLoad_of_empty hfile, auditGenesisRecord_is hsha⟩

theorem AuditJournalIs.of_saved (hok : log.Ok) (hrecord : AuditRecordIs sha256 serialHash log record)
    (hfile : files auditJournalFid = some record) : AuditJournalIs sha256 serialHash log files :=
  ⟨hok, record, auditLoad_of_valid hfile hrecord.length_eq (hrecord.valid hok), hrecord⟩

/-- What becomes of the journal in a call: it loads what it loaded, or it holds the log after the
call. -/
def AuditCallAfter (sha256 : Bytes → Bytes) (serialHash : Bytes) (log' : AuditLog) (files : Files)
    (s' : FsState AuditRam) : Prop :=
  auditLoad sha256 serialHash s'.files = auditLoad sha256 serialHash files ∨
    AuditJournalIs sha256 serialHash log' s'.files

/-- **Saving** the record of a log, whatever comes of it. -/
theorem wp_auditPut (hok : log'.Ok) (hrecord : AuditRecordIs sha256 serialHash log' record) :
    wp A (auditPut auditJournalFid record)
      (fun _ s' ↦ AuditJournalIs sha256 serialHash log' s'.files)
      (fun _ s' ↦ AuditCallAfter sha256 serialHash log' s.files s') s := by
  have hsaved (s₁ : FsState AuditRam) : AuditJournalIs sha256 serialHash log'
      (s₁.setFile auditJournalFid (some record)).files :=
    .of_saved hok hrecord (Files.set_self s₁.files auditJournalFid (some record))
  have hkept : AuditCallAfter sha256 serialHash log' s.files s := .inl rfl
  -- a file that is new has no data, and one that is not there has none either
  have hnew (hnone : s.files auditJournalFid = none) :
      AuditCallAfter sha256 serialHash log' s.files (s.setFile auditJournalFid (some [])) := by
    left
    rw [auditLoad_of_empty (by rw [FsState.files_setFile, Files.set_self]; rfl),
      auditLoad_of_empty (by rw [hnone]; rfl)]
  have hput (s₁ : FsState AuditRam) (h : AuditCallAfter sha256 serialHash log' s.files s₁) :
      wp A (do filePutData auditJournalFid record; flashCommitSync)
        (fun _ s' ↦ AuditJournalIs sha256 serialHash log' s'.files)
        (fun _ s' ↦ AuditCallAfter sha256 serialHash log' s.files s') s₁ := by
    refine wp_bind (wp_filePutData ?_ (fun _ ↦ h) (fun _ ↦ .inr (hsaved s₁)) fun _ ↦ h)
    exact wp_flashCommitSync (hsaved s₁) (.inr (hsaved s₁)) fun _ ↦ .inr (hsaved s₁)
  exact wp_bind (wp_fileNew (fun _ _ ↦ hput s hkept) (fun hnone ↦ hput _ (hnew hnone))
    (fun _ _ ↦ hkept) (fun _ hnone ↦ hnew hnone) fun _ _ ↦ hkept)

/-! ### The calls -/

/-- A call on the journal. -/
inductive AuditCall where
  /-- `audit_append`, or `audit_append_run`: an event that may be coalesced. -/
  | append (clock : AuditClock) (ev aux : UInt8) (detail : Bytes) (coalesce : Bool)
  /-- `audit_scrub`. -/
  | scrub
  /-- `audit_checkpoint`. -/
  | checkpoint (clock : AuditClock) (sign : Option (Bytes → Option (Bytes × Bytes)))
    (challenge : Bytes)
  /-- `audit_set_enabled`. -/
  | setEnabled (on : Bool)

def AuditCall.run (sha256 : Bytes → Bytes) (serialHash : Bytes) : AuditCall → FsProg AuditRam Unit
  | append clock ev aux detail coalesce =>
    auditAppendCall sha256 serialHash clock ev aux detail coalesce
  | scrub => auditScrub sha256 serialHash
  | checkpoint clock sign challenge => do
    let _ ← auditCheckpoint sha256 serialHash clock sign challenge
    pure ()
  | setEnabled on => auditSetEnabled on

/-- The log after a call that has been saved. -/
def AuditCall.logAfter (bootLogged : Bool) (log : AuditLog) : AuditCall → AuditLog
  | append clock ev aux detail coalesce => log.afterAppend clock bootLogged ev aux detail coalesce
  | scrub => log.scrub
  | checkpoint clock _ _ => log.afterAppend clock bootLogged auditCheckpointEvent 0 [] false
  | setEnabled _ => log

theorem AuditLog.Ok.scrub (hok : log.Ok) : log.scrub.Ok := by
  refine ⟨le_rfl, ?_, hok.length_le, hok.entry_ok⟩
  rw [show log.scrub.entries.length - log.scrub.start = 0 from Nat.sub_self _]
  exact Nat.zero_le _

section Calls

variable (hsha : ∀ data, (sha256 data).length = 32)
  (h : AuditJournalIs sha256 serialHash log s.files)

include hsha h

theorem AuditJournalIs.wp_appendCall (clock : AuditClock) (ev aux : UInt8) (detail : Bytes)
    (coalesce : Bool) :
    wp A (auditAppendCall sha256 serialHash clock ev aux detail coalesce)
      (fun _ s' ↦ AuditCallAfter sha256 serialHash
        (log.afterAppend clock s.ram.bootLogged ev aux detail coalesce) s.files s')
      (fun _ s' ↦ AuditCallAfter sha256 serialHash
        (log.afterAppend clock s.ram.bootLogged ev aux detail coalesce) s.files s') s := by
  obtain ⟨record, hload, hrecord⟩ := h.loads
  refine wp_get ?_
  refine wp_return (.inl rfl) fun _ ↦ ?_
  rw [hload, ok_bind]
  rcases happend : auditAppendRecord sha256 clock s.ram.bootLogged ev aux detail coalesce record with
    r | record'
  · exact wp_pure (.inl rfl)
  · obtain ⟨hrecord', hok'⟩ := hrecord.afterAppend hsha h.ok happend
    refine wp_onError (wp_seq (wp_auditPut hok' hrecord') (fun _ s₁ h₁ ↦ ?_) ?_)
    · exact wp_modifyState (.inr h₁)
    · intro e s₁ h₁
      cases e with
      | code r => exact wp_pure h₁
      | cut => exact h₁

theorem AuditJournalIs.wp_scrub :
    wp A (auditScrub sha256 serialHash)
      (fun _ s' ↦ AuditCallAfter sha256 serialHash log.scrub s.files s')
      (fun _ s' ↦ AuditCallAfter sha256 serialHash log.scrub s.files s') s := by
  obtain ⟨record, hload, hrecord⟩ := h.loads
  refine wp_get ?_
  refine wp_return (.inl rfl) fun _ ↦ ?_
  rw [hload]
  refine wp_bind (wp_pure ?_)
  exact wp_mono (wp_auditPut h.ok.scrub (hrecord.scrub hsha h.ok)) (fun _ _ h ↦ .inr h)
    fun _ _ h ↦ h

/-- What a checkpoint answers with is the head of the log, and it appends its event. -/
theorem AuditJournalIs.wp_checkpoint (clock : AuditClock)
    (sign : Option (Bytes → Option (Bytes × Bytes))) (challenge : Bytes) :
    wp A (auditCheckpoint sha256 serialHash clock sign challenge)
      (fun answer s' ↦ AuditCallAfter sha256 serialHash
          (log.afterAppend clock s.ram.bootLogged auditCheckpointEvent 0 [] false) s.files s' ∧
        ∀ checkpoint, answer = .ok checkpoint →
          checkpoint.seq = log.entries.length ∧
            checkpoint.head = auditFold sha256 serialHash log.entries)
      (fun _ s' ↦ AuditCallAfter sha256 serialHash
        (log.afterAppend clock s.ram.bootLogged auditCheckpointEvent 0 [] false) s.files s') s := by
  obtain ⟨record, hload, hrecord⟩ := h.loads
  refine wp_get ?_
  refine wp_return ⟨.inl rfl, nofun⟩ fun _ ↦ ?_
  rw [hload]
  rcases sign with - | sign
  · exact wp_pure ⟨.inl rfl, nofun⟩
  · dsimp only
    rcases sign (sha256 (auditCheckpointTag ++ auditHead sha256 record ++
        leBytes 4 (auditNext record) ++ challenge)) with - | ⟨signature, publicKey⟩
    · exact wp_pure ⟨.inl rfl, nofun⟩
    · refine wp_then (h.wp_appendCall hsha clock auditCheckpointEvent 0 [] false)
        fun _ s₁ h₁ ↦ wp_pure ⟨h₁, ?_⟩
      rintro _ ⟨⟩
      exact ⟨hrecord.next_eq, hrecord.head_eq⟩

/-- **A call** leaves what the journal loads, or does to it what it does to the log. -/
theorem AuditJournalIs.wp_call (call : AuditCall) :
    wp A (call.run sha256 serialHash)
      (fun _ s' ↦ AuditCallAfter sha256 serialHash (call.logAfter s.ram.bootLogged log) s.files s')
      (fun _ s' ↦ AuditCallAfter sha256 serialHash (call.logAfter s.ram.bootLogged log) s.files s')
      s := by
  cases call with
  | append clock ev aux detail coalesce => exact h.wp_appendCall hsha clock ev aux detail coalesce
  | scrub => exact h.wp_scrub hsha
  | checkpoint clock sign challenge =>
    exact wp_then (h.wp_checkpoint hsha clock sign challenge) fun _ _ h ↦ wp_pure h.1
  | setEnabled on =>
    -- the journal's own file is not touched
    have hset (s₁ : FsState AuditRam) (c : Option Bytes) (h₁ : s₁.files auditJournalFid =
        s.files auditJournalFid) : (s₁.setFile auditEnabledFid c).files auditJournalFid =
          s.files auditJournalFid := by
      rw [FsState.files_setFile, Files.set_of_ne _ _ (by decide), h₁]
    have hafter (s₁ : FsState AuditRam) (h₁ : s₁.files auditJournalFid = s.files auditJournalFid) :
        AuditCallAfter sha256 serialHash log s.files s₁ := by
      left
      rw [auditLoad, auditLoad, h₁]
    have hput (s₁ : FsState AuditRam) (h₁ : s₁.files auditJournalFid = s.files auditJournalFid) :
        wp A (do filePutData auditEnabledFid [if on then 1 else 0]; flashCommitSync)
          (fun _ s' ↦ AuditCallAfter sha256 serialHash log s.files s')
          (fun _ s' ↦ AuditCallAfter sha256 serialHash log s.files s') s₁ := by
      have h₂ := hafter _ (hset s₁ (some [if on then 1 else 0]) h₁)
      refine wp_bind (wp_filePutData ?_ (fun _ ↦ hafter s₁ h₁) (fun _ ↦ h₂) fun _ ↦ hafter s₁ h₁)
      exact wp_flashCommitSync h₂ h₂ fun _ ↦ h₂
    exact wp_bind (wp_fileNew (fun _ _ ↦ hput s rfl) (fun _ ↦ hput _ (hset s _ rfl))
      (fun _ _ ↦ .inl rfl) (fun _ _ ↦ hafter _ (hset s _ rfl)) fun _ _ ↦ .inl rfl)

end Calls

/-! ### Runs -/

/-- A step of the journal's life, with the log running along. `Allowed` says which calls are made. -/
inductive AuditStep (sha256 : Bytes → Bytes) (serialHash : Bytes)
    (Allowed : AuditLog → AuditRam → AuditCall → Prop) :
    AuditLog × FsState AuditRam → AuditLog × FsState AuditRam → Prop
  /-- A call that changes nothing of what the journal loads. -/
  | kept {log : AuditLog} {s : FsState AuditRam} (call : AuditCall) (hcall : Allowed log s.ram call)
      (os : List Outcome) (hsame : auditLoad sha256 serialHash
        ((call.run sha256 serialHash).final s os).files = auditLoad sha256 serialHash s.files) :
      AuditStep sha256 serialHash Allowed (log, s) (log, (call.run sha256 serialHash).final s os)
  /-- A call that does. -/
  | saved {log : AuditLog} {s : FsState AuditRam} (call : AuditCall) (hcall : Allowed log s.ram call)
      (os : List Outcome) (hchanged : auditLoad sha256 serialHash
        ((call.run sha256 serialHash).final s os).files ≠ auditLoad sha256 serialHash s.files) :
      AuditStep sha256 serialHash Allowed (log, s)
        (call.logAfter s.ram.bootLogged log, (call.run sha256 serialHash).final s os)
  /-- The power is switched off and on. -/
  | powerCycle {log : AuditLog} {s : FsState AuditRam} :
      AuditStep sha256 serialHash Allowed (log, s) (log, { s with ram := ⟨false⟩ })
  /-- The rest of the system. -/
  | other {log : AuditLog} {s s' : FsState AuditRam} (hram : s'.ram = s.ram)
      (hsame : s'.files auditJournalFid = s.files auditJournalFid) :
      AuditStep sha256 serialHash Allowed (log, s) (log, s')

/-- The states that runs lead to, from a device without a journal. -/
def AuditReachable (sha256 : Bytes → Bytes) (serialHash : Bytes) (log : AuditLog)
    (s : FsState AuditRam) : Prop :=
  ∃ s₀ : FsState AuditRam, fileHasData (s₀.files auditJournalFid) = false ∧
    Relation.ReflTransGen (AuditStep sha256 serialHash fun _ _ _ ↦ True) (.empty, s₀) (log, s)

variable {Allowed : AuditLog → AuditRam → AuditCall → Prop} {a b : AuditLog × FsState AuditRam}

theorem AuditStep.journalIs (hsha : ∀ data, (sha256 data).length = 32)
    (hstep : AuditStep sha256 serialHash Allowed a b)
    (h : AuditJournalIs sha256 serialHash a.1 a.2.files) :
    AuditJournalIs sha256 serialHash b.1 b.2.files := by
  cases hstep with
  | kept call hcall os hsame =>
    obtain ⟨record, hload, hrecord⟩ := h.loads
    exact ⟨h.ok, record, hsame.trans hload, hrecord⟩
  | saved call hcall os hchanged =>
    exact (final_of_wp (h.wp_call hsha call) os).resolve_left hchanged
  | powerCycle => exact h
  | other hram hsame =>
    obtain ⟨record, hload, hrecord⟩ := h.loads
    exact ⟨h.ok, record, by rw [auditLoad, hsame]; exact hload, hrecord⟩

/-- Every run keeps the journal a record of the log. -/
theorem AuditStep.journalIs_run (hsha : ∀ data, (sha256 data).length = 32)
    (hrun : Relation.ReflTransGen (AuditStep sha256 serialHash Allowed) a b)
    (h : AuditJournalIs sha256 serialHash a.1 a.2.files) :
    AuditJournalIs sha256 serialHash b.1 b.2.files := by
  induction hrun with
  | refl => exact h
  | tail _ hstep ih => exact hstep.journalIs hsha ih

theorem AuditReachable.journalIs (hsha : ∀ data, (sha256 data).length = 32)
    (h : AuditReachable sha256 serialHash log s) :
    AuditJournalIs sha256 serialHash log s.files := by
  obtain ⟨s₀, hempty, hrun⟩ := h
  exact AuditStep.journalIs_run hsha hrun (.of_empty hsha hempty)

/-! ### What holds of the journal at any time -/

/-- The entries that `append` adds when it counts nothing up: the start of the device, if it has not
been logged, and the event. -/
def auditAppended (clock : AuditClock) (bootLogged : Bool) (ev aux : UInt8) (detail : Bytes)
    (next : ℕ) : List Bytes :=
  if bootLogged then [auditEventEntry clock next ev aux detail]
  else [auditEventEntry clock next auditBoot 0 [], auditEventEntry clock (next + 1) ev aux detail]

theorem AuditLog.entries_append (log : AuditLog) (entry : Bytes) :
    (log.append entry).entries = log.entries ++ [entry] :=
  rfl

/-- An append that counts nothing up adds the event, and the start of the device before it. -/
theorem AuditLog.entries_afterAppend {clock : AuditClock} {bootLogged : Bool} {ev aux : UInt8}
    {detail : Bytes} {coalesce : Bool}
    (hnone : bootLogged = true → coalesce = true → log.run ev = none) :
    (log.afterAppend clock bootLogged ev aux detail coalesce).entries =
      log.entries ++ auditAppended clock bootLogged ev aux detail log.entries.length := by
  rw [afterAppend, auditAppended]
  rcases bootLogged with - | -
  · show ((log.appendEvent clock auditBoot 0 []).appendEvent clock ev aux detail).entries = _
    rw [appendEvent, entries_append, appendEvent, entries_append, append_assoc, length_append]
    rfl
  · have hrun : (if coalesce then log.run ev else none) = none := by
      split_ifs with hcoalesce
      · exact hnone rfl hcoalesce
      · rfl
    rw [← afterAppend, afterAppend_of_none hrun]
    rfl

/-- **The journal at any time.** It loads a record; the window of the record is no larger than the
ring, and each slot of the window has the entry of its sequence number; the head is the hash chain
over all entries there have been, with the counts they have last, and neither an eviction nor a scrub
changes it; every record that an append or a scrub saves loads again; and an append that counts
nothing up extends the chain by its event, and by the start of the device before it if that has not
been logged. -/
theorem audit_journal (hsha : ∀ data, (sha256 data).length = 32)
    (h : AuditReachable sha256 serialHash log s) :
    ∃ record, auditLoad sha256 serialHash s.files = .ok record ∧
      auditStart record ≤ auditNext record ∧
      auditNext record - auditStart record ≤ auditSlots ∧
      auditNext record = log.entries.length ∧
      (∀ n, auditStart record ≤ n → n < auditNext record →
        rd32 (auditSlot record n) 0 = n ∧ log.entries[n]? = some (auditSlot record n)) ∧
      auditHead sha256 record = auditFold sha256 serialHash log.entries ∧
      (auditStart record < auditNext record →
        auditHead sha256 (auditEvict sha256 record) = auditHead sha256 record) ∧
      auditHead sha256 (auditScrubRecord sha256 record) = auditHead sha256 record ∧
      auditRecordValid (auditScrubRecord sha256 record) = true ∧
      ∀ clock bootLogged ev aux detail coalesce record',
        auditAppendRecord sha256 clock bootLogged ev aux detail coalesce record = .ok record' →
        auditRecordValid record' = true ∧
          ((bootLogged = true → coalesce = true → auditRun ev record = none) →
            auditHead sha256 record' = (auditAppended clock bootLogged ev aux detail
              (auditNext record)).foldl (auditChain sha256) (auditHead sha256 record)) := by
  have hjournal := h.journalIs hsha
  have hok := hjournal.ok
  obtain ⟨record, hload, hrecord⟩ := hjournal.loads
  refine ⟨record, hload, ?_, ?_, hrecord.next_eq, fun n hlow hhigh ↦ ?_, hrecord.head_eq,
    fun hlt ↦ ?_, ?_, (hrecord.scrub hsha hok).valid hok.scrub, ?_⟩
  · rw [hrecord.next_eq, hrecord.start_eq]
    exact hok.start_le
  · rw [hrecord.next_eq, hrecord.start_eq]
    exact hok.window_le
  · rw [hrecord.next_eq] at hhigh
    rw [hrecord.start_eq] at hlow
    have hget := getElem?_eq_getElem hhigh
    rw [hrecord.slot_eq n hlow _ hget]
    exact ⟨(hok.entry_ok n _ hget).2, hget⟩
  · rw [hrecord.next_eq, hrecord.start_eq] at hlt
    rw [(hrecord.evict hsha hok hlt).head_eq, hrecord.head_eq]
    rfl
  · rw [(hrecord.scrub hsha hok).head_eq, hrecord.head_eq]
    rfl
  · intro clock bootLogged ev aux detail coalesce record' happend
    obtain ⟨hrecord', hok'⟩ := hrecord.afterAppend hsha hok happend
    refine ⟨hrecord'.valid hok', fun hnone ↦ ?_⟩
    rw [hrecord.run_eq] at hnone
    rw [hrecord'.head_eq, hrecord.head_eq, hrecord.next_eq, entries_afterAppend hnone,
      auditFold, auditFold, foldl_append]

/-- A hash for examples: the last 32 bytes of the data. -/
def auditToyHash (data : Bytes) : Bytes :=
  (List.replicate 32 0 ++ data).drop data.length

/-- A clock that has not been set. -/
def auditToyClock : AuditClock :=
  ⟨false, 0, 7⟩

/-- A device that has just been powered up, with the journal enabled and nothing in it. -/
def auditToyState : FsState AuditRam :=
  ⟨fun fid ↦ if fid = auditEnabledFid then some [1] else none, ⟨false⟩⟩

theorem auditToyState_reachable : AuditReachable auditToyHash [] .empty auditToyState :=
  ⟨auditToyState, rfl, .refl⟩

theorem length_auditToyHash (data : Bytes) : (auditToyHash data).length = 32 := by
  rw [auditToyHash, length_drop, length_append, length_replicate, Nat.add_sub_cancel]

/-- The first append after the start of the device adds two entries. -/
theorem audit_first_append_adds_two :
    AuditReachable auditToyHash [] .empty auditToyState ∧
      auditNext <$> auditLoad auditToyHash [] auditToyState.files = .ok 0 ∧
      auditNext <$> auditLoad auditToyHash [] ((auditAppend auditToyHash [] auditToyClock
        5 0 []).final auditToyState []).files = .ok 2 :=
  ⟨auditToyState_reachable, by decide +kernel, by decide +kernel⟩

/-- An assertion, counted up if there has been one. -/
def auditToyAssertion : AuditCall :=
  .append auditToyClock auditGetAssert 0 [] true

/-- The state after the start of the device and one assertion. -/
def auditToyAsserted : FsState AuditRam :=
  (auditToyAssertion.run auditToyHash []).final auditToyState []

theorem auditToyAsserted_reachable : ∃ log, AuditReachable auditToyHash [] log auditToyAsserted :=
  ⟨_, auditToyState, rfl, .single (.saved auditToyAssertion trivial [] (by decide +kernel))⟩

/-- A journal with the start of the device and an assertion in it. -/
theorem audit_journal_asserted :
    ∃ record, auditLoad auditToyHash [] auditToyAsserted.files = .ok record ∧
      auditNext record = 2 ∧ auditStart record ≤ auditNext record ∧
      auditHead auditToyHash (auditScrubRecord auditToyHash record) = auditHead auditToyHash record := by
  obtain ⟨log, hreachable⟩ := auditToyAsserted_reachable
  obtain ⟨record, hload, hle, -, -, -, -, -, hscrub, -⟩ :=
    audit_journal length_auditToyHash hreachable
  have hnext : auditNext <$> auditLoad auditToyHash [] auditToyAsserted.files = .ok 2 := by
    decide +kernel
  rw [hload] at hnext
  exact ⟨record, hload, Except.ok.inj hnext, hle, hscrub⟩

/-! ### After a checkpoint -/

/-- The calls that count up no entry below a sequence number. -/
def AuditLog.Spares (seq : ℕ) (log : AuditLog) (ram : AuditRam) : AuditCall → Prop
  | .append _ ev _ _ coalesce =>
    ram.bootLogged = true → coalesce = true → ∀ n, log.run ev = some n → seq ≤ n
  | _ => True

/-- An entry that has been counted up for another event of its kind. -/
def AuditCountedUp (entry entry' : Bytes) : Prop :=
  ∃ ev aux, auditIsEvent ev entry = true ∧ entry' = auditCountUp ev aux entry

/-- What a call does to an entry of the log: nothing, or it counts it up. -/
theorem AuditCall.getElem?_logAfter (call : AuditCall) (bootLogged : Bool)
    (hget : log.entries[n]? = some entry) :
    (call.logAfter bootLogged log).entries[n]? = some entry ∨
      ∃ entry', (call.logAfter bootLogged log).entries[n]? = some entry' ∧
        AuditCountedUp entry entry' ∧ ∃ clock ev aux detail,
          call = .append clock ev aux detail true ∧ bootLogged = true ∧ log.run ev = some n := by
  obtain ⟨hlt, -⟩ := List.getElem?_eq_some_iff.mp hget
  -- what an append that counts nothing up adds comes after the entries there are
  have hadded {clock ev aux detail coalesce} (hnone : bootLogged = true → coalesce = true →
      log.run ev = none) : (log.afterAppend clock bootLogged ev aux detail coalesce).entries[n]? =
        some entry := by
    rw [entries_afterAppend hnone, getElem?_append_left hlt, hget]
  cases call with
  | append clock ev aux detail coalesce =>
    show (log.afterAppend clock bootLogged ev aux detail coalesce).entries[n]? = _ ∨ _
    rcases bootLogged with - | -
    · exact .inl (hadded nofun)
    · rcases coalesce with - | -
      · exact .inl (hadded nofun)
      · rcases hrun : log.run ev with - | m
        · exact .inl (hadded fun _ _ ↦ hrun)
        · have hentries : (log.afterAppend clock true ev aux detail true).entries =
              log.entries.set m (auditCountUp ev aux (log.entries.getD m [])) := by
            rw [afterAppend_of_run hrun]
          rcases eq_or_ne m n with rfl | hne
          · right
            have hentry : log.entries.getD m [] = entry := by
              rw [getD_eq_getElem?_getD, hget]
              rfl
            refine ⟨auditCountUp ev aux entry, ?_,
              ⟨ev, aux, hentry ▸ (auditFindRun_eq_some hrun).2.2.1, rfl⟩, clock, ev, aux, detail,
              rfl, rfl, hrun⟩
            show (log.afterAppend clock true ev aux detail true).entries[m]? = _
            rw [hentries, getElem?_set_self hlt, hentry]
          · left
            rw [hentries, getElem?_set_ne hne, hget]
  | scrub => exact .inl hget
  | checkpoint clock sign challenge => exact .inl (hadded nofun)
  | setEnabled on => exact .inl hget

/-- A step can only count an entry up, and does that only in a call that does not spare it. -/
theorem AuditStep.getElem?_entries (hstep : AuditStep sha256 serialHash Allowed a b)
    (hget : a.1.entries[n]? = some entry) :
    b.1.entries[n]? = some entry ∨
      ∃ entry', b.1.entries[n]? = some entry' ∧ AuditCountedUp entry entry' ∧
        ∃ call, Allowed a.1 a.2.ram call ∧ ∀ seq, n < seq → ¬ a.1.Spares seq a.2.ram call := by
  cases hstep with
  | kept => exact .inl hget
  | @saved log s call hcall os hchanged =>
    rcases call.getElem?_logAfter s.ram.bootLogged hget with
      hkept | ⟨entry', hget', hcounted, clock, ev, aux, detail, rfl, hboot, hrun⟩
    · exact .inl hkept
    · refine .inr ⟨entry', hget', hcounted, _, hcall, fun seq hlt hspares ↦ ?_⟩
      exact absurd (hspares hboot rfl n hrun) (by omega)
  | powerCycle => exact .inl hget
  | other => exact .inl hget

/-- Over a run, an entry is counted up any number of times, and that is all. -/
theorem AuditStep.countedUp_run
    (hrun : Relation.ReflTransGen (AuditStep sha256 serialHash Allowed) a b)
    (hget : a.1.entries[n]? = some entry) :
    ∃ entry', b.1.entries[n]? = some entry' ∧
      Relation.ReflTransGen AuditCountedUp entry entry' := by
  induction hrun with
  | refl => exact ⟨entry, hget, .refl⟩
  | tail _ hstep ih =>
    obtain ⟨entry₁, hget₁, hcounted₁⟩ := ih
    rcases hstep.getElem?_entries hget₁ with hkept | ⟨entry₂, hget₂, hcounted₂, -⟩
    · exact ⟨entry₁, hkept, hcounted₁⟩
    · exact ⟨entry₂, hget₂, hcounted₁.tail hcounted₂⟩

/-- Over a run whose calls all spare it, an entry stays as it is. -/
theorem AuditStep.spared_run {seq : ℕ}
    (hrun : Relation.ReflTransGen (AuditStep sha256 serialHash (Spares seq)) a b) (hlt : n < seq)
    (hget : a.1.entries[n]? = some entry) : b.1.entries[n]? = some entry := by
  induction hrun with
  | refl => exact hget
  | tail _ hstep ih =>
    refine (hstep.getElem?_entries ih).resolve_right ?_
    rintro ⟨-, -, -, call, hspares, hnot⟩
    exact hnot seq hlt hspares

/-- The chain over the entries of a record that are retained below a sequence number. -/
def auditHeadUpTo (sha256 : Bytes → Bytes) (record : Bytes) (seq : ℕ) : Bytes :=
  ((List.range' (auditStart record) (seq - auditStart record)).map (auditSlot record)).foldl
    (auditChain sha256) (auditBase record)

theorem AuditRecordIs.headUpTo_eq (h : AuditRecordIs sha256 serialHash log record) {seq : ℕ}
    (hstart : auditStart record ≤ seq) (hseq : seq ≤ log.entries.length) :
    auditHeadUpTo sha256 record seq = auditFold sha256 serialHash (log.entries.take seq) := by
  rw [h.start_eq] at hstart
  have hentries : (List.range' log.start (seq - log.start)).map (auditSlot record) =
      (log.entries.take seq).drop log.start := by
    refine ext_getElem? fun i ↦ ?_
    rw [getElem?_map, getElem?_drop, getElem?_take]
    by_cases hi : i < seq - log.start
    · have hget := getElem?_eq_getElem (show log.start + i < log.entries.length by omega)
      rw [getElem?_range' hi, if_pos (by omega), hget, Option.map_some,
        h.slot_eq _ (by omega) _ (by rw [Nat.one_mul]; exact hget)]
    · rw [getElem?_eq_none (by rw [length_range']; omega), if_neg (by omega)]
      rfl
  have htake : log.entries.take log.start = (log.entries.take seq).take log.start := by
    rw [take_take, Nat.min_eq_left hstart]
  rw [auditHeadUpTo, h.start_eq, hentries, h.base_eq, auditFold, auditFold, ← foldl_append,
    htake, take_append_drop]

/-- **The log after a checkpoint.** Later calls change an entry only by counting it up. While no
append counts up an entry below the checkpoint's sequence number, the entries below it stay as they
are, and the journal yields the checkpoint's head for as long as it retains them. -/
theorem audit_checkpoint_stays (hsha : ∀ data, (sha256 data).length = 32) {log₀ : AuditLog}
    {s₀ : FsState AuditRam} (h : AuditReachable sha256 serialHash log₀ s₀) {clock : AuditClock}
    {sign : Option (Bytes → Option (Bytes × Bytes))} {challenge : Bytes} {os : List Outcome}
    {checkpoint : AuditCheckpoint}
    (hcheckpoint : (auditCheckpoint sha256 serialHash clock sign challenge).result s₀ os =
      .ok (.ok checkpoint)) :
    (∀ log s, Relation.ReflTransGen (AuditStep sha256 serialHash fun _ _ _ ↦ True) (log₀, s₀)
        (log, s) → ∀ n entry, n < checkpoint.seq → log₀.entries[n]? = some entry →
      ∃ entry', log.entries[n]? = some entry' ∧
        Relation.ReflTransGen AuditCountedUp entry entry') ∧
    ∀ log s, Relation.ReflTransGen (AuditStep sha256 serialHash (AuditLog.Spares checkpoint.seq))
        (log₀, s₀) (log, s) →
      log.entries.take checkpoint.seq = log₀.entries ∧
      ∃ record, auditLoad sha256 serialHash s.files = .ok record ∧
        checkpoint.seq ≤ auditNext record ∧
        (∀ n, auditStart record ≤ n → n < checkpoint.seq →
          log₀.entries[n]? = some (auditSlot record n)) ∧
        (auditStart record ≤ checkpoint.seq →
          auditHeadUpTo sha256 record checkpoint.seq = checkpoint.head) := by
  have hjournal₀ := h.journalIs hsha
  obtain ⟨-, hanswer⟩ :=
    final_of_result_ok (hjournal₀.wp_checkpoint hsha clock sign challenge) hcheckpoint
  obtain ⟨hseq, hhead⟩ := hanswer checkpoint rfl
  refine ⟨fun log s hrun n entry _ hget ↦ AuditStep.countedUp_run hrun hget, fun log s hrun ↦ ?_⟩
  have hspared {n : ℕ} {entry : Bytes} (hget : log₀.entries[n]? = some entry) :
      log.entries[n]? = some entry := by
    obtain ⟨hlt, -⟩ := List.getElem?_eq_some_iff.mp hget
    exact AuditStep.spared_run hrun (by omega) hget
  obtain ⟨record, hload, hrecord⟩ := (AuditStep.journalIs_run hsha hrun hjournal₀).loads
  have hprefix : log₀.entries <+: log.entries :=
    prefix_iff_getElem?.mpr fun n hlt ↦ hspared (getElem?_eq_getElem hlt)
  have htake : log.entries.take checkpoint.seq = log₀.entries := by
    rw [hseq]
    exact (prefix_iff_eq_take.mp hprefix).symm
  have hle : checkpoint.seq ≤ log.entries.length := hseq ▸ hprefix.length_le
  refine ⟨htake, record, hload, hrecord.next_eq ▸ hle, fun n hlow hhigh ↦ ?_, fun hstart ↦ ?_⟩
  · rw [hrecord.start_eq] at hlow
    have hget := getElem?_eq_getElem (show n < log₀.entries.length by omega)
    rw [hrecord.slot_eq n hlow _ (hspared hget), hget]
  · rw [hrecord.headUpTo_eq hstart hle, htake, hhead]

/-- A signer for examples. -/
def auditToySigner : Option (Bytes → Option (Bytes × Bytes)) :=
  some fun _ ↦ some ([], [])

/-- The checkpoint after the assertion. -/
def auditToyCheckpoint : AuditCheckpoint where
  head := [1] ++ List.replicate 11 0 ++ leBytes 4 1 ++ leBytes 4 7 ++ [3] ++ List.replicate 11 0
  seq := 2
  signature := []
  publicKey := []

theorem auditToyCheckpoint_result :
    (auditCheckpoint auditToyHash [] auditToyClock auditToySigner []).result auditToyAsserted [] =
      .ok (.ok auditToyCheckpoint) := by
  decide +kernel

/-- An assertion after a checkpoint counts up an entry below it, and the journal yields the
checkpoint's head no more, though it retains all entries. -/
theorem audit_run_counts_below_checkpoint :
    let s₁ := (auditCheckpoint auditToyHash [] auditToyClock auditToySigner []).final
      auditToyAsserted []
    let s₂ := (auditToyAssertion.run auditToyHash []).final s₁ []
    (∃ log, AuditReachable auditToyHash [] log auditToyAsserted) ∧
      (auditCheckpoint auditToyHash [] auditToyClock auditToySigner []).result auditToyAsserted [] =
        .ok (.ok auditToyCheckpoint) ∧
      (fun record ↦ (auditStart record, auditHeadUpTo auditToyHash record 2)) <$>
          auditLoad auditToyHash [] s₁.files = .ok (0, auditToyCheckpoint.head) ∧
      (fun record ↦ (auditStart record, auditHeadUpTo auditToyHash record 2)) <$>
          auditLoad auditToyHash [] s₂.files ≠ .ok (0, auditToyCheckpoint.head) ∧
      auditStart <$> auditLoad auditToyHash [] s₂.files = .ok 0 :=
  ⟨auditToyAsserted_reachable, auditToyCheckpoint_result, by decide +kernel, by decide +kernel,
    by decide +kernel⟩

/-- The PIN is set after that checkpoint, which is an event of its own. -/
theorem audit_checkpoint_stays_after_append :
    ∃ record, auditLoad auditToyHash []
        (((AuditCall.append auditToyClock 5 0 [] false).run auditToyHash []).final
          auditToyAsserted []).files = .ok record ∧
      (auditStart record ≤ 2 → auditHeadUpTo auditToyHash record 2 = auditToyCheckpoint.head) := by
  obtain ⟨log, hreachable⟩ := auditToyAsserted_reachable
  obtain ⟨record, hload, -, -, hhead⟩ :=
    ((audit_checkpoint_stays length_auditToyHash hreachable auditToyCheckpoint_result).2 _ _
      (.single (.saved (.append auditToyClock 5 0 [] false) nofun [] (by decide +kernel)))).2
  exact ⟨record, hload, hhead⟩

end PicoAll
