import PicoAll.Fs.ObjectStoreTxnHandle

/-!
# Handles to transactional objects

A handle remembers the version it was opened on: its generation, its record, its size. A put or a
delete either leaves the version there is or makes one of a greater generation
(`wp_run_generation`), and a delete is a version of its own, so that what is written after it does
not start again. Generations grow along every run (`txnGeneration_mono`); a version is therefore
known by its generation, and a handle reads the version it was opened on or nothing
(`txn_handle_stable`).
-/

namespace PicoAll

open FaultProgram BigEndian List Nat

variable {static : ℕ → Bool} {layout : FileObjectTxnLayout} {auth : FileObjectAuthenticator}
  {files files' : Files}
  (hvalid : fileObjectTxnLayoutValid static layout = true)

/-! ### Generations -/

/-- The generation of the current version, or zero. -/
def txnGeneration (layout : FileObjectTxnLayout) (auth : FileObjectAuthenticator)
    (files : Files) : ℕ :=
  match fileObjectTxnRecover layout auth files with
  | .ok state => state.generation
  | .error _ => 0

theorem txnGeneration_of_recover {state : FileObjectTxnState}
    (h : fileObjectTxnRecover layout auth files = .ok state) :
    txnGeneration layout auth files = state.generation := by
  rw [txnGeneration, h]

/-- The current version is what it was. -/
structure TxnSame (layout : FileObjectTxnLayout) (auth : FileObjectAuthenticator)
    (files files' : Files) : Prop where
  inv : TxnInvariant layout auth files'
  recover : fileObjectTxnRecover layout auth files' = fileObjectTxnRecover layout auth files
  version : txnVersion layout auth files' = txnVersion layout auth files

/-- There is a new version, of a greater generation. -/
structure TxnNewer (layout : FileObjectTxnLayout) (auth : FileObjectAuthenticator)
    (files files' : Files) (version : Except Status Bytes) : Prop where
  inv : TxnInvariant layout auth files'
  generation : txnGeneration layout auth files < txnGeneration layout auth files'
  version : txnVersion layout auth files' = version

theorem TxnSame.refl (hinv : TxnInvariant layout auth files) : TxnSame layout auth files files :=
  ⟨hinv, rfl, rfl⟩

theorem TxnSame.generation (h : TxnSame layout auth files files') :
    txnGeneration layout auth files' = txnGeneration layout auth files := by
  rw [txnGeneration, h.recover, txnGeneration]

include hvalid in
theorem TxnSame.of_broken (hinv : TxnInvariant layout auth files)
    (hfound : ∀ r, fileObjectTxnRecover layout auth files = .error r → r = .fileNotFound)
    (h : Broken layout auth (txnTarget layout auth files) files files') :
    TxnSame layout auth files files' := by
  obtain ⟨r, hr⟩ := h.2
  obtain ⟨hrec, hversion⟩ :=
    version_of_target_broken hinv.sound (h.1.agreeOn_rev hvalid) hr hfound
  exact ⟨(TxnAfter.of_broken hvalid hinv.sound hfound h).inv, hrec, hversion⟩

/-- What happens to other files does not matter. -/
theorem TxnSame.of_agree (hinv : TxnInvariant layout auth files)
    (h : ∀ slot, AgreeOn layout slot files files') : TxnSame layout auth files files' := by
  have hparse (slot : Fin 2) : fileObjectTxnParseCommit layout auth files' slot =
      fileObjectTxnParseCommit layout auth files slot := parseCommit_congr hinv.sound (h slot)
  have hrec : fileObjectTxnRecover layout auth files' = fileObjectTxnRecover layout auth files := by
    rw [recover_eq, recover_eq, hparse, hparse]
  have hrecord (slot : Fin 2) : files' (layout.recordFid slot) = files (layout.recordFid slot) :=
    (h slot).1
  refine ⟨⟨fun slot state tag hc ↦ hinv.sound slot state tag ((h slot).2 ▸ hc), fun slot a b ↦ ?_⟩,
    hrec, ?_⟩
  · rw [hparse, hparse]
    exact hinv.distinct slot a b
  · simp only [txnVersion, hrec, hrecord]

/-- What a complete call makes current is newer than what was. -/
theorem txnGeneration_lt_of_next {slot : Fin 2} {generation : ℕ} {state : FileObjectTxnState}
    (hnext : fileObjectTxnNextState layout auth files = .ok (slot, generation))
    (hrec : fileObjectTxnRecover layout auth files' = .ok state)
    (hgen : state.generation = generation) :
    txnGeneration layout auth files < txnGeneration layout auth files' := by
  rw [txnGeneration_of_recover hrec, hgen, txnGeneration]
  rw [fileObjectTxnNextState] at hnext
  rcases hold : fileObjectTxnRecover layout auth files with r | current
  · have hpos := (nextState_ok (by rw [fileObjectTxnNextState]; exact hnext)).2.1
    exact pos_of_ne_zero hpos
  · rw [hold] at hnext
    simp only at hnext
    split_ifs at hnext
    cases hnext
    exact Nat.lt_succ_self _

include hvalid in
theorem TxnNewer.of_put (hinv : TxnInvariant layout auth files) {slot : Fin 2} {generation : ℕ}
    {data : Bytes} (h : TxnPutDone layout auth files files' slot generation data) :
    TxnNewer layout auth files files' (.ok data) := by
  have hafter := TxnAfter.of_put hvalid hinv.sound h
  exact ⟨hafter.inv, txnGeneration_lt_of_next h.next (h.recover hvalid hinv.sound).1 rfl,
    hafter.version_eq⟩

include hvalid in
theorem TxnNewer.of_delete (hinv : TxnInvariant layout auth files) {slot : Fin 2} {generation : ℕ}
    (h : TxnDeleteDone layout auth files files' slot generation) :
    TxnNewer layout auth files files' (.error .fileNotFound) := by
  have hafter := TxnAfter.of_delete hvalid hinv.sound h
  exact ⟨hafter.inv, txnGeneration_lt_of_next h.next (h.recover hvalid hinv.sound).1 rfl,
    hafter.version_eq⟩

include hvalid in
/-- **One call**: the version there was, or a newer one; a newer one if it succeeds. -/
theorem wp_run_generation
    {s : FsState TxnRam} (hinv : TxnInvariant layout auth s.files) (op : TxnOp) :
    wp (fun _ ↦ True) (op.run static layout auth)
      (fun _ s' ↦ TxnNewer layout auth s.files s'.files op.version)
      (fun _ s' ↦ TxnSame layout auth s.files s'.files ∨
        TxnNewer layout auth s.files s'.files op.version) s := by
  cases op with
  | put data =>
    exact wp_fileObjectTxnPut_stages (P := TxnSame layout auth s.files)
      (N := fun files' ↦ TxnNewer layout auth s.files files' (.ok data)) hvalid data (.refl hinv)
      (fun hfound _ h ↦ .of_broken hvalid hinv hfound h) fun _ _ _ h ↦ .of_put hvalid hinv h
  | delete =>
    exact wp_fileObjectTxnDelete_stages (P := TxnSame layout auth s.files)
      (N := fun files' ↦ TxnNewer layout auth s.files files' (.error .fileNotFound)) hvalid
      (.refl hinv) (fun hfound _ h ↦ .of_broken hvalid hinv hfound h)
      fun _ _ _ h ↦ .of_delete hvalid hinv h

/-! ### The handle table -/

/-- A program does not touch the handles. -/
def RamKept {α : Type} (m : FsProg TxnRam α) : Prop :=
  ∀ ram, Keeps (fun s : FsState TxnRam ↦ s.ram = ram) (fun _ ↦ True) m

namespace RamKept

variable {α β : Type}

protected theorem pure (a : α) : RamKept (pure a : FsProg TxnRam α) :=
  fun _ ↦ .pure trivial

protected theorem fail (r : Status) : RamKept (FaultProgram.fail r : FsProg TxnRam α) :=
  fun _ ↦ .fail r

protected theorem perform {r : Status} {f : FsState TxnRam → FsState TxnRam}
    (hf : ∀ s, (f s).ram = s.ram) : RamKept (perform r f) :=
  fun _ ↦ .perform fun s h ↦ (hf s).trans h

protected theorem bind {m : FsProg TxnRam α} {f : α → FsProg TxnRam β} (hm : RamKept m)
    (hf : ∀ a, RamKept (f a)) : RamKept (m >>= f) :=
  fun ram ↦ .bind (hm ram) fun a _ ↦ hf a ram

protected theorem ite {c : Prop} [Decidable c] {m m' : FsProg TxnRam α} (h : RamKept m)
    (h' : RamKept m') : RamKept (if c then m else m') :=
  fun ram ↦ .ite (fun _ ↦ h ram) fun _ ↦ h' ram

/-- A check that stops the program. -/
protected theorem check {c : Prop} [Decidable c] {r : Status} {f : PUnit → FsProg TxnRam α}
    {m : FsProg TxnRam α} (h : RamKept m) : RamKept (if c then FaultProgram.fail r >>= f else m) :=
  .ite (fun _ _ _ hram ↦ wp_bind (wp_fail hram)) h

theorem getState : RamKept (getState : FsProg TxnRam (FsState TxnRam)) :=
  fun _ ↦ Keeps.getState.weaken fun _ _ ↦ trivial

theorem authenticated (x : Except Status α) : RamKept (authenticated x : FsProg TxnRam α) :=
  .bind (.perform fun _ ↦ rfl) fun _ _ ↦ .liftExcept fun _ _ ↦ trivial

theorem removeFile (fid : ℕ) : RamKept (fileObjectTxnRemoveFile static fid) := by
  refine .bind (.bind getState fun _ ↦ .pure _) fun file ↦ ?_
  rcases file with - | content
  · exact .pure _
  · exact .ite (.fail _) (.perform fun _ ↦ rfl)

theorem replaceFile (fid : ℕ) (data : Bytes) :
    RamKept (fileObjectTxnReplaceFile static fid data) := by
  refine .bind (removeFile fid) fun _ ↦ .bind (.bind (.bind getState fun _ ↦ .pure _)
    fun file ↦ ?_) fun _ ↦ .perform fun _ ↦ rfl
  rcases file with - | content
  · exact .perform fun _ ↦ rfl
  · exact .pure _

theorem writeRecord (slot : Fin 2) (generation recordId : ℕ) (data : Bytes) :
    RamKept (fileObjectTxnWriteRecord static layout auth slot generation recordId data) :=
  .check (.bind (authenticated _) fun _ ↦ .bind (replaceFile _ _) fun _ ↦ .pure _)

/-- A put or a delete. -/
theorem run (op : TxnOp) : RamKept (op.run static layout auth) := by
  cases op with
  | put data =>
    exact .check (.check (.bind getState fun _ ↦ .bind (authenticated _) fun _ ↦
      .bind (removeFile _) fun _ ↦ .bind (removeFile _) fun _ ↦
      .bind (writeRecord _ _ _ _) fun _ ↦ .bind (.perform fun _ ↦ rfl) fun _ ↦
      .bind (.bind (authenticated _) fun _ ↦ replaceFile _ _) fun _ ↦ .perform fun _ ↦ rfl))
  | delete =>
    exact .check (.bind getState fun _ ↦ .bind (authenticated _) fun _ ↦ .check (.check
      (.bind (removeFile _) fun _ ↦ .bind (removeFile _) fun _ ↦ .bind (.perform fun _ ↦ rfl) fun _ ↦
      .bind (.bind (authenticated _) fun _ ↦ replaceFile _ _) fun _ ↦ .perform fun _ ↦ rfl)))

end RamKept

/-- What opening an object leaves: an entry that was free has the version that recovery selects. -/
structure TxnOpened (static : ℕ → Bool) (layout : FileObjectTxnLayout)
    (auth : FileObjectAuthenticator) (s : FsState TxnRam) (handle : UInt32) (s' : FsState TxnRam) :
    Prop where
  valid : fileObjectTxnLayoutValid static layout = true
  ne_zero : handle ≠ 0
  fresh : s.ram.findHandle handle = none
  opened : ∃ i state next, s.ram.handles i = none ∧
    fileObjectTxnRecover layout auth s.files = .ok state ∧ state.deleted = false ∧
      s' = ⟨s.files, ⟨fun j ↦ if j = i then some ⟨layout, state, handle⟩ else s.ram.handles j, next⟩⟩

theorem wp_fileObjectTxnOpen (s : FsState TxnRam) :
    wp (fun _ ↦ True) (fileObjectTxnOpen static layout auth)
      (fun handle s' ↦ TxnOpened static layout auth s handle s') (fun _ s' ↦ s' = s) s := by
  refine wp_guard rfl fun hvalid ↦ ?_
  refine wp_get (wp_bind (wp_authenticated (fun state hrec ↦ ?_) fun _ ↦ rfl))
  refine wp_guard rfl fun hlive ↦ ?_
  rcases hfree : s.ram.freeEntry with - | i
  · exact wp_fail rfl
  · obtain ⟨hne, hfresh⟩ := allocateToken_fresh s.ram s.ram.nextHandle
    have hi : s.ram.handles i = none := by simpa using find?_some hfree
    rcases halloc : s.ram.allocateToken (txnMaxHandles + 2) s.ram.nextHandle with ⟨token, next⟩
    rw [halloc] at hne hfresh
    exact wp_bind (wp_modifyState (wp_pure ⟨by simpa using hvalid, hne, hfresh, i, state, next, hi,
      hrec, by simpa using hlive, rfl⟩))

/-! ### Calls -/

/-- A call that is made while a handle is open: on the object itself, on handles of any object, or
anything that does not touch the files of the object. -/
inductive TxnCall (layout : FileObjectTxnLayout) where
  /-- `file_object_txn_put` or `file_object_txn_delete`. -/
  | op (op : TxnOp)
  /-- `file_object_txn_open`, of any object. -/
  | openObject (layout' : FileObjectTxnLayout) (auth' : FileObjectAuthenticator)
  /-- `file_object_txn_get_info`. -/
  | getInfo (handle : UInt32)
  /-- `file_object_txn_read_at`. -/
  | readAt (handle : UInt32) (offset len : ℕ)
  /-- `file_object_txn_close`. -/
  | close (handle : UInt32)
  /-- What happens to other files. -/
  | other (change : Files → Files) (h : ∀ files slot, AgreeOn layout slot files (change files))

/-- Make a call. -/
def TxnCall.run (static : ℕ → Bool) (auth : FileObjectAuthenticator) {layout : FileObjectTxnLayout} :
    TxnCall layout → FsProg TxnRam Unit
  | op call => call.run static layout auth
  | openObject layout' auth' => do
    let _ ← fileObjectTxnOpen static layout' auth'
  | getInfo handle => do
    let _ ← fileObjectTxnGetInfo auth handle
  | readAt handle offset len => do
    let _ ← fileObjectTxnReadAt auth handle offset len
  | close handle => fileObjectTxnClose handle
  | other change _ => modifyState fun s ↦ { s with files := change s.files }

/-- The state after a call; when the power is lost, the handles are gone. -/
def txnStep (static : ℕ → Bool) (auth : FileObjectAuthenticator) {layout : FileObjectTxnLayout}
    (s : FsState TxnRam) (call : TxnCall layout × List Outcome) : FsState TxnRam :=
  match (call.1.run static auth).result s call.2 with
  | .error .cut => ⟨((call.1.run static auth).final s call.2).files, .boot⟩
  | _ => (call.1.run static auth).final s call.2

/-- The state after some calls. -/
def txnRun (static : ℕ → Bool) (auth : FileObjectAuthenticator) {layout : FileObjectTxnLayout}
    (s : FsState TxnRam) (calls : List (TxnCall layout × List Outcome)) : FsState TxnRam :=
  calls.foldl (txnStep static auth) s

/-! ### What a handle is pinned to -/

/-- A handle that is open on a version with some payload, which is current, or older than what is. -/
structure TxnPinned (layout : FileObjectTxnLayout) (auth : FileObjectAuthenticator)
    (handle : UInt32) (state : FileObjectTxnState) (data : Bytes) (s : FsState TxnRam) : Prop where
  inv : TxnInvariant layout auth s.files
  entry : ∃ i, s.ram.findHandle handle = some i ∧
    s.ram.handles i = some ⟨layout, state, handle⟩
  version : (fileObjectTxnRecover layout auth s.files = .ok state ∧
      txnVersion layout auth s.files = .ok data) ∨
    state.generation < txnGeneration layout auth s.files

variable {handle : UInt32} {state : FileObjectTxnState} {data : Bytes} {s : FsState TxnRam}

/-- A handle on the current version. -/
theorem wp_resolve_current {Q : FileObjectTxnHandleEntry → FsState TxnRam → Prop}
    {E : Exit Status → FsState TxnRam → Prop} {i : Fin txnMaxHandles}
    (hfind : s.ram.findHandle handle = some i)
    (hentry : s.ram.handles i = some ⟨layout, state, handle⟩)
    (hrec : fileObjectTxnRecover layout auth s.files = .ok state)
    (hQ : state.deleted = false → Q ⟨layout, state, handle⟩ s) (hE : ∀ e, E e s) :
    wp (fun _ ↦ True) (fileObjectTxnResolve auth handle) Q E s := by
  refine wp_get ?_
  simp only [hfind, Option.bind_some, hentry, hrec]
  refine wp_bind (wp_authenticated (fun a ha ↦ ?_) hE)
  cases ha
  refine wp_guard (hE _) fun hlive ↦ wp_pure (hQ ?_)
  simp only [bne_self_eq_false, Bool.or_false, Bool.not_eq_true] at hlive
  exact hlive

/-- A handle on an older version is stale, whatever goes wrong. -/
theorem wp_resolve_stale {Q : FileObjectTxnHandleEntry → FsState TxnRam → Prop}
    {E : Exit Status → FsState TxnRam → Prop} {A : Outcome → Prop} {i : Fin txnMaxHandles}
    (hfind : s.ram.findHandle handle = some i)
    (hentry : s.ram.handles i = some ⟨layout, state, handle⟩)
    (hlt : state.generation < txnGeneration layout auth s.files) (hstale : E (.code .staleHandle) s)
    (hmac : A .fail ∨ A .late → E (.code .execError) s) (hcut : A .cut → E .cut s) :
    wp A (fileObjectTxnResolve auth handle) Q E s := by
  refine wp_get ?_
  rw [txnGeneration] at hlt
  rcases hrec : fileObjectTxnRecover layout auth s.files with r | current
  · rw [hrec] at hlt
    exact absurd hlt (not_lt_zero _)
  · rw [hrec] at hlt
    simp only [hfind, Option.bind_some, hentry, hrec]
    refine wp_bind (wp_bind (wp_perform (wp_liftExcept (fun a ha ↦ ?_) fun r hr ↦ nomatch hr)
      (fun h ↦ hmac (.inl h)) (fun h ↦ hmac (.inr h)) hcut))
    cases ha
    have hne : (current.generation != state.generation) = true := by
      simpa using ne_of_gt hlt
    simp only [id, hne, Bool.or_true, Bool.true_or, if_true]
    exact wp_bind (wp_fail hstale)

/-! ### Steps -/

/-- A program that leaves the state as it is. -/
def ReadsOnly {α : Type} (m : FsProg TxnRam α) : Prop :=
  ∀ s, Keeps (fun s' ↦ s' = s) (fun _ ↦ True) m

theorem readsOnly_resolve (handle : UInt32) : ReadsOnly (fileObjectTxnResolve auth handle) := by
  intro s
  refine .bind .getState fun s' _ ↦ ?_
  rcases (s'.ram.findHandle handle).bind s'.ram.handles with - | current
  · exact .fail _
  · refine .bind (.bind (.perform fun _ h ↦ h) fun _ _ ↦ .liftExcept fun _ _ ↦ trivial)
      fun recovered _ ↦ .ite (fun _ _ _ h ↦ wp_bind (wp_fail h)) fun _ ↦ .pure trivial

theorem readsOnly_getInfo (handle : UInt32) : ReadsOnly (fileObjectTxnGetInfo auth handle) :=
  fun s ↦ .bind (readsOnly_resolve handle s) fun _ _ ↦ .pure trivial

theorem readsOnly_readAt (handle : UInt32) (offset len : ℕ) :
    ReadsOnly (fileObjectTxnReadAt auth handle offset len) := by
  intro s
  refine .bind (readsOnly_resolve handle s) fun entry _ ↦
    .ite (fun _ _ _ h ↦ wp_bind (wp_fail h)) fun _ ↦ ?_
  by_cases hslot : entry.state.recordSlot < 2
  · have hsearch (fid : ℕ) : Preserves (fun s' : FsState TxnRam ↦ s' = s) (fileSearch fid) :=
      .get fun _ ↦ .pure trivial
    rw [dif_pos hslot]
    refine .bind (hsearch _) fun file _ ↦ ?_
    rcases file with - | content
    · exact .fail _
    · exact .liftExcept fun _ _ ↦ trivial
  · rw [dif_neg hslot]
    exact .fail _

namespace TxnPinned

variable {s' : FsState TxnRam}

section

variable (h : TxnPinned layout auth handle state data s)
include h

/-- The version is left. -/
theorem of_same (hram : s'.ram = s.ram) (hsame : TxnSame layout auth s.files s'.files) :
    TxnPinned layout auth handle state data s' := by
  have hentry := h.entry
  rw [← hram] at hentry
  refine ⟨hsame.inv, hentry, ?_⟩
  rw [hsame.recover, hsame.version, hsame.generation]
  exact h.version

/-- The version becomes an old one. -/
theorem of_newer (hram : s'.ram = s.ram)
    {version : Except Status Bytes} (hnewer : TxnNewer layout auth s.files s'.files version) :
    TxnPinned layout auth handle state data s' := by
  have hentry := h.entry
  rw [← hram] at hentry
  refine ⟨hnewer.inv, hentry, .inr ?_⟩
  rcases h.version with ⟨hrec, -⟩ | hlt
  · rw [← txnGeneration_of_recover hrec]
    exact hnewer.generation
  · exact hlt.trans hnewer.generation

/-- Another entry of the table may change, as long as it does not get the token. -/
theorem of_table {j : Fin txnMaxHandles} {entry : Option FileObjectTxnHandleEntry} {next : UInt32}
    (hj : s.ram.findHandle handle ≠ some j)
    (htoken : entry.map FileObjectTxnHandleEntry.token ≠ some handle)
    (hs' : s' = ⟨s.files, ⟨fun k ↦ if k = j then entry else s.ram.handles k, next⟩⟩) :
    TxnPinned layout auth handle state data s' := by
  obtain ⟨i, hfind, hi⟩ := h.entry
  have hij : j ≠ i := fun hji ↦ hj (hji ▸ hfind)
  subst hs'
  refine ⟨h.inv, ⟨i, ?_, ?_⟩, h.version⟩
  · rw [findHandle_eq] at hfind ⊢
    rw [tokens_update]
    exact HandleTable.find_update_of_ne hfind hij htoken
  · show (if i = j then entry else s.ram.handles i) = _
    rw [if_neg hij.symm, hi]

end

include hvalid in
/-- **One call**, of any kind but closing the handle. -/
theorem wp_run (h : TxnPinned layout auth handle state data s) (call : TxnCall layout)
    (hclose : call ≠ .close handle) :
    wp (fun _ ↦ True) (call.run static auth) (fun _ s' ↦ TxnPinned layout auth handle state data s')
      (fun _ s' ↦ TxnPinned layout auth handle state data s') s := by
  cases call with
  | op op =>
    exact wp_mono (wp_and (wp_run_generation hvalid h.inv op) (RamKept.run op s.ram _ s rfl))
      (fun _ _ h' ↦ h.of_newer h'.2.1 h'.1) fun _ _ h' ↦
        h'.1.elim (h.of_same h'.2) (h.of_newer h'.2)
  | openObject layout' auth' =>
    refine wp_seq (wp_fileObjectTxnOpen s) (fun token s' hopen ↦ wp_pure ?_) ?_
    · obtain ⟨j, state', next, hj, -, -, hs'⟩ := hopen.opened
      obtain ⟨i, hfind, hi⟩ := h.entry
      refine h.of_table (j := j) (fun hji ↦ ?_) (fun htoken ↦ ?_) hs'
      · rw [hfind, Option.some.injEq] at hji
        rw [hji, hj] at hi
        cases hi
      · have hfresh := hopen.fresh
        obtain rfl : token = handle := Option.some.inj htoken
        rw [hfind] at hfresh
        cases hfresh
    · rintro _ _ rfl
      exact h
  | getInfo handle' =>
    refine wp_seq (readsOnly_getInfo handle' s _ s rfl) (fun _ _ h' ↦ wp_pure ?_) ?_
    · exact h'.1 ▸ h
    · rintro _ _ rfl
      exact h
  | readAt handle' offset len =>
    refine wp_seq (readsOnly_readAt handle' offset len s _ s rfl) (fun _ _ h' ↦ wp_pure ?_) ?_
    · exact h'.1 ▸ h
    · rintro _ _ rfl
      exact h
  | close handle' =>
    refine wp_get ?_
    rcases hfind' : s.ram.findHandle handle' with - | j
    · exact wp_fail h
    · obtain ⟨i, hfind, -⟩ := h.entry
      refine wp_modifyState (h.of_table (j := j) (fun hj ↦ hclose ?_) (by simp) rfl)
      -- Two handles of one entry are the same.
      rw [findHandle_eq] at hj hfind'
      have htoken := (HandleTable.find_eq_some hj).2.symm.trans (HandleTable.find_eq_some hfind').2
      rw [Option.some.inj htoken]
  | other change hchange =>
    have hsame : TxnSame layout auth s.files (change s.files) :=
      .of_agree h.inv (hchange s.files)
    have hpinned : TxnPinned layout auth handle state data ⟨change s.files, s.ram⟩ :=
      h.of_same rfl hsame
    rw [TxnCall.run]
    exact wp_modifyState hpinned

end TxnPinned

/-! ### Runs -/

/-- A handle stays open during some calls: it is not closed and the power is not lost. -/
def TxnHeld (static : ℕ → Bool) (auth : FileObjectAuthenticator) (handle : UInt32)
    {layout : FileObjectTxnLayout} :
    FsState TxnRam → List (TxnCall layout × List Outcome) → Prop
  | _, [] => True
  | s, c :: calls =>
    c.1 ≠ .close handle ∧ (c.1.run static auth).result s c.2 ≠ .error .cut ∧
      TxnHeld static auth handle (txnStep static auth s c) calls

theorem txnStep_of_not_cut {call : TxnCall layout × List Outcome}
    (h : (call.1.run static auth).result s call.2 ≠ .error .cut) :
    txnStep static auth s call = (call.1.run static auth).final s call.2 := by
  rw [txnStep]
  split
  · exact absurd ‹_› h
  · rfl

theorem txnStep_files (s : FsState TxnRam) (call : TxnCall layout × List Outcome) :
    (txnStep static auth s call).files = ((call.1.run static auth).final s call.2).files := by
  rw [txnStep]
  split <;> rfl

include hvalid in
/-- **A handle stays pinned** as long as it is open. -/
theorem TxnPinned.run (calls : List (TxnCall layout × List Outcome))
    (h : TxnPinned layout auth handle state data s) (hheld : TxnHeld static auth handle s calls) :
    TxnPinned layout auth handle state data (txnRun static auth s calls) := by
  induction calls generalizing s with
  | nil => exact h
  | cons c calls ih =>
    obtain ⟨hclose, hcut, hheld⟩ := hheld
    have hstep := final_of_wp (h.wp_run hvalid c.1 hclose) c.2
    rw [← txnStep_of_not_cut hcut] at hstep
    exact ih hstep hheld

include hvalid in
/-- A call keeps the version or makes a newer one, whatever handles there are. -/
theorem wp_call_files (hinv : TxnInvariant layout auth s.files) (call : TxnCall layout) :
    wp (fun _ ↦ True) (call.run static auth)
      (fun _ s' ↦ TxnSame layout auth s.files s'.files ∨
        ∃ version, TxnNewer layout auth s.files s'.files version)
      (fun _ s' ↦ TxnSame layout auth s.files s'.files ∨
        ∃ version, TxnNewer layout auth s.files s'.files version) s := by
  have hrefl : TxnSame layout auth s.files s.files := .refl hinv
  cases call with
  | op op =>
    exact wp_mono (wp_run_generation hvalid hinv op) (fun _ _ h ↦ .inr ⟨_, h⟩)
      fun _ _ h ↦ h.imp id fun h ↦ ⟨_, h⟩
  | openObject layout' auth' =>
    refine wp_seq (wp_fileObjectTxnOpen s) (fun token s' hopen ↦ wp_pure ?_) ?_
    · obtain ⟨j, state', next, -, -, -, rfl⟩ := hopen.opened
      exact .inl hrefl
    · rintro _ _ rfl
      exact .inl hrefl
  | getInfo handle' =>
    refine wp_seq (readsOnly_getInfo handle' s _ s rfl) (fun _ _ h ↦ wp_pure ?_) ?_
    · exact .inl (h.1 ▸ hrefl)
    · rintro _ _ rfl
      exact .inl hrefl
  | readAt handle' offset len =>
    refine wp_seq (readsOnly_readAt handle' offset len s _ s rfl) (fun _ _ h ↦ wp_pure ?_) ?_
    · exact .inl (h.1 ▸ hrefl)
    · rintro _ _ rfl
      exact .inl hrefl
  | close handle' =>
    refine wp_get ?_
    rcases s.ram.findHandle handle' with - | j
    · exact wp_fail (.inl hrefl)
    · exact wp_modifyState (.inl hrefl)
  | other change hchange =>
    rw [TxnCall.run]
    exact wp_modifyState (.inl (.of_agree hinv (hchange s.files)))

include hvalid in
/-- A step keeps the invariant, and the generation does not become smaller. -/
theorem txnStep_generation
    (hinv : TxnInvariant layout auth s.files) (call : TxnCall layout × List Outcome) :
    TxnInvariant layout auth (txnStep static auth s call).files ∧
      (fileObjectTxnRecover layout auth (txnStep static auth s call).files =
          fileObjectTxnRecover layout auth s.files ∨
        txnGeneration layout auth s.files <
          txnGeneration layout auth (txnStep static auth s call).files) := by
  rw [txnStep_files]
  rcases final_of_wp (wp_call_files hvalid hinv call.1) call.2 with h | ⟨version, h⟩
  · exact ⟨h.inv, .inl h.recover⟩
  · exact ⟨h.inv, .inr h.generation⟩

include hvalid in
/-- **Generations never become smaller**, whatever fails and wherever the power is lost. -/
theorem txnGeneration_mono (calls : List (TxnCall layout × List Outcome)) {s : FsState TxnRam}
    (hinv : TxnInvariant layout auth s.files) :
    TxnInvariant layout auth (txnRun static auth s calls).files ∧
      txnGeneration layout auth s.files ≤
        txnGeneration layout auth (txnRun static auth s calls).files := by
  induction calls generalizing s with
  | nil => exact ⟨hinv, le_rfl⟩
  | cons c calls ih =>
    obtain ⟨hinv', hstep⟩ := txnStep_generation hvalid hinv c
    obtain ⟨hinv'', hle⟩ := ih hinv'
    refine ⟨hinv'', le_trans ?_ hle⟩
    rcases hstep with hrec | hlt
    · rw [txnGeneration, txnGeneration, hrec]
    · exact hlt.le

theorem txnRun_take_succ {calls : List (TxnCall layout × List Outcome)} {i : ℕ}
    {c : TxnCall layout × List Outcome} (h : calls[i]? = some c) (s : FsState TxnRam) :
    txnRun static auth s (calls.take (i + 1)) =
      txnStep static auth (txnRun static auth s (calls.take i)) c := by
  rw [take_add_one, h, txnRun, foldl_append]
  rfl

theorem txnRun_take_add (calls : List (TxnCall layout × List Outcome)) (i n : ℕ)
    (s : FsState TxnRam) :
    txnRun static auth s (calls.take (i + n)) =
      txnRun static auth (txnRun static auth s (calls.take i)) ((calls.drop i).take n) := by
  rw [take_add, txnRun, foldl_append]
  rfl

/-! ### Reading -/

/-- A part of the payload is read out of the record at its place behind the header. -/
theorem fileReadAt_part {file data : Bytes} {size offset len : ℕ}
    (h : fileReadAt file txnRecordHeaderSize size = .ok data) (hoffset : ¬offset > size)
    (hlen : ¬len > size - offset) :
    fileReadAt file (txnRecordHeaderSize + offset) len = .ok ((data.drop offset).take len) := by
  rw [fileReadAt] at h ⊢
  split_ifs at h with hshort
  obtain rfl := Except.ok.inj h
  rw [if_neg (by omega), drop_take, drop_drop, take_take, min_eq_left (by omega)]

/-- What a handle on the current version reads. -/
theorem txnVersion_read (hrec : fileObjectTxnRecover layout auth files = .ok state)
    (hversion : txnVersion layout auth files = .ok data) :
    state.deleted = false ∧ data.length = state.payloadSize ∧
      ∃ (hslot : state.recordSlot < 2) (file : Bytes),
        files (layout.recordFid ⟨state.recordSlot, hslot⟩) = some file ∧
          fileReadAt file txnRecordHeaderSize state.payloadSize = .ok data := by
  rcases hlive : state.deleted with - | -
  · obtain ⟨data', hdata', hlen⟩ := version_of_recover hrec hlive
    rw [hversion, Except.ok.injEq] at hdata'
    subst hdata'
    have hslot : state.recordSlot < 2 :=
      (txnCommitState_ok (parseCommit_ok (parseCommit_of_recover hrec)).choose_spec).2.2 hlive
    refine ⟨rfl, hlen, hslot, ?_⟩
    rcases hfile : files (layout.recordFid ⟨state.recordSlot, hslot⟩) with - | file
    · simp [txnVersion, hrec, hlive, hfile] at hversion
    · exact ⟨file, rfl, (txnVersion_of_live hrec hlive hslot hfile).symm.trans hversion⟩
  · simp [txnVersion, hrec, hlive] at hversion

section

variable (h : TxnPinned layout auth handle state data s)
include h

/-- **What a successful read gives**: bytes of the version the handle is pinned to, which then is
current. -/
theorem TxnPinned.readAt_ok (offset len : ℕ) {os : List Outcome} {bytes : Bytes}
    (hread : (fileObjectTxnReadAt auth handle offset len).result s os = .ok bytes) :
    fileObjectTxnRecover layout auth s.files = .ok state ∧ offset + len ≤ data.length ∧
      bytes = (data.drop offset).take len := by
  obtain ⟨i, hfind, hentry⟩ := h.entry
  rcases h.version with ⟨hrec, hversion⟩ | hlt
  · obtain ⟨-, hlen, hslot, file, hfile, hfull⟩ := txnVersion_read hrec hversion
    suffices hwp : wp (fun _ ↦ True) (fileObjectTxnReadAt auth handle offset len)
        (fun bytes _ ↦ offset + len ≤ data.length ∧ bytes = (data.drop offset).take len)
        (fun _ _ ↦ True) s from ⟨hrec, final_of_result_ok hwp hread⟩
    refine wp_bind (wp_resolve_current hfind hentry hrec (fun _ ↦ ?_) fun _ ↦ trivial)
    refine wp_guard trivial fun hrange ↦ ?_
    obtain ⟨hoffset, hlong⟩ : ¬offset > state.payloadSize ∧ ¬len > state.payloadSize - offset :=
      not_or.mp hrange
    rw [dif_pos hslot]
    refine wp_bind (wp_fileSearch ?_)
    simp only [hfile, fileReadAt_part hfull hoffset hlong]
    exact wp_pure ⟨by omega, rfl⟩
  · have hwp : wp (fun _ ↦ True) (fileObjectTxnReadAt auth handle offset len)
        (fun _ _ ↦ False) (fun _ _ ↦ True) s :=
      wp_bind (wp_resolve_stale hfind hentry hlt trivial (fun _ ↦ trivial) fun _ ↦ trivial)
    exact (final_of_result_ok hwp hread).elim

/-- An old version reads as stale. -/
theorem TxnPinned.readAt_stale
    (hlt : state.generation < txnGeneration layout auth s.files) (offset len : ℕ) :
    (fileObjectTxnReadAt auth handle offset len).result s [] = .error (.code .staleHandle) := by
  obtain ⟨i, hfind, hentry⟩ := h.entry
  refine result_of_wp (x := .error .staleHandle) (wp_bind (wp_resolve_stale hfind hentry hlt
    ⟨.staleHandle, rfl, rfl⟩ (fun h ↦ ?_) (nomatch ·)))
  rcases h with h | h <;> cases h

/-- The current version can be read. -/
theorem TxnPinned.readAt_current (hrec : fileObjectTxnRecover layout auth s.files = .ok state)
    {offset len : ℕ} (hrange : offset + len ≤ data.length) :
    (fileObjectTxnReadAt auth handle offset len).result s [] =
      .ok ((data.drop offset).take len) := by
  obtain ⟨i, hfind, hentry⟩ := h.entry
  have hversion : txnVersion layout auth s.files = .ok data := by
    rcases h.version with ⟨-, hversion⟩ | hlt
    · exact hversion
    · rw [txnGeneration_of_recover hrec] at hlt
      exact absurd hlt (lt_irrefl _)
  obtain ⟨hlive, hlen, hslot, file, hfile, hfull⟩ := txnVersion_read hrec hversion
  refine result_of_wp (x := .ok ((data.drop offset).take len)) ?_
  refine wp_bind (wp_fileObjectTxnResolve hfind hentry hrec hlive ?_)
  refine wp_ite (fun hout ↦ ?_) fun _ ↦ ?_
  · change offset > state.payloadSize ∨ len > state.payloadSize - offset at hout
    omega
  · rw [dif_pos hslot]
    refine wp_bind (wp_fileSearch ?_)
    have hpart := @fileReadAt_part file data state.payloadSize offset len hfull (by omega) (by omega)
    simp only [hfile, hpart]
    exact wp_pure rfl

end

/-- A handle that has just been opened. -/
theorem TxnOpened.pinned {s' : FsState TxnRam} (h : TxnOpened static layout auth s handle s')
    (hinv : TxnInvariant layout auth s.files) :
    ∃ state data, fileObjectTxnRecover layout auth s.files = .ok state ∧
      txnVersion layout auth s.files = .ok data ∧ s'.files = s.files ∧
      TxnPinned layout auth handle state data s' := by
  obtain ⟨i, state, next, hi, hrec, hlive, rfl⟩ := h.opened
  obtain ⟨data, hversion, -⟩ := version_of_recover hrec hlive
  refine ⟨state, data, hrec, hversion, rfl, hinv, ⟨i, ?_, if_pos rfl⟩, .inl ⟨hrec, hversion⟩⟩
  exact @findHandle_insert s.ram i ⟨layout, state, handle⟩ h.ne_zero h.fresh next

include hvalid in
/-- What succeeds makes a newer version. -/
theorem txnGeneration_lt_of_ok (hinv : TxnInvariant layout auth s.files)
    {calls : List (TxnCall layout × List Outcome)} {i k : ℕ} (hki : k < i) {op : TxnOp}
    {os : List Outcome} (hcall : calls[k]? = some (.op op, os))
    (hok : (op.run static layout auth).result (txnRun static auth s (calls.take k)) os = .ok ()) :
    txnGeneration layout auth (txnRun static auth s (calls.take k)).files <
      txnGeneration layout auth (txnRun static auth s (calls.take i)).files := by
  obtain ⟨n, rfl⟩ := Nat.exists_eq_add_of_lt hki
  have hinv' := (txnGeneration_mono hvalid (calls.take k) hinv).1
  have hstep := final_of_result_ok (wp_run_generation hvalid hinv' op) hok
  have hstep' : txnRun static auth s (calls.take (k + 1)) =
      (op.run static layout auth).final (txnRun static auth s (calls.take k)) os := by
    rw [txnRun_take_succ hcall]
    have hcut : (op.run static layout auth).result (txnRun static auth s (calls.take k)) os ≠
        .error .cut := by
      rw [hok]
      simp
    exact @txnStep_of_not_cut static layout auth _ (.op op, os) hcut
  rw [show k + n + 1 = k + 1 + n by omega, txnRun_take_add]
  refine lt_of_lt_of_le hstep.generation ?_
  rw [hstep']
  exact (txnGeneration_mono hvalid _ hstep.inv).2

theorem TxnHeld.take {calls : List (TxnCall layout × List Outcome)}
    (h : TxnHeld static auth handle s calls) (i : ℕ) :
    TxnHeld static auth handle s (calls.take i) := by
  induction calls generalizing s i with
  | nil => rwa [take_nil]
  | cons c calls ih =>
    rcases i with - | i
    · exact trivial
    · exact ⟨h.1, h.2.1, ih h.2.2 i⟩

/-- **Handles are stable.** Whatever is called while a handle is open — puts and deletes of the
object, which may fail anywhere, other handles, other files — a read that succeeds gives bytes of
the version the handle was opened on; while that version is current it can be read, and once it is
not, in any case after a put or a delete that succeeds, the handle is stale. Along every run, power
cuts included, the versions that are written have greater and greater generations, and two valid
slots have different ones. -/
theorem txn_handle_stable (hreach : TxnReachable static layout auth files) (ram : TxnRam)
    (calls : List (TxnCall layout × List Outcome)) :
    (∀ (os : List Outcome) (handle : UInt32),
      (fileObjectTxnOpen static layout auth).result ⟨files, ram⟩ os = .ok handle →
      let opened := (fileObjectTxnOpen static layout auth).final ⟨files, ram⟩ os
      let run (i : ℕ) := txnRun static auth opened (calls.take i)
      TxnHeld static auth handle opened calls →
      ∃ data, txnVersion layout auth files = .ok data ∧
        ∀ (i offset len : ℕ), i ≤ calls.length →
          (∀ os' bytes, (fileObjectTxnReadAt auth handle offset len).result (run i) os' = .ok bytes →
            offset + len ≤ data.length ∧ bytes = (data.drop offset).take len) ∧
          (fileObjectTxnRecover layout auth (run i).files = fileObjectTxnRecover layout auth files →
            offset + len ≤ data.length →
            (fileObjectTxnReadAt auth handle offset len).result (run i) [] =
              .ok ((data.drop offset).take len)) ∧
          (fileObjectTxnRecover layout auth (run i).files ≠ fileObjectTxnRecover layout auth files →
            (fileObjectTxnReadAt auth handle offset len).result (run i) [] =
              .error (.code .staleHandle)) ∧
          ∀ k op os', k < i → calls[k]? = some (.op op, os') →
            (op.run static layout auth).result (run k) os' = .ok () →
            (fileObjectTxnReadAt auth handle offset len).result (run i) [] =
              .error (.code .staleHandle)) ∧
    (fileObjectTxnLayoutValid static layout = true →
      let run (i : ℕ) := txnRun static auth ⟨files, ram⟩ (calls.take i)
      (∀ i j, i < j → j < calls.length → ∀ op os op' os', calls[i]? = some (.op op, os) →
        calls[j]? = some (.op op', os') → (op.run static layout auth).result (run i) os = .ok () →
        (op'.run static layout auth).result (run j) os' = .ok () →
        txnGeneration layout auth (run (i + 1)).files <
          txnGeneration layout auth (run (j + 1)).files) ∧
      (∀ i, i < calls.length →
        fileObjectTxnRecover layout auth (run (i + 1)).files =
            fileObjectTxnRecover layout auth (run i).files ∨
          txnGeneration layout auth (run i).files <
            txnGeneration layout auth (run (i + 1)).files) ∧
      ∀ i slot a b, fileObjectTxnParseCommit layout auth (run i).files slot = .ok a →
        fileObjectTxnParseCommit layout auth (run i).files slot.rev = .ok b →
        a.generation ≠ b.generation) := by
  constructor
  · intro os handle hopen opened run hheld
    have hopened := final_of_result_ok (wp_fileObjectTxnOpen ⟨files, ram⟩) hopen
    have hvalid := hopened.valid
    have hinv := hreach.invariant hvalid
    obtain ⟨state, data, hrec, hversion, hfiles, hpinned⟩ := hopened.pinned hinv
    refine ⟨data, hversion, fun i offset len _ ↦ ?_⟩
    have hi : TxnPinned layout auth handle state data (run i) :=
      hpinned.run hvalid (calls.take i) (hheld.take i)
    refine ⟨fun os' bytes hread ↦ (hi.readAt_ok offset len hread).2, fun hsame hrange ↦ ?_,
      fun hreplaced ↦ ?_, fun k op os' hki hcall hok ↦ ?_⟩
    · exact hi.readAt_current (hsame.trans hrec) hrange
    · rcases hi.version with ⟨hcurrent, -⟩ | hlt
      · exact absurd (hcurrent.trans hrec.symm) hreplaced
      · exact hi.readAt_stale hlt offset len
    · have hle := (txnGeneration_mono hvalid (calls.take k) hpinned.inv).2
      have hlt := txnGeneration_lt_of_ok hvalid hpinned.inv hki hcall hok
      rw [hfiles, txnGeneration_of_recover hrec] at hle
      exact hi.readAt_stale (hle.trans_lt hlt) offset len
  · intro hvalid run
    refine ⟨?_, ?_, ?_⟩
    · intro i j hij _ op os op' os' hi hj hok hok'
      have hinv := hreach.invariant hvalid
      have hjlt := txnGeneration_lt_of_ok hvalid hinv (Nat.lt_succ_self j) hj hok'
      refine lt_of_le_of_lt ?_ hjlt
      obtain ⟨n, rfl⟩ := Nat.exists_eq_add_of_lt hij
      have hinv' := (@txnGeneration_mono static layout auth hvalid (calls.take (i + 1))
        ⟨files, ram⟩ hinv).1
      rw [show i + n + 1 = i + 1 + n by omega, txnRun_take_add]
      exact (txnGeneration_mono hvalid _ hinv').2
    · intro i hi
      have hinv := (@txnGeneration_mono static layout auth hvalid (calls.take i)
        ⟨files, ram⟩ (hreach.invariant hvalid)).1
      rw [show run (i + 1) = _ from txnRun_take_succ (getElem?_eq_getElem hi) _]
      exact (txnStep_generation hvalid hinv _).2
    · intro i
      exact (txnGeneration_mono hvalid (calls.take i) (hreach.invariant hvalid)).1.distinct

/-- An object is stored, opened, and stored again: the handle is stale. -/
theorem txn_handle_stable_replaced :
    let static (_ : ℕ) := false
    let files := ((TxnOp.put [7, 8, 9]).run static exampleTxnLayout exampleTxnAuth).final
      ⟨fun _ ↦ none, .boot⟩ []
    let opened := (fileObjectTxnOpen static exampleTxnLayout exampleTxnAuth).final
      ⟨files.files, .boot⟩ []
    let put : TxnCall exampleTxnLayout × List Outcome := (.op (.put [1, 2, 3]), [])
    (fileObjectTxnReadAt exampleTxnAuth 1 0 3).result
      (txnRun static exampleTxnAuth opened [put]) [] = .error (.code .staleHandle) := by
  intro static files opened put
  have hreach : TxnReachable static exampleTxnLayout exampleTxnAuth files.files :=
    .call (.absent fun _ ↦ ⟨rfl, rfl⟩) (.put [7, 8, 9]) .boot []
  have hopen : (fileObjectTxnOpen static exampleTxnLayout exampleTxnAuth).result
      ⟨files.files, .boot⟩ [] = .ok 1 := by decide +kernel
  have hput : (put.1.run static exampleTxnAuth).result opened [] = .ok () := by decide +kernel
  have hheld : TxnHeld static exampleTxnAuth 1 opened [put] := by
    refine ⟨by simp [put], ?_, trivial⟩
    rw [hput]
    simp
  obtain ⟨data, -, hread⟩ := (txn_handle_stable hreach .boot [put]).1 [] 1 hopen hheld
  exact (hread 1 0 3 le_rfl).2.2.2 0 (.put [1, 2, 3]) [] zero_lt_one rfl hput

end PicoAll
