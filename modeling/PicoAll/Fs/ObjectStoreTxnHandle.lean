import PicoAll.Fs.ObjectStoreTxnAtomic
import PicoAll.Lib.HandleTable

/-!
# Reading an object through a handle

Opening an object, asking for its size, reading the payload and closing it again gives exactly the
version recovery selects. With the crash argument for puts and deletes this is the store's contract:
along every history of calls that fail or are cut short anywhere, a reader sees complete versions
only.
-/

namespace PicoAll

open FaultProgram BigEndian

variable {static : ℕ → Bool} {layout : FileObjectTxnLayout} {auth : FileObjectAuthenticator}

/-! ### Tokens -/

variable (ram : TxnRam)

/-- The tokens of the table. -/
def TxnRam.tokens (i : Fin txnMaxHandles) : Option UInt32 :=
  (ram.handles i).map FileObjectTxnHandleEntry.token

theorem findHandle_eq (handle : UInt32) :
    ram.findHandle handle = HandleTable.find ram.tokens handle := by
  have hentry (i : Fin txnMaxHandles) : (ram.handles i).any (·.token == handle) =
      (ram.tokens i == some handle) := by
    rw [TxnRam.tokens]
    rcases ram.handles i with - | entry <;> rfl
  simp only [TxnRam.findHandle, HandleTable.find, hentry]

theorem allocateToken_eq (turns : ℕ) (next : UInt32) :
    ram.allocateToken turns next = HandleTable.allocate ram.tokens turns next := by
  induction turns generalizing next with
  | zero => rfl
  | succ turns ih => rw [TxnRam.allocateToken, HandleTable.allocate, findHandle_eq, ih]

/-- The tokens when an entry is taken or freed. -/
theorem tokens_update (i : Fin txnMaxHandles) (entry : Option FileObjectTxnHandleEntry)
    (next : UInt32) :
    TxnRam.tokens ⟨fun j ↦ if j = i then entry else ram.handles j, next⟩ =
      Function.update ram.tokens i (entry.map FileObjectTxnHandleEntry.token) := by
  funext j
  show (if j = i then entry else ram.handles j).map _ = _
  by_cases hji : j = i
  · rw [if_pos hji, hji, Function.update_self]
  · rw [if_neg hji, Function.update_of_ne hji, TxnRam.tokens]

/-- **The token handed out is new**: there are more candidates than table entries. -/
theorem allocateToken_fresh (next : UInt32) :
    (ram.allocateToken (txnMaxHandles + 2) next).1 ≠ 0 ∧
      ram.findHandle (ram.allocateToken (txnMaxHandles + 2) next).1 = none := by
  rw [allocateToken_eq, findHandle_eq]
  exact HandleTable.allocate_fresh ram.tokens (by decide) next

/-- A new entry is found under its token, being the only one that carries it. -/
theorem findHandle_insert {ram : TxnRam} {i : Fin txnMaxHandles} {entry : FileObjectTxnHandleEntry}
    (hne : entry.token ≠ 0) (hnone : ram.findHandle entry.token = none) (next : UInt32) :
    TxnRam.findHandle ⟨fun j ↦ if j = i then some entry else ram.handles j, next⟩ entry.token =
      some i := by
  rw [findHandle_eq] at hnone ⊢
  rw [tokens_update]
  exact HandleTable.find_update_self hne hnone

/-! ### Reading -/

/-- Open an object, ask for its size, read all of it and close the handle. -/
def txnReadObject (static : ℕ → Bool) (layout : FileObjectTxnLayout)
    (auth : FileObjectAuthenticator) : FsProg TxnRam Bytes := do
  let handle ← fileObjectTxnOpen static layout auth
  let (payloadSize, _) ← fileObjectTxnGetInfo auth handle
  let data ← fileObjectTxnReadAt auth handle 0 payloadSize
  fileObjectTxnClose handle
  return data

section Undisturbed

variable {ρ : Type} {s : FsState ρ} {E : Exit Status → FsState ρ → Prop}

/-- Without disturbances the MAC primitive goes unnoticed. -/
theorem wp_authenticated_ok {α : Type} {x : Except Status α} {Q : α → FsState ρ → Prop}
    (hok : ∀ a, x = .ok a → Q a s) (herr : ∀ r, x = .error r → E (.code r) s) :
    wp (fun o ↦ o = .ok) (authenticated x) Q E s :=
  wp_bind (wp_perform (wp_liftExcept hok herr) (nomatch ·) (nomatch ·) (nomatch ·))

end Undisturbed

section Handle

variable {s : FsState TxnRam} {handle : UInt32} {i : Fin txnMaxHandles}
  {state : FileObjectTxnState} {E : Exit Status → FsState TxnRam → Prop}

/-- A handle whose version is still the current one resolves to it. -/
theorem wp_fileObjectTxnResolve {Q : FileObjectTxnHandleEntry → FsState TxnRam → Prop}
    (hfind : s.ram.findHandle handle = some i)
    (hentry : s.ram.handles i = some ⟨layout, state, handle⟩)
    (hrec : fileObjectTxnRecover layout auth s.files = .ok state) (hlive : state.deleted = false)
    (hQ : Q ⟨layout, state, handle⟩ s) :
    wp (fun o ↦ o = .ok) (fileObjectTxnResolve auth handle) Q E s := by
  refine wp_get ?_
  simp only [hfind, Option.bind_some, hentry, hrec]
  refine wp_bind (wp_authenticated_ok (fun a ha ↦ ?_) fun r hr ↦ nomatch hr)
  cases ha
  simp only [hlive, bne_self_eq_false, Bool.or_self, Bool.false_eq_true, if_false]
  exact wp_pure hQ

end Handle

/-- **What a reader gets is the version recovery selects.** -/
theorem txnReadObject_result (hvalid : fileObjectTxnLayoutValid static layout = true)
    (files : Files) {ram : TxnRam} (hfree : ∃ i, ram.handles i = none) :
    (txnReadObject static layout auth).result ⟨files, ram⟩ [] =
      (txnVersion layout auth files).mapError .code := by
  refine result_of_wp (wp_bind ?_)
  unfold fileObjectTxnOpen
  simp only [hvalid, Bool.not_true, Bool.false_eq_true, if_false]
  refine wp_get (wp_bind (wp_authenticated_ok (fun state hrec ↦ ?_) fun r hrec ↦
    ⟨r, rfl, by simp [txnVersion, hrec]⟩))
  rcases hlive : state.deleted with - | -
  · obtain ⟨i, hi⟩ : ∃ i, ram.freeEntry = some i := by
      rw [← Option.isSome_iff_exists, TxnRam.freeEntry, List.find?_isSome]
      obtain ⟨i, hi⟩ := hfree
      exact ⟨i, List.mem_finRange i, by simp [hi]⟩
    obtain ⟨data, hversion, hlen⟩ := version_of_recover hrec hlive
    obtain ⟨hne, hnone⟩ := allocateToken_fresh ram ram.nextHandle
    rcases halloc : ram.allocateToken (txnMaxHandles + 2) ram.nextHandle with ⟨token, next⟩
    rw [halloc] at hne hnone
    obtain ⟨ram', hram'⟩ : ∃ ram' : TxnRam, ram' =
      ⟨fun j ↦ if j = i then some ⟨layout, state, token⟩ else ram.handles j, next⟩ := ⟨_, rfl⟩
    have hentry : ram'.handles i = some ⟨layout, state, token⟩ := by simp [hram']
    have hfind : ram'.findHandle token = some i := hram' ▸ findHandle_insert hne hnone next
    simp only [Bool.false_eq_true, if_false, hi]
    refine wp_bind (wp_modifyState (wp_pure ?_))
    simp only [← hram']
    have hrec' : fileObjectTxnRecover layout auth (FsState.mk files ram').files = .ok state := hrec
    refine wp_bind (wp_bind (wp_fileObjectTxnResolve hfind hentry hrec' hlive (wp_pure ?_)))
    refine wp_bind (wp_bind (wp_fileObjectTxnResolve hfind hentry hrec' hlive ?_))
    have hslot : state.recordSlot < 2 :=
      (txnCommitState_ok (parseCommit_ok (parseCommit_of_recover hrec)).choose_spec).2.2 hlive
    simp only [hslot, dite_true, Nat.not_lt_zero, gt_iff_lt, Nat.sub_zero, lt_self_iff_false,
      or_self, if_false]
    refine wp_bind (wp_fileSearch ?_)
    simp only [txnVersion, hrec, ok_bind, hlive, Bool.false_eq_true, if_false, hslot,
      dite_true] at hversion
    simp only [Nat.add_zero]
    rcases hf : files (layout.recordFid ⟨state.recordSlot, hslot⟩) with - | file
    · simp [hf] at hversion
    · simp only [hf] at hversion
      simp only [hversion]
      refine wp_liftExcept (fun a ha ↦ ?_) fun r hr ↦ nomatch hr
      cases ha
      refine wp_bind (wp_get ?_)
      simp only [hfind]
      refine wp_modifyState (wp_pure ?_)
      exact (txnVersion_of_live hrec hlive hslot hf).trans hversion
  · simp only [if_true]
    exact wp_bind (wp_fail ⟨.fileNotFound, rfl, by simp [txnVersion, hrec, hlive]⟩)

/-! ### Histories -/

/-- A call that changes an object. -/
inductive TxnOp where
  /-- `file_object_txn_put`. -/
  | put (data : Bytes)
  /-- `file_object_txn_delete`. -/
  | delete

/-- Run a call. -/
def TxnOp.run (static : ℕ → Bool) (layout : FileObjectTxnLayout) (auth : FileObjectAuthenticator) :
    TxnOp → FsProg TxnRam Unit
  | .put data => fileObjectTxnPut static layout auth data
  | .delete => fileObjectTxnDelete static layout auth

/-- What a completed call leaves to be read. -/
def TxnOp.version : TxnOp → Except Status Bytes
  | .put data => .ok data
  | .delete => .error .fileNotFound

/-- The file maps an object can be found in. It starts out absent; calls may fail or lose power
anywhere; the rest of the system changes other files; and either file of a slot may be damaged, by
which the slot is never made valid: a record or commit the store has not written does not carry the
right MAC. -/
inductive TxnReachable (static : ℕ → Bool) (layout : FileObjectTxnLayout)
    (auth : FileObjectAuthenticator) : Files → Prop
  | absent {files : Files}
      (h : ∀ slot, files (layout.recordFid slot) = none ∧ files (layout.commitFid slot) = none) :
      TxnReachable static layout auth files
  | call {files : Files} (h : TxnReachable static layout auth files) (op : TxnOp) (ram : TxnRam)
      (os : List Outcome) :
      TxnReachable static layout auth ((op.run static layout auth).final ⟨files, ram⟩ os).files
  | other {files files' : Files} (h : TxnReachable static layout auth files)
      (hsame : ∀ slot, AgreeOn layout slot files files') : TxnReachable static layout auth files'
  | damageRecord {files : Files} (h : TxnReachable static layout auth files) (slot : Fin 2)
      (content : Option Bytes)
      (hbad : ∀ state, fileObjectTxnParseCommit layout auth
        (files.set (layout.recordFid slot) content) slot ≠ .ok state) :
      TxnReachable static layout auth (files.set (layout.recordFid slot) content)
  | damageCommit {files : Files} (h : TxnReachable static layout auth files) (slot : Fin 2)
      (content : Option Bytes)
      (hbad : ∀ v, txnCommitState layout auth slot content ≠ .ok v) :
      TxnReachable static layout auth (files.set (layout.commitFid slot) content)

variable {s : FsState TxnRam}

/-- A call on a layout that is not valid is refused before anything happens. -/
theorem wp_run_of_invalid (h : fileObjectTxnLayoutValid static layout = false) (op : TxnOp) :
    wp (fun _ ↦ True) (op.run static layout auth) (fun _ _ ↦ False) (fun _ s' ↦ s' = s) s := by
  cases op with
  | put data =>
    unfold TxnOp.run fileObjectTxnPut
    simp only [h, Bool.not_false, if_true]
    exact wp_bind (wp_fail rfl)
  | delete =>
    unfold TxnOp.run fileObjectTxnDelete
    simp only [h, Bool.not_false, if_true]
    exact wp_bind (wp_fail rfl)

/-- **One call**: complete, or as if it had not been made. -/
theorem wp_run (hvalid : fileObjectTxnLayoutValid static layout = true)
    (hinv : TxnInvariant layout auth s.files) (op : TxnOp) :
    wp (fun _ ↦ True) (op.run static layout auth)
      (fun _ s' ↦ TxnAfter layout auth s.files s'.files op.version)
      (fun _ s' ↦ TxnAfter layout auth s.files s'.files (txnVersion layout auth s.files) ∨
        TxnAfter layout auth s.files s'.files op.version) s := by
  cases op with
  | put data => exact wp_fileObjectTxnPut hvalid hinv data
  | delete => exact wp_fileObjectTxnDelete hvalid hinv

/-- What is left after a call, read off its weakest precondition. -/
theorem run_cases (hvalid : fileObjectTxnLayoutValid static layout = true)
    (hinv : TxnInvariant layout auth s.files) (op : TxnOp) (os : List Outcome) :
    TxnAfter layout auth s.files ((op.run static layout auth).final s os).files
        (txnVersion layout auth s.files) ∨
      TxnAfter layout auth s.files ((op.run static layout auth).final s os).files op.version :=
  final_of_wp (I := fun s' ↦ TxnAfter layout auth s.files s'.files (txnVersion layout auth s.files) ∨
    TxnAfter layout auth s.files s'.files op.version)
    (wp_mono (wp_run hvalid hinv op) (fun _ _ ↦ .inr) fun _ _ h ↦ h) os

/-- **The invariant holds along every history.** -/
theorem TxnReachable.invariant (hvalid : fileObjectTxnLayoutValid static layout = true)
    {files : Files} (h : TxnReachable static layout auth files) :
    TxnInvariant layout auth files := by
  induction h with
  | absent h =>
    have hbad (slot : Fin 2) : fileObjectTxnParseCommit layout auth _ slot = .error .fileNotFound :=
      parseCommit_of_commit_error (txnCommitState_empty (.inl (h slot).2))
    refine .of_parse_error (fun slot state tag hc ↦ ?_) (hbad 0)
    rw [txnCommitState_empty (.inl (h slot).2)] at hc
    cases hc
  | call h op ram os ih =>
    rcases run_cases hvalid (s := ⟨_, ram⟩) ih op os with hafter | hafter
    · exact hafter.inv
    · exact hafter.inv
  | other h hsame ih =>
    refine ⟨fun slot state tag hc ↦ ih.sound slot state tag ((hsame slot).2 ▸ hc), ?_⟩
    intro slot a b ha hb
    rw [parseCommit_congr ih.sound (hsame _)] at ha hb
    exact ih.distinct slot a b ha hb
  | damageRecord h slot content hbad ih =>
    rcases hp : fileObjectTxnParseCommit layout auth _ slot with r | state
    · refine .of_parse_error (fun slot' state tag hc ↦ ih.sound slot' state tag ?_) hp
      rwa [Files.set_of_ne _ _ ((distinct_of_layoutValid hvalid).1 _ _).symm] at hc
    · exact absurd hp (hbad state)
  | damageCommit h slot content hbad ih =>
    rename_i files
    obtain ⟨r, hr⟩ := commitState_set_error files hbad
    refine .of_parse_error (Framed.sound (Framed.set_commit (.refl _ _ _) content) hvalid ih.sound
      fun state tag hc ↦ ?_) (parseCommit_of_commit_error hr)
    rw [hr] at hc
    cases hc

/-- **Crash atomicity of the transactional store.** After any history, a call that fails or loses
power anywhere leaves either the version there was or the version it was to write; a call that
reports success leaves the latter; and no valid version is overlooked: where there is one, a reader
gets the payload of one at least as new, or learns that it was deleted. -/
theorem txn_crash_atomic {files : Files} (hreach : TxnReachable static layout auth files)
    (op : TxnOp) (ram : TxnRam) (os : List Outcome) (ram' : TxnRam)
    (hfree : ∃ i, ram'.handles i = none) :
    let s' := (op.run static layout auth).final ⟨files, ram⟩ os
    let read (f : Files) := (txnReadObject static layout auth).result ⟨f, ram'⟩ []
    (read s'.files = read files ∨ read s'.files = op.version.mapError .code) ∧
      ((op.run static layout auth).result ⟨files, ram⟩ os = .ok () →
        read s'.files = op.version.mapError .code) ∧
      (fileObjectTxnLayoutValid static layout = true → ∀ slot state,
        fileObjectTxnParseCommit layout auth s'.files slot = .ok state →
        ∃ current, fileObjectTxnRecover layout auth s'.files = .ok current ∧
          state.generation ≤ current.generation ∧
          if current.deleted then read s'.files = .error (.code .fileNotFound)
          else ∃ data, read s'.files = .ok data ∧ data.length = current.payloadSize) := by
  intro s' read
  rcases hvalid : fileObjectTxnLayoutValid static layout with - | -
  · have hs' : s' = ⟨files, ram⟩ :=
      final_of_wp (wp_mono (wp_run_of_invalid hvalid op) (fun _ _ ↦ False.elim) fun _ _ h ↦ h) os
    refine ⟨.inl (by rw [hs']), fun hok ↦ ?_, nofun⟩
    exact (final_of_result_ok (wp_run_of_invalid hvalid op) hok).elim
  · have hinv := hreach.invariant hvalid
    have hread (f : Files) : read f = (txnVersion layout auth f).mapError .code :=
      txnReadObject_result hvalid f hfree
    simp only [hread]
    refine ⟨?_, fun hok ↦ ?_, fun _ slot state hp ↦ ?_⟩
    · rcases run_cases hvalid (s := ⟨files, ram⟩) hinv op os with h | h
      · exact .inl (congrArg _ h.version_eq)
      · exact .inr (congrArg _ h.version_eq)
    · have hafter := final_of_result_ok (wp_run hvalid (s := ⟨files, ram⟩) hinv op) hok
      exact congrArg _ hafter.version_eq
    · have hinv' : TxnInvariant layout auth s'.files :=
        (TxnReachable.call hreach op ram os).invariant hvalid
      obtain ⟨current, hrec, hle⟩ := hinv'.recover_ok hp
      refine ⟨current, hrec, hle, ?_⟩
      split_ifs with hdel
      · simp [txnVersion, hrec, hdel, Except.mapError]
      · obtain ⟨data, hdata, hlen⟩ := version_of_recover hrec (by simpa using hdel)
        exact ⟨data, by rw [hdata]; rfl, hlen⟩

/-- A layout and a MAC to run the store on: four free dynamic file ids, and the low 16 bytes of the
input in the place of a cryptographic tag. -/
def exampleTxnLayout : FileObjectTxnLayout where
  namespaceId := 1
  objectType := 2
  objectId := 3
  recordFid slot := 0xD000 + slot
  commitFid slot := 0xD100 + slot
  namespaceId_lt := by decide
  objectType_lt := by decide
  objectId_lt := by decide
  recordFid_lt := by decide
  commitFid_lt := by decide

@[inherit_doc exampleTxnLayout]
def exampleTxnAuth : FileObjectAuthenticator where
  tag input := beBytes 16 (beNat input)
  length_tag _ := length_beBytes _ _

/-- A put on an absent object that loses power when its record has been written leaves it absent or
stored; undisturbed, it leaves it stored. -/
theorem txn_crash_atomic_first_put :
    let run (os : List Outcome) := ((TxnOp.put [7, 8, 9]).run (fun _ ↦ false) exampleTxnLayout
      exampleTxnAuth).final ⟨fun _ ↦ none, .boot⟩ os
    let read (f : Files) := (txnReadObject (fun _ ↦ false) exampleTxnLayout exampleTxnAuth).result
      ⟨f, .boot⟩ []
    (read (run [.ok, .ok, .ok, .ok, .cut]).files = read (fun _ ↦ none) ∨
      read (run [.ok, .ok, .ok, .ok, .cut]).files = .ok [7, 8, 9]) ∧
    read (run []).files = .ok [7, 8, 9] :=
  have hreach : TxnReachable (fun _ ↦ false) exampleTxnLayout exampleTxnAuth fun _ ↦ none :=
    .absent fun _ ↦ ⟨rfl, rfl⟩
  ⟨(txn_crash_atomic hreach (.put [7, 8, 9]) .boot [.ok, .ok, .ok, .ok, .cut] .boot
    ⟨0, rfl⟩).1, (txn_crash_atomic hreach (.put [7, 8, 9]) .boot [] .boot
    ⟨0, rfl⟩).2.1 (by rfl)⟩

end PicoAll
