import PicoAll.Fs.ObjectStore

/-!
# Handles to objects

A handle is known to be stale by the generation and the size of the object. A put on an object that
is there counts the generation up, but a delete leaves nothing behind: the object that is put after
it starts at generation one again, and with an old size a handle from before reads it
(`object_handle_aliased`). As long as no put writes a generation and a size that an open handle of
the object remembers (`ObjectCall.Safe`), a handle reads what it was opened on, or is stale
(`object_handle_stable`).
-/

namespace PicoAll

open FaultProgram BigEndian Function Option List

/-! ### What a call does to the files -/

/-- What the file of an object can be after a put, which may fail anywhere. -/
inductive ObjectPutContent (id : FileObjectId) (data : Bytes) (old : Option Bytes) :
    Option Bytes → Prop
  /-- It is what it was. -/
  | kept : ObjectPutContent id data old old
  | created : ObjectPutContent id data old (some [])
  | written {generation : ℕ} (hnext : fileObjectNextGeneration old id = .ok generation)
      (hlen : data.length < 256 ^ 4) :
      ObjectPutContent id data old (some (fileObjectContent id generation data))

variable {static : ℕ → Bool} {s s' : FsState FileObjectRam} {id : FileObjectId} {data : Bytes}

/-- A put writes one file, in part if it is cut. -/
theorem wp_fileObjectPut (s : FsState FileObjectRam) (id : FileObjectId) (data : Bytes) :
    wp (fun _ ↦ True) (fileObjectPut id data)
      (fun _ s' ↦ ∃ c, ObjectPutContent id data (s.files id.fid.toNat) c ∧
        s' = s.setFile id.fid.toNat c)
      (fun _ s' ↦ ∃ c, ObjectPutContent id data (s.files id.fid.toNat) c ∧
        s' = s.setFile id.fid.toNat c) s := by
  have hkept : ∃ c, ObjectPutContent id data (s.files id.fid.toNat) c ∧
      s = s.setFile id.fid.toNat c := ⟨_, .kept, by rw [FsState.setFile_get]⟩
  have hcreated (h : s.files id.fid.toNat = none) : ∃ c,
      ObjectPutContent id data (s.files id.fid.toNat) c ∧
        s.setFile id.fid.toNat (some []) = s.setFile id.fid.toNat c := ⟨_, .created, rfl⟩
  refine wp_guard hkept fun _ ↦ wp_bind (wp_fileSearch ?_)
  refine wp_lift (fun generation hnext ↦ ?_) fun _ _ ↦ hkept
  refine wp_bind (wp_fileNew (fun c hc ↦ ?_) (fun hnone ↦ ?_) (fun _ _ ↦ hkept)
    (fun _ h ↦ hcreated h) fun _ _ ↦ hkept)
  · refine wp_guard hkept fun hlen ↦ ?_
    have hwritten := @ObjectPutContent.written id data _ generation hnext (by
      rw [UINT32_MAX, fileObjectHeaderSize] at hlen
      omega)
    exact wp_filePutData ⟨_, hwritten, rfl⟩ (fun _ ↦ hkept) (fun _ ↦ ⟨_, hwritten, rfl⟩)
      fun _ ↦ hkept
  · refine wp_guard (hcreated hnone) fun hlen ↦ ?_
    have hwritten := @ObjectPutContent.written id data _ generation hnext (by
      rw [UINT32_MAX, fileObjectHeaderSize] at hlen
      omega)
    refine wp_filePutData ⟨_, hwritten, ?_⟩ (fun _ ↦ hcreated hnone)
      (fun _ ↦ ⟨_, hwritten, ?_⟩) fun _ ↦ hcreated hnone <;> rw [FsState.setFile_setFile]

theorem wp_fileObjectDelete (s : FsState FileObjectRam) (id : FileObjectId) :
    wp (fun _ ↦ True) (fileObjectDelete static id)
      (fun _ s' ↦ ∃ c, fileHasData c = false ∧ s' = s.setFile id.fid.toNat c)
      (fun _ s' ↦ s' = s ∨ ∃ c, fileHasData c = false ∧ s' = s.setFile id.fid.toNat c) s := by
  have hgone : fileHasData (if static id.fid.toNat then some [] else none) = false := by
    split_ifs <;> rfl
  refine wp_guard (.inl rfl) fun _ ↦ wp_bind (wp_fileSearch ?_)
  refine wp_lift (fun _ _ ↦ ?_) fun _ _ ↦ .inl rfl
  exact wp_fileDeleteNoCommit ⟨_, hgone, rfl⟩ (fun _ ↦ .inl rfl) (fun _ ↦ .inr ⟨_, hgone, rfl⟩)
    fun _ ↦ .inl rfl

variable {file : Option Bytes}

/-- A file without data is no object. -/
theorem fileObjectParse_empty (h : fileHasData file = false) (id : FileObjectId) :
    fileObjectParse file id = .error .fileNotFound := by
  rw [fileObjectParse, if_pos (by rw [h, Bool.not_false, Bool.or_true])]

theorem fileObjectParse_lt {record : FileObjectRecord} (h : fileObjectParse file id = .ok record) :
    record.generation < 256 ^ 4 ∧
      record.payloadSize = (file.getD []).length - fileObjectHeaderSize ∧
      fileObjectHeaderSize ≤ (file.getD []).length := by
  rw [fileObjectParse] at h
  split_ifs at h with hdata hshort hheader
  obtain rfl := Except.ok.inj h
  simp only [not_or, not_not] at hheader
  exact ⟨beField_lt .., hheader.2.2.2.2.2.2.2, not_lt.mp hshort⟩

theorem fileObjectNextGeneration_lt {generation : ℕ}
    (h : fileObjectNextGeneration file id = .ok generation) : generation < 256 ^ 4 := by
  rw [fileObjectNextGeneration] at h
  split_ifs at h
  · rcases hparse : fileObjectParse file id with r | current
    · rw [hparse] at h
      cases h
    · have hlt := (fileObjectParse_lt hparse).1
      rw [hparse] at h
      simp only at h
      split_ifs at h with hmax
      obtain rfl := Except.ok.inj h
      rw [UINT32_MAX] at hmax
      omega
  · obtain rfl := Except.ok.inj h
    decide

/-! ### Calls -/

/-- A call that is made while a handle is open. -/
inductive ObjectCall where
  /-- `file_object_put`. -/
  | put (id : FileObjectId) (data : Bytes)
  /-- `file_object_delete` or `file_object_delete_no_commit`. -/
  | delete (id : FileObjectId)
  /-- `file_object_open`. -/
  | openObject (id : FileObjectId)
  /-- `file_object_get_info`. -/
  | getInfo (handle : UInt32)
  /-- `file_object_read_at`. -/
  | readAt (handle : UInt32) (offset len : ℕ)
  /-- `file_object_close`. -/
  | close (handle : UInt32)
  deriving DecidableEq

/-- Make a call. -/
def ObjectCall.run (static : ℕ → Bool) : ObjectCall → FsProg FileObjectRam Unit
  | put id data => fileObjectPut id data
  | delete id => fileObjectDelete static id
  | openObject id => do
    let _ ← fileObjectOpen id
  | getInfo handle => do
    let _ ← fileObjectGetInfo handle
  | readAt handle offset len => do
    let _ ← fileObjectReadAt handle offset len
  | close handle => fileObjectClose handle

/-- The generation of the object in a file, or zero. -/
def objectGeneration (file : Option Bytes) (id : FileObjectId) : ℕ :=
  match fileObjectParse file id with
  | .ok record => record.generation
  | .error _ => 0

/-- A put does not come out at the generation and the size of an open handle of its object. After a
delete it can: the next generation is one again. -/
def ObjectCall.Safe (s : FsState FileObjectRam) : ObjectCall → Prop
  | put id data => ∀ i entry, s.ram.handles i = some entry → entry.objectId = id →
      entry.generation = objectGeneration (s.files id.fid.toNat) id + 1 →
      entry.payloadSize ≠ data.length
  | _ => True

theorem objectGeneration_of_next {generation : ℕ}
    (h : fileObjectNextGeneration file id = .ok generation) :
    generation = objectGeneration file id + 1 := by
  rw [fileObjectNextGeneration] at h
  rw [objectGeneration]
  split_ifs at h with hdata
  · rcases hparse : fileObjectParse file id with r | current
    · rw [hparse] at h
      cases h
    · rw [hparse] at h
      simp only at h ⊢
      split_ifs at h
      exact (Except.ok.inj h).symm
  · rw [fileObjectParse_empty (by simpa using hdata)]
    exact (Except.ok.inj h).symm

/-! ### What a handle is pinned to -/

theorem FileObjectRam.tokens_set (ram : FileObjectRam) (j : Fin fileObjectMaxHandles)
    (entry : Option FileObjectHandleEntry) (next : UInt32) :
    (ram.set j entry next).tokens =
      Function.update ram.tokens j (entry.map FileObjectHandleEntry.token) := by
  funext k
  show (Function.update ram.handles j entry k).map FileObjectHandleEntry.token = _
  by_cases hk : k = j
  · rw [hk, update_self, update_self]
  · rw [update_of_ne hk, update_of_ne hk]
    rfl

/-- A handle that is open on a version: as long as the file is of that generation and that size, it
is that version. -/
structure ObjectPinned (id : FileObjectId) (handle : UInt32) (record : FileObjectRecord)
    (data : Bytes) (s : FsState FileObjectRam) : Prop where
  entry : ∃ i, s.ram.findHandle handle = some i ∧
    s.ram.handles i = some ⟨id, record.generation, record.payloadSize, handle⟩
  version : fileObjectParse (s.files id.fid.toNat) id = .ok record →
    ((s.files id.fid.toNat).getD []).drop fileObjectHeaderSize = data

variable {handle : UInt32} {record : FileObjectRecord}

namespace ObjectPinned

variable {c : Option Bytes}

section

variable (h : ObjectPinned id handle record data s)
include h

/-- The file is another one, or there is no object in it. -/
theorem of_setFile {fid : ℕ}
    (hc : fid = id.fid.toNat → fileObjectParse c id = .ok record →
      (c.getD []).drop fileObjectHeaderSize = data) :
    ObjectPinned id handle record data (s.setFile fid c) := by
  refine ⟨h.entry, fun hparse ↦ ?_⟩
  rw [FsState.files_setFile, Files.set] at hparse ⊢
  split_ifs at hparse ⊢ with hfid
  · exact hc hfid.symm hparse
  · exact h.version hparse

/-- Another entry of the table may change, as long as it does not get the token. -/
theorem of_table {j : Fin fileObjectMaxHandles} {entry : Option FileObjectHandleEntry}
    {next : UInt32} (hj : s.ram.findHandle handle ≠ some j)
    (htoken : entry.map FileObjectHandleEntry.token ≠ some handle) :
    ObjectPinned id handle record data ⟨s.files, s.ram.set j entry next⟩ := by
  obtain ⟨i, hfind, hi⟩ := h.entry
  have hij : j ≠ i := fun hji ↦ hj (hji ▸ hfind)
  refine ⟨⟨i, ?_, ?_⟩, h.version⟩
  · rw [FileObjectRam.findHandle, FileObjectRam.tokens_set]
    exact HandleTable.find_update_of_ne hfind hij htoken
  · show Function.update s.ram.handles j entry i = _
    rw [update_of_ne hij.symm, hi]

/-- A put that is safe does not write what the handle could take for its version. -/
theorem of_put {id' : FileObjectId} {data' : Bytes} (hsafe : (ObjectCall.put id' data').Safe s)
    (hc : ObjectPutContent id' data' (s.files id'.fid.toNat) c) :
    ObjectPinned id handle record data (s.setFile id'.fid.toNat c) := by
  obtain ⟨i, -, hi⟩ := h.entry
  refine h.of_setFile fun hfid hparse ↦ ?_
  cases hc with
  | kept =>
    rw [hfid] at hparse ⊢
    exact h.version hparse
  | created =>
    rw [fileObjectParse_empty rfl] at hparse
    cases hparse
  | written hnext hlen =>
    obtain ⟨hid, hrecord⟩ := fileObjectParse_content (fileObjectNextGeneration_lt hnext) hlen hparse
    rw [objectGeneration_of_next hnext] at hrecord
    exact absurd (by rw [hrecord]) (hsafe i _ hi hid (by rw [hrecord]))

/-- A delete leaves no object. -/
theorem of_delete {fid : ℕ} (hc : fileHasData c = false) :
    ObjectPinned id handle record data (s.setFile fid c) := by
  refine h.of_setFile fun _ hparse ↦ ?_
  rw [fileObjectParse_empty hc] at hparse
  cases hparse

end

end ObjectPinned

/-! ### Calls that leave the files alone -/

/-- What opening an object leaves: an entry that was free has the version in the file. -/
structure ObjectOpened (id : FileObjectId) (s : FsState FileObjectRam) (handle : UInt32)
    (s' : FsState FileObjectRam) : Prop where
  fresh : handle ≠ 0 ∧ s.ram.findHandle handle = none
  opened : ∃ i record next, s.ram.handles i = none ∧
    fileObjectParse (s.files id.fid.toNat) id = .ok record ∧
      s' = ⟨s.files, s.ram.set i (some ⟨id, record.generation, record.payloadSize, handle⟩) next⟩

theorem wp_fileObjectOpen (s : FsState FileObjectRam) (id : FileObjectId) :
    wp (fun _ ↦ True) (fileObjectOpen id) (fun handle s' ↦ ObjectOpened id s handle s')
      (fun _ s' ↦ s' = s) s := by
  refine wp_guard rfl fun _ ↦ wp_bind (wp_fileSearch ?_)
  refine wp_lift (fun record hrecord ↦ ?_) fun _ _ ↦ rfl
  refine wp_get ?_
  rcases hfree : HandleTable.free s.ram.tokens with - | i
  · exact wp_fail rfl
  · have hi : s.ram.handles i = none := map_eq_none_iff.mp (HandleTable.free_eq_some hfree)
    have hfresh := HandleTable.allocate_fresh s.ram.tokens (by decide) s.ram.nextHandle
    exact wp_bind (wp_modifyState (wp_pure ⟨hfresh, i, record, _, hi, hrecord, rfl⟩))

/-- What a handle with an entry resolves to. -/
theorem wp_fileObjectResolve {A : Outcome → Prop}
    {Q : Bytes × FileObjectRecord → FsState FileObjectRam → Prop}
    {E : Exit Status → FsState FileObjectRam → Prop} {i : Fin fileObjectMaxHandles}
    (hfind : s.ram.findHandle handle = some i)
    (hentry : s.ram.handles i = some ⟨id, record.generation, record.payloadSize, handle⟩)
    (hok : fileObjectParse (s.files id.fid.toNat) id = .ok record →
      Q ((s.files id.fid.toNat).getD [], record) s)
    (hstale : fileObjectParse (s.files id.fid.toNat) id ≠ .ok record → E (.code .staleHandle) s) :
    wp A (fileObjectResolve handle) Q E s := by
  refine wp_get ?_
  simp only [hfind, bind_some, hentry]
  refine wp_bind (wp_fileSearch ?_)
  rcases hparse : fileObjectParse (s.files id.fid.toNat) id with r | current
  · rw [hparse] at hstale
    have hr : r = .fileNotFound ∨ r = .wrongData := by
      rw [fileObjectParse] at hparse
      split_ifs at hparse <;> cases hparse <;> simp
    simp only [if_pos hr]
    exact wp_fail (hstale (by simp))
  · rw [hparse] at hstale hok
    refine wp_ite (fun hne ↦ wp_bind (wp_fail (hstale fun h ↦ ?_))) fun heq ↦ wp_pure ?_
    · obtain rfl := Except.ok.inj h
      simp at hne
    · obtain ⟨size, generation⟩ := current
      obtain ⟨size', generation'⟩ := record
      simp only [not_or, not_not] at heq
      obtain ⟨rfl, rfl⟩ := heq
      exact hok rfl

/-- Resolving a handle changes nothing. -/
theorem keeps_fileObjectResolve (s : FsState FileObjectRam) (handle : UInt32) :
    Preserves (fun s' ↦ s' = s) (fileObjectResolve handle) := by
  refine .bind .getState fun s' _ ↦ ?_
  rcases (s'.ram.findHandle handle).bind s'.ram.handles with - | current
  · exact .fail _
  · have hsearch : Preserves (fun s' ↦ s' = s)
        (fileSearch current.objectId.fid.toNat : FsProg FileObjectRam (Option Bytes)) :=
      .get fun _ ↦ .pure trivial
    refine .bind hsearch fun file _ ↦ ?_
    rcases fileObjectParse file current.objectId with r | record
    · exact .fail _
    · exact .ite (fun _ _ _ h ↦ wp_bind (wp_fail h)) fun _ ↦ .pure trivial

/-! ### Runs -/

/-- **One call**, of any kind but closing the handle, keeps the handle pinned if it is safe. -/
theorem ObjectPinned.wp_run (h : ObjectPinned id handle record data s) (call : ObjectCall)
    (hclose : call ≠ .close handle) (hsafe : call.Safe s) :
    wp (fun _ ↦ True) (call.run static) (fun _ s' ↦ ObjectPinned id handle record data s')
      (fun _ s' ↦ ObjectPinned id handle record data s') s := by
  obtain ⟨i, hfind, hi⟩ := h.entry
  cases call with
  | put id' data' =>
    refine wp_mono (wp_fileObjectPut s id' data') (fun _ s' h' ↦ ?_) fun _ s' h' ↦ ?_ <;>
    · obtain ⟨c, hc, rfl⟩ := h'
      exact h.of_put hsafe hc
  | delete id' =>
    refine wp_mono (wp_fileObjectDelete s id') (fun _ s' h' ↦ ?_) fun _ s' h' ↦ ?_
    · obtain ⟨c, hc, rfl⟩ := h'
      exact h.of_delete hc
    · obtain rfl | ⟨c, hc, rfl⟩ := h'
      · exact h
      · exact h.of_delete hc
  | openObject id' =>
    refine wp_seq (wp_fileObjectOpen s id') (fun token s' hopen ↦ wp_pure ?_) ?_
    · obtain ⟨j, record', next, hj, -, rfl⟩ := hopen.opened
      refine h.of_table (fun hji ↦ ?_) fun htoken ↦ ?_
      · rw [hfind, Option.some.injEq] at hji
        rw [hji, hj] at hi
        cases hi
      · have hfresh := hopen.fresh.2
        obtain rfl : token = handle := Option.some.inj htoken
        rw [hfind] at hfresh
        cases hfresh
    · intro _ s' hs'
      rwa [hs']
  | getInfo handle' =>
    refine wp_bind (wp_seq (keeps_fileObjectResolve s handle' _ s rfl)
      (fun _ s' hs' ↦ wp_pure (wp_pure ?_)) fun _ s' hs' ↦ ?_)
    · rwa [hs'.1]
    · rwa [hs']
  | readAt handle' offset len =>
    refine wp_bind (wp_seq (keeps_fileObjectResolve s handle' _ s rfl)
      (fun x s' hs' ↦ ?_) fun _ s' hs' ↦ ?_)
    · rw [hs'.1]
      exact wp_guard h fun _ ↦
        wp_liftExcept (fun _ _ ↦ wp_pure h) fun _ _ ↦ h
    · rwa [hs']
  | close handle' =>
    refine wp_get ?_
    rcases hfind' : s.ram.findHandle handle' with - | j
    · exact wp_fail h
    · refine wp_modifyState (h.of_table (fun hj ↦ hclose ?_) (by simp))
      -- Two handles of one entry are the same.
      have htoken := (HandleTable.find_eq_some hj).2.symm.trans (HandleTable.find_eq_some hfind').2
      rw [Option.some.inj htoken]

/-- The state after a call; when the power is lost, the handles are gone. -/
def objectStep (static : ℕ → Bool) (s : FsState FileObjectRam) (call : ObjectCall × List Outcome) :
    FsState FileObjectRam :=
  match (call.1.run static).result s call.2 with
  | .error .cut => ⟨((call.1.run static).final s call.2).files, .boot⟩
  | _ => (call.1.run static).final s call.2

/-- The state after some calls. -/
def objectRun (static : ℕ → Bool) (s : FsState FileObjectRam)
    (calls : List (ObjectCall × List Outcome)) : FsState FileObjectRam :=
  calls.foldl (objectStep static) s

/-- A handle stays open during some calls: it is not closed and the power is not lost. -/
def ObjectHeld (static : ℕ → Bool) (handle : UInt32) :
    FsState FileObjectRam → List (ObjectCall × List Outcome) → Prop
  | _, [] => True
  | s, c :: calls =>
    c.1 ≠ .close handle ∧ (c.1.run static).result s c.2 ≠ .error .cut ∧
      ObjectHeld static handle (objectStep static s c) calls

/-- All calls are safe where they are made. -/
def ObjectSafe (static : ℕ → Bool) :
    FsState FileObjectRam → List (ObjectCall × List Outcome) → Prop
  | _, [] => True
  | s, c :: calls => c.1.Safe s ∧ ObjectSafe static (objectStep static s c) calls

/-- **A handle stays pinned** as long as it is open and the puts are safe. -/
theorem ObjectPinned.run (calls : List (ObjectCall × List Outcome))
    (h : ObjectPinned id handle record data s) (hheld : ObjectHeld static handle s calls)
    (hsafe : ObjectSafe static s calls) :
    ObjectPinned id handle record data (objectRun static s calls) := by
  induction calls generalizing s with
  | nil => exact h
  | cons c calls ih =>
    obtain ⟨hclose, hcut, hheld⟩ := hheld
    have hstep := final_of_wp
      (@ObjectPinned.wp_run static s id data handle record h c.1 hclose hsafe.1) c.2
    have heq : objectStep static s c = (c.1.run static).final s c.2 := by
      rw [objectStep]
      split
      · exact absurd ‹_› hcut
      · rfl
    rw [← heq] at hstep
    exact ih hstep hheld hsafe.2

/-! ### Reading -/

/-- What a read through a pinned handle gives. -/
theorem ObjectPinned.readAt (h : ObjectPinned id handle record data s) (offset len : ℕ)
    (os : List Outcome) :
    ((fileObjectReadAt handle offset len).result s os = .ok ((data.drop offset).take len) ∧
        offset + len ≤ data.length) ∨
      (fileObjectReadAt handle offset len).result s os = .error (.code .staleHandle) ∨
      (fileObjectReadAt handle offset len).result s os = .error (.code .wrongLength) ∧
        data.length < offset + len := by
  obtain ⟨i, hfind, hi⟩ := h.entry
  have hwp : wp (fun _ ↦ True) (fileObjectReadAt handle offset len)
      (fun bytes _ ↦ bytes = (data.drop offset).take len ∧ offset + len ≤ data.length)
      (fun e _ ↦ e = .code .staleHandle ∨ e = .code .wrongLength ∧ data.length < offset + len)
      s := by
    refine wp_bind (wp_fileObjectResolve hfind hi (fun hparse ↦ ?_) fun _ ↦ .inl rfl)
    obtain ⟨-, hsize, hlen⟩ := fileObjectParse_lt hparse
    have hdata := h.version hparse
    have hdatalen := congrArg List.length hdata
    rw [length_drop, ← hsize] at hdatalen
    refine wp_ite (fun hrange ↦ wp_bind (wp_fail (.inr ⟨rfl, ?_⟩))) fun hrange ↦ ?_
    · change offset > record.payloadSize ∨ len > record.payloadSize - offset at hrange
      omega
    · change ¬(offset > record.payloadSize ∨ len > record.payloadSize - offset) at hrange
      rw [fileReadAt, if_neg (by omega), ← drop_drop, hdata]
      exact wp_pure ⟨rfl, by omega⟩
  rcases run_of_wp hwp (fun _ _ ↦ trivial) with ⟨bytes, hres, hbytes, hle⟩ | ⟨e, hres, he⟩
  · exact .inl ⟨hbytes ▸ hres, hle⟩
  · rw [hres]
    rcases he with rfl | ⟨rfl, hlt⟩
    · exact .inr (.inl rfl)
    · exact .inr (.inr ⟨rfl, hlt⟩)

/-- A handle that has just been opened. -/
theorem ObjectOpened.pinned (h : ObjectOpened id s handle s') :
    ∃ record, ObjectPinned id handle record
      (((s.files id.fid.toNat).getD []).drop fileObjectHeaderSize) s' := by
  obtain ⟨i, record, next, -, -, rfl⟩ := h.opened
  refine ⟨record, ⟨i, ?_, update_self ..⟩, fun _ ↦ rfl⟩
  rw [FileObjectRam.findHandle, FileObjectRam.tokens_set]
  exact HandleTable.find_update_self h.fresh.1 h.fresh.2

variable {calls : List (ObjectCall × List Outcome)}

theorem ObjectHeld.take (h : ObjectHeld static handle s calls) (i : ℕ) :
    ObjectHeld static handle s (calls.take i) := by
  induction calls generalizing s i with
  | nil => rwa [take_nil]
  | cons c calls ih =>
    rcases i with - | i
    · exact trivial
    · exact ⟨h.1, h.2.1, ih h.2.2 i⟩

theorem ObjectSafe.take (h : ObjectSafe static s calls) (i : ℕ) :
    ObjectSafe static s (calls.take i) := by
  induction calls generalizing s i with
  | nil => rwa [take_nil]
  | cons c calls ih =>
    rcases i with - | i
    · exact trivial
    · exact ⟨h.1, ih h.2 i⟩

/-- **Handles do not alias versions, as long as no put comes out at what an open handle
remembers.** In every state of such a run, whatever fails in it, a read through the handle gives
bytes of the version it was opened on, or the handle is stale. -/
theorem object_handle_stable (static : ℕ → Bool) (s : FsState FileObjectRam) (id : FileObjectId)
    {os : List Outcome} {handle : UInt32} (hopen : (fileObjectOpen id).result s os = .ok handle)
    {calls : List (ObjectCall × List Outcome)}
    (hheld : ObjectHeld static handle ((fileObjectOpen id).final s os) calls)
    (hsafe : ObjectSafe static ((fileObjectOpen id).final s os) calls) (i offset len : ℕ)
    (os' : List Outcome) :
    let data := ((s.files id.fid.toNat).getD []).drop fileObjectHeaderSize
    let read := (fileObjectReadAt handle offset len).result
      (objectRun static ((fileObjectOpen id).final s os) (calls.take i)) os'
    (read = .ok ((data.drop offset).take len) ∧ offset + len ≤ data.length) ∨
      read = .error (.code .staleHandle) ∨
      read = .error (.code .wrongLength) ∧ data.length < offset + len := by
  intro data read
  obtain ⟨record, hpinned⟩ := (final_of_result_ok (wp_fileObjectOpen s id) hopen).pinned
  exact (hpinned.run (calls.take i) (hheld.take i) (hsafe.take i)).readAt offset len os'

/-- A file with the object `⟨0, 1, 5⟩`, at generation one with payload `[1]`. -/
def exampleObjectState : FsState FileObjectRam :=
  ((fileObjectPut ⟨0, 1, 5⟩ [1]).final ⟨fun _ ↦ none, .boot⟩ [])

/-- An object is opened and then put again: the put comes out at generation two, and the handle is
stale. -/
theorem object_handle_stable_replaced :
    let calls : List (ObjectCall × List Outcome) := [(.put ⟨0, 1, 5⟩ [2], [])]
    let opened := (fileObjectOpen ⟨0, 1, 5⟩).final exampleObjectState []
    (fileObjectReadAt 1 0 1).result (objectRun (fun _ ↦ false) opened calls) [] =
      .error (.code .staleHandle) := by
  intro calls opened
  have hopen : (fileObjectOpen ⟨0, 1, 5⟩).result exampleObjectState [] = .ok 1 := by decide +kernel
  have hput : (ObjectCall.run (fun _ ↦ false) (.put ⟨0, 1, 5⟩ [2])).result opened [] = .ok () := by
    decide +kernel
  have hheld : ObjectHeld (fun _ ↦ false) 1 opened calls := by
    refine ⟨by decide, ?_, trivial⟩
    rw [hput]
    simp
  -- The object is at generation one, as is the handle.
  have hgen : objectGeneration (opened.files 5) ⟨0, 1, 5⟩ = 1 := by decide +kernel
  have htable : ∀ i, ((opened.ram.handles i).map FileObjectHandleEntry.generation).getD 1 = 1 := by
    decide +kernel
  have hsafe : ObjectSafe (fun _ ↦ false) opened calls := by
    refine ⟨fun i entry hentry _ hnext ↦ ?_, trivial⟩
    have hone := htable i
    rw [hentry, map_some, getD_some] at hone
    rw [hone] at hnext
    exact absurd hnext (by rw [show (5 : UInt16).toNat = 5 from rfl, hgen]; decide)
  have hdata : ((exampleObjectState.files 5).getD []).drop fileObjectHeaderSize = [1] := by
    decide +kernel
  have hread : (fileObjectReadAt 1 0 1).result (objectRun (fun _ ↦ false) opened calls) [] ≠
      .ok [1] := by decide +kernel
  rcases object_handle_stable (fun _ ↦ false) exampleObjectState ⟨0, 1, 5⟩ hopen hheld hsafe 1 0 1 []
    with ⟨h, -⟩ | h | ⟨-, h⟩
  · rw [show (5 : UInt16).toNat = 5 from rfl, hdata] at h
    exact absurd h hread
  · exact h
  · rw [show (5 : UInt16).toNat = 5 from rfl, hdata] at h
    exact absurd h (by decide)

/-- An object is put, opened, deleted and put again, with one byte each time: through the handle the
second byte is read. -/
theorem object_handle_aliased :
    let static (_ : ℕ) := false
    let calls : List (ObjectCall × List Outcome) :=
      [(.delete ⟨0, 1, 5⟩, []), (.put ⟨0, 1, 5⟩ [2], [])]
    let opened := (fileObjectOpen ⟨0, 1, 5⟩).final exampleObjectState []
    (fileObjectOpen ⟨0, 1, 5⟩).result exampleObjectState [] = .ok 1 ∧
      (fileObjectReadAt 1 0 1).result opened [] = .ok [1] ∧
      (fileObjectReadAt 1 0 1).result (objectRun static opened calls) [] = .ok [2] := by
  decide +kernel

end PicoAll
