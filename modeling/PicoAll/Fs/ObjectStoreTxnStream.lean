import PicoAll.Fs.ObjectStoreTxnStable

/-!
# The streamed tag, and what a stored object reads as

The MAC of a record is computed twice: when the record is built, from the header and the payload as
they are in memory, and whenever the record is validated, from the file, in pieces of 256 bytes
(`fileObjectTxnAuthRecord`). A MAC that can be fed piece by piece gives the same tag for both, for
every length of the payload; the model of the store asks for no more than that function of the bytes
(`StreamAuthenticator.authenticator`), and validates as the code does (`fileObjectTxnAuthRecord_eq`).

An object that has been put is then read back: its size and generation, every part of its payload,
and no part beyond it (`txn_object_round_trip`). Offsets are 32 bits wide, and the sums of the code
do not wrap around.
-/

namespace PicoAll

open FaultProgram BigEndian List UInt32 Nat

/-- `file_object_authenticator_t`, fed piece by piece: `σ` is its context. -/
structure StreamAuthenticator (σ : Type) where
  start : σ
  update : σ → Bytes → σ
  finish : σ → Bytes
  /-- No bytes are no input. -/
  update_nil : ∀ s, update s [] = s
  /-- Two pieces are as good as one. -/
  update_append : ∀ s a b, update (update s a) b = update s (a ++ b)
  length_finish : ∀ s, (finish s).length = 16

namespace StreamAuthenticator

variable {σ : Type}

/-- The tags as a function of what is fed. -/
def authenticator (stream : StreamAuthenticator σ) : FileObjectAuthenticator where
  tag input := stream.finish (stream.update stream.start input)
  length_tag _ := stream.length_finish _

end StreamAuthenticator

/-- `FILE_OBJECT_TXN_READ_CHUNK_SIZE`. -/
abbrev txnReadChunkSize : UInt32 := 256

section Stream

variable {σ : Type} (stream : StreamAuthenticator σ)

def fileObjectTxnAuthBuffer (first second : Bytes) : Bytes :=
  let s := stream.update stream.start first
  stream.finish (if second.length > 0 then stream.update s second else s)

/-- The loop of `file_object_txn_auth_record`, for a number of turns; `none` is a loop that has not
come to its end. -/
def txnAuthLoop (file : Bytes) (payloadSize : UInt32) : ℕ → UInt32 → σ → Option (Except Status σ)
  | 0, _, _ => none
  | turns + 1, offset, s =>
    if offset < payloadSize then
      let chunk :=
        if txnReadChunkSize < payloadSize - offset then txnReadChunkSize else payloadSize - offset
      match fileReadAt file (.ofNat txnRecordHeaderSize + offset : UInt32).toNat chunk.toNat with
      | .error r => some (.error r)
      | .ok buffer => txnAuthLoop file payloadSize turns (offset + chunk) (stream.update s buffer)
    else
      some (.ok s)

def fileObjectTxnAuthRecord (turns : ℕ) (file header : Bytes) (payloadSize : UInt32) :
    Option (Except Status Bytes) :=
  (txnAuthLoop stream file payloadSize turns 0 (stream.update stream.start header)).map
    (·.map stream.finish)

/-! ### One tag -/

theorem fileObjectTxnAuthBuffer_eq (first second : Bytes) :
    fileObjectTxnAuthBuffer stream first second = stream.authenticator.tag (first ++ second) := by
  rw [fileObjectTxnAuthBuffer]
  rcases second with - | ⟨b, second⟩
  · rw [append_nil]
    rfl
  · rw [if_pos (by simp), stream.update_append]
    rfl

variable {payloadSize : UInt32}

/-- **The loop**: with a turn for each byte at the most it comes to its end, and what it has fed is what
is left of the payload. -/
theorem txnAuthLoop_eq {file : Bytes}
    (hfits : payloadSize.toNat ≤ UINT32_MAX - txnRecordHeaderSize - authTagSize)
    (hfile : txnRecordHeaderSize + payloadSize.toNat ≤ file.length) {turns : ℕ} {offset : UInt32}
    (hoffset : offset ≤ payloadSize) (hturns : payloadSize.toNat - offset.toNat < turns) (s : σ) :
    txnAuthLoop stream file payloadSize turns offset s =
      some (.ok (stream.update s ((file.drop (txnRecordHeaderSize + offset.toNat)).take
        (payloadSize.toNat - offset.toNat)))) := by
  induction turns generalizing offset s with
  | zero => exact absurd hturns (not_lt_zero _)
  | succ turns ih =>
    rw [txnAuthLoop]
    have hleft := UInt32.toNat_sub_of_le _ _ hoffset
    by_cases hlt : offset < payloadSize
    swap
    · have hend : payloadSize.toNat - offset.toNat = 0 := by
        rw [lt_iff_toNat_lt] at hlt
        omega
      rw [if_neg hlt, hend, take_zero, stream.update_nil]
    rw [if_pos hlt]
    rw [lt_iff_toNat_lt] at hlt
    obtain ⟨chunk, hchunk⟩ : ∃ chunk, chunk = if txnReadChunkSize < payloadSize - offset then
        txnReadChunkSize else payloadSize - offset := ⟨_, rfl⟩
    have hsize : 0 < chunk.toNat ∧ chunk.toNat ≤ payloadSize.toNat - offset.toNat := by
      rw [hchunk]
      split_ifs with hmore
      · rw [lt_iff_toNat_lt, hleft] at hmore
        exact ⟨by decide, hmore.le⟩
      · rw [hleft]
        exact ⟨by omega, le_rfl⟩
    simp only [← hchunk]
    -- neither sum wraps around
    simp only [UINT32_MAX, txnRecordHeaderSize, authTagSize] at hfits hfile
    have hplace : ((UInt32.ofNat txnRecordHeaderSize + offset).toNat) =
        txnRecordHeaderSize + offset.toNat := by
      rw [UInt32.toNat_add, show (UInt32.ofNat txnRecordHeaderSize).toNat = 32 from rfl]
      exact mod_eq_of_lt (by omega)
    have hnext : (offset + chunk).toNat = offset.toNat + chunk.toNat := by
      rw [UInt32.toNat_add]
      exact mod_eq_of_lt (by omega)
    rw [hplace, fileReadAt, if_neg (by simp only [txnRecordHeaderSize]; omega)]
    dsimp only
    rw [ih (UInt32.le_iff_toNat_le.mpr (by omega)) (by omega), stream.update_append, hnext]
    congr 3
    have hrest : payloadSize.toNat - offset.toNat =
        chunk.toNat + (payloadSize.toNat - (offset.toNat + chunk.toNat)) := by omega
    rw [hrest, take_add, drop_drop, add_assoc]

/-- The tag of a record file is that of its header and its payload. -/
theorem fileObjectTxnAuthRecord_eq {file : Bytes} (header : Bytes)
    (hfits : payloadSize.toNat ≤ UINT32_MAX - txnRecordHeaderSize - authTagSize)
    (hfile : txnRecordHeaderSize + payloadSize.toNat ≤ file.length) {turns : ℕ}
    (hturns : payloadSize.toNat < turns) :
    fileObjectTxnAuthRecord stream turns file header payloadSize =
      some (.ok (stream.authenticator.tag
        (header ++ (file.drop txnRecordHeaderSize).take payloadSize.toNat))) := by
  have hzero : (0 : UInt32) ≤ payloadSize := UInt32.le_iff_toNat_le.mpr (zero_le _)
  have hloop := txnAuthLoop_eq stream hfits hfile hzero hturns (stream.update stream.start header)
  rw [fileObjectTxnAuthRecord, hloop, Option.map_some, stream.update_append]
  rfl

end Stream

/-! ### Reading with offsets of 32 bits -/

/-- `file_object_txn_read_at`, with the offset and the sizes as wide as they are. -/
def fileObjectTxnReadAt32 (auth : FileObjectAuthenticator) (handle offset : UInt32) (len : ℕ) :
    FsProg TxnRam Bytes := do
  let entry ← fileObjectTxnResolve auth handle
  let payloadSize : UInt32 := .ofNat entry.state.payloadSize
  if offset > payloadSize ∨ len > (payloadSize - offset).toNat then
    FaultProgram.fail .wrongLength
  if h : entry.state.recordSlot < 2 then
    match ← fileSearch (entry.layout.recordFid ⟨entry.state.recordSlot, h⟩) with
    | none => FaultProgram.fail .nullParam
    | some file =>
      liftExcept (fileReadAt file (.ofNat txnRecordHeaderSize + offset : UInt32).toNat len)
  else
    FaultProgram.fail .nullParam

variable {static : ℕ → Bool} {layout : FileObjectTxnLayout} {auth : FileObjectAuthenticator}
  {handle : UInt32} {state : FileObjectTxnState} {data : Bytes} {s : FsState TxnRam}

section Current

variable (h : TxnPinned layout auth handle state data s)
  (hrec : fileObjectTxnRecover layout auth s.files = .ok state)

include h hrec

theorem TxnPinned.version_current : txnVersion layout auth s.files = .ok data := by
  rcases h.version with ⟨-, hversion⟩ | hlt
  · exact hversion
  · rw [txnGeneration_of_recover hrec] at hlt
    exact absurd hlt (lt_irrefl _)

/-- The current version tells its size and its generation. -/
theorem TxnPinned.getInfo_current :
    (fileObjectTxnGetInfo auth handle).result s [] = .ok (data.length, state.generation) := by
  obtain ⟨i, hfind, hentry⟩ := h.entry
  obtain ⟨hlive, hlen, -⟩ := txnVersion_read hrec (h.version_current hrec)
  refine result_of_wp (x := .ok (data.length, state.generation)) ?_
  refine wp_bind (wp_fileObjectTxnResolve hfind hentry hrec hlive (wp_pure ?_))
  rw [hlen]

/-- **Reading the current version**: what is asked for if all of it is there, and nothing else. The
address behind the header does not wrap around. -/
theorem TxnPinned.readAt32_current
    (hfits : data.length ≤ UINT32_MAX - txnRecordHeaderSize - authTagSize) (offset : UInt32)
    (len : ℕ) :
    (fileObjectTxnReadAt32 auth handle offset len).result s [] =
      if offset.toNat + len ≤ data.length then .ok ((data.drop offset.toNat).take len)
      else .error (.code .wrongLength) := by
  obtain ⟨i, hfind, hentry⟩ := h.entry
  obtain ⟨hlive, hlen, hslot, file, hfile, hfull⟩ :=
    txnVersion_read hrec (h.version_current hrec)
  simp only [UINT32_MAX, txnRecordHeaderSize, authTagSize] at hfits
  have hsize : (UInt32.ofNat state.payloadSize).toNat = data.length := by
    rw [toNat_ofNat', ← hlen]
    exact mod_eq_of_lt (by omega)
  have hrange : (offset > .ofNat state.payloadSize ∨
      len > (UInt32.ofNat state.payloadSize - offset).toNat) ↔ ¬offset.toNat + len ≤ data.length := by
    rw [gt_iff_lt, lt_iff_toNat_lt, hsize]
    by_cases hout : data.length < offset.toNat
    · exact ⟨fun _ ↦ by omega, fun _ ↦ .inl hout⟩
    · rw [UInt32.toNat_sub_of_le _ _ (UInt32.le_iff_toNat_le.mpr (by omega)), hsize]
      omega
  have hplace (hin : offset.toNat + len ≤ data.length) :
      (UInt32.ofNat txnRecordHeaderSize + offset).toNat = txnRecordHeaderSize + offset.toNat := by
    rw [UInt32.toNat_add, show (UInt32.ofNat txnRecordHeaderSize).toNat = 32 from rfl]
    exact mod_eq_of_lt (by omega)
  by_cases hin : offset.toNat + len ≤ data.length
  · rw [if_pos hin]
    refine result_of_wp (x := .ok ((data.drop offset.toNat).take len)) ?_
    refine wp_bind (wp_fileObjectTxnResolve hfind hentry hrec hlive ?_)
    refine wp_ite (fun hout ↦ absurd hin (hrange.mp hout)) fun _ ↦ ?_
    rw [dif_pos hslot]
    refine wp_bind (wp_fileSearch ?_)
    have hpart := @fileReadAt_part file data state.payloadSize offset.toNat len hfull (by omega)
      (by omega)
    simp only [hfile, hplace hin, hpart]
    exact wp_pure rfl
  · rw [if_neg hin]
    refine result_of_wp (x := .error Status.wrongLength) ?_
    refine wp_bind (wp_fileObjectTxnResolve hfind hentry hrec hlive ?_)
    exact wp_guard ⟨_, rfl, rfl⟩ fun hout ↦ absurd (hrange.mpr hin) hout

end Current

/-- An object that is there can be opened, if a handle is free. -/
theorem fileObjectTxnOpen_ok (hvalid : fileObjectTxnLayoutValid static layout = true)
    (hrec : fileObjectTxnRecover layout auth s.files = .ok state) (hlive : state.deleted = false)
    (hfree : ∃ i, s.ram.handles i = none) :
    ∃ handle, (fileObjectTxnOpen static layout auth).result s [] = .ok handle := by
  obtain ⟨i, hi⟩ : ∃ i, s.ram.freeEntry = some i := by
    rw [← Option.isSome_iff_exists, TxnRam.freeEntry, find?_isSome]
    obtain ⟨i, hi⟩ := hfree
    exact ⟨i, mem_finRange i, by simp [hi]⟩
  rcases halloc : s.ram.allocateToken (txnMaxHandles + 2) s.ram.nextHandle with ⟨token, next⟩
  refine ⟨token, result_of_wp (x := .ok token) ?_⟩
  unfold fileObjectTxnOpen
  simp only [hvalid, Bool.not_true, Bool.false_eq_true, if_false]
  refine wp_get (wp_bind (wp_authenticated_ok (fun a ha ↦ ?_) fun r hr ↦ ?_))
  · rw [hrec] at ha
    cases ha
    simp only [hlive, Bool.false_eq_true, if_false, hi, halloc]
    exact wp_bind (wp_modifyState (wp_pure rfl))
  · rw [hrec] at hr
    cases hr

/-! ### A put without disturbances -/

section Undisturbed

variable {ρ : Type} {α β : Type}

/-- The program comes to its end unless it is disturbed, wherever it starts. -/
def Completes (m : FsProg ρ α) : Prop :=
  ∀ s, wp (fun o ↦ o = .ok) m (fun _ _ ↦ True) (fun _ _ ↦ False) s

namespace Completes

protected theorem pure (a : α) : Completes (pure a : FsProg ρ α) :=
  fun _ ↦ wp_pure trivial

protected theorem perform (r : Status) (f : FsState ρ → FsState ρ) :
    Completes (perform r f : FsProg ρ Unit) :=
  fun _ ↦ wp_perform trivial (nomatch ·) (nomatch ·) (nomatch ·)

protected theorem bind {m : FsProg ρ α} {f : α → FsProg ρ β} (hm : Completes m)
    (hf : ∀ a, Completes (f a)) : Completes (m >>= f) :=
  fun s ↦ wp_then (hm s) fun a s' _ ↦ hf a s'

protected theorem fileSearch (fid : ℕ) : Completes (fileSearch fid : FsProg ρ (Option Bytes)) :=
  fun _ ↦ wp_fileSearch trivial

theorem authenticated (a : α) : Completes (authenticated (.ok a) : FsProg ρ α) :=
  .bind (.perform _ _) fun _ ↦ .pure a

theorem removeFile {fid : ℕ} (hstatic : static fid = false) :
    Completes (fileObjectTxnRemoveFile static fid : FsProg ρ Unit) := by
  refine .bind (.fileSearch fid) fun file ↦ ?_
  rcases file with - | c
  · exact .pure ()
  · simp only [hstatic, Bool.false_eq_true, if_false]
    exact .perform _ _

theorem replaceFile {fid : ℕ} (hstatic : static fid = false) (data : Bytes) :
    Completes (fileObjectTxnReplaceFile static fid data : FsProg ρ Unit) := by
  refine .bind (removeFile hstatic) fun _ ↦ .bind (.bind (.fileSearch fid) fun file ↦ ?_)
    fun _ ↦ .perform _ _
  rcases file with - | c
  · exact .perform _ _
  · exact .pure ()

theorem result {m : FsProg ρ Unit} {s : FsState ρ}
    (h : wp (fun o ↦ o = .ok) m (fun _ _ ↦ True) (fun _ _ ↦ False) s) : m.result s [] = .ok () := by
  have hnil : ∀ o ∈ ([] : List Outcome), o = .ok := by simp
  rcases run_of_wp h hnil with ⟨⟨⟩, hok, -⟩ | ⟨_, -, hfalse⟩
  · exact hok
  · exact hfalse.elim

end Completes

/-- **Every payload that fits can be put**, as long as there is a generation left. -/
theorem fileObjectTxnPut_ok (hvalid : fileObjectTxnLayoutValid static layout = true)
    {s : FsState ρ} {slot : Fin 2} {generation : ℕ}
    (hnext : fileObjectTxnNextState layout auth s.files = .ok (slot, generation))
    (hlen : data.length ≤ UINT32_MAX - txnRecordHeaderSize - authTagSize) :
    (fileObjectTxnPut static layout auth data).result s [] = .ok () := by
  refine Completes.result ?_
  obtain ⟨hrecord, hcommit⟩ := static_of_layoutValid hvalid slot
  unfold fileObjectTxnPut
  simp only [hvalid, Bool.not_true, Bool.false_eq_true, if_false]
  refine wp_ite (fun hlong ↦ absurd hlong (by omega)) fun _ ↦ ?_
  refine wp_get (wp_bind (wp_authenticated_ok (fun a ha ↦ ?_) fun r hr ↦ ?_))
  · rw [hnext] at ha
    cases ha
    refine (Completes.removeFile hcommit).bind (fun _ ↦ (Completes.removeFile hrecord).bind
      fun _ ↦ .bind ?_ fun _ ↦ .bind (.perform _ _) fun _ ↦
      .bind (.bind (.authenticated _) fun _ ↦ .replaceFile hcommit _) fun _ ↦ .perform _ _) s
    unfold fileObjectTxnWriteRecord
    rw [if_neg (by omega)]
    exact .bind (.authenticated _) fun _ ↦ .bind (.replaceFile hrecord _) fun _ ↦ .pure _
  · rw [hnext] at hr
    cases hr

end Undisturbed

/-! ### The round trip -/

/-- A put that reported success is complete. -/
theorem put_done_of_ok {files : Files} {ram : TxnRam} {os : List Outcome}
    (hput : (fileObjectTxnPut static layout auth data).result ⟨files, ram⟩ os = .ok ()) :
    fileObjectTxnLayoutValid static layout = true ∧ ∃ slot generation,
      TxnPutDone layout auth files
        ((fileObjectTxnPut static layout auth data).final ⟨files, ram⟩ os).files slot generation
        data := by
  rcases hvalid : fileObjectTxnLayoutValid static layout with - | -
  · exact (final_of_result_ok (wp_run_of_invalid hvalid (.put data)) hput).elim
  · have hstages := wp_fileObjectTxnPut_stages (s := ⟨files, ram⟩) (P := fun _ ↦ True)
      (N := fun files' ↦ ∃ slot generation,
        TxnPutDone layout auth files files' slot generation data) hvalid data trivial
      (fun _ _ _ ↦ trivial) fun slot generation _ hdone ↦ ⟨slot, generation, hdone⟩
    exact ⟨rfl, final_of_result_ok hstages hput⟩

/-- **The tag of a stored record, computed again from the file.** -/
theorem TxnPutDone.streamed {σ : Type} {stream : StreamAuthenticator σ} {files files' : Files}
    {slot : Fin 2} {generation : ℕ}
    (h : TxnPutDone layout stream.authenticator files files' slot generation data) :
    let header := (txnRecordFields layout slot generation generation data.length).encode
    let tag := fileObjectTxnAuthBuffer stream header data
    files' (layout.recordFid slot) = some (header ++ data ++ tag) ∧
      ∀ turns, data.length < turns →
        fileObjectTxnAuthRecord stream turns (header ++ data ++ tag)
          ((header ++ data ++ tag).take txnRecordHeaderSize) (.ofNat data.length) =
          some (.ok tag) := by
  intro header tag
  have hheader : header.length = txnRecordHeaderSize :=
    length_txnRecordFields layout slot generation generation data.length
  have htag : tag = stream.authenticator.tag (header ++ data) :=
    fileObjectTxnAuthBuffer_eq stream header data
  refine ⟨h.record.trans (by rw [htag]; rfl), fun turns hturns ↦ ?_⟩
  have hfits := h.length_le
  have hsize : (UInt32.ofNat data.length).toNat = data.length := by
    simp only [UINT32_MAX, txnRecordHeaderSize, authTagSize] at hfits
    exact mod_eq_of_lt (by omega)
  have hfile : txnRecordHeaderSize + (UInt32.ofNat data.length).toNat ≤
      (header ++ data ++ tag).length := by
    simp only [length_append, hsize, hheader]
    omega
  rw [append_assoc, take_left' hheader, ← append_assoc,
    fileObjectTxnAuthRecord_eq stream header (hsize.symm ▸ hfits) hfile (hsize.symm ▸ hturns), htag,
    hsize, append_assoc, drop_left' hheader, take_left' rfl]

/-- **A transactional object reads back as it was put.** Every payload that fits can be put, and
after any put that reported success the record file has the header, the payload and the tag computed
then, which is the tag that streaming the file gives; the object can be opened, tells the length of
the payload and the generation of the put, and gives every part of the payload, for offsets of 32
bits and lengths of any width, and nothing else. -/
theorem txn_object_round_trip {σ : Type} (stream : StreamAuthenticator σ) {files : Files}
    (hreach : TxnReachable static layout stream.authenticator files) (data : Bytes) (ram : TxnRam) :
    let put := fileObjectTxnPut static layout stream.authenticator data
    (∀ slot generation, fileObjectTxnLayoutValid static layout = true →
      fileObjectTxnNextState layout stream.authenticator files = .ok (slot, generation) →
      data.length ≤ UINT32_MAX - txnRecordHeaderSize - authTagSize →
      put.result ⟨files, ram⟩ [] = .ok ()) ∧
    ∀ os, put.result ⟨files, ram⟩ os = .ok () →
      ∃ slot generation,
        fileObjectTxnNextState layout stream.authenticator files = .ok (slot, generation) ∧
        let stored := (put.final ⟨files, ram⟩ os).files
        let header := (txnRecordFields layout slot generation generation data.length).encode
        let tag := fileObjectTxnAuthBuffer stream header data
        stored (layout.recordFid slot) = some (header ++ data ++ tag) ∧
        (∀ turns, data.length < turns →
          fileObjectTxnAuthRecord stream turns (header ++ data ++ tag)
            ((header ++ data ++ tag).take txnRecordHeaderSize) (.ofNat data.length) =
            some (.ok tag)) ∧
        ∀ ram', (∃ i, ram'.handles i = none) →
          let openObject := fileObjectTxnOpen static layout stream.authenticator
          let opened := openObject.final ⟨stored, ram'⟩ []
          ∃ handle, openObject.result ⟨stored, ram'⟩ [] = .ok handle ∧
            (fileObjectTxnGetInfo stream.authenticator handle).result opened [] =
              .ok (data.length, generation) ∧
            ∀ (offset : UInt32) (len : ℕ),
              (fileObjectTxnReadAt32 stream.authenticator handle offset len).result opened [] =
                if offset.toNat + len ≤ data.length then .ok ((data.drop offset.toNat).take len)
                else .error (.code .wrongLength) := by
  intro put
  refine ⟨fun slot generation hvalid hnext hlen ↦ fileObjectTxnPut_ok hvalid hnext hlen,
    fun os hput ↦ ?_⟩
  obtain ⟨hvalid, slot, generation, hdone⟩ := put_done_of_ok hput
  refine ⟨slot, generation, hdone.next, hdone.streamed.1, hdone.streamed.2, fun ram' hfree ↦ ?_⟩
  obtain ⟨hrec, -⟩ := hdone.recover hvalid (hreach.invariant hvalid).sound
  obtain ⟨handle, hopen⟩ := fileObjectTxnOpen_ok (s := ⟨_, ram'⟩) hvalid hrec rfl hfree
  have hopened := final_of_result_ok (wp_fileObjectTxnOpen _) hopen
  have hinv := (TxnReachable.call hreach (.put data) ram os).invariant hvalid
  obtain ⟨state, data', hrec', hversion, hfiles, hpinned⟩ := hopened.pinned hinv
  obtain rfl : state = _ := Except.ok.inj (hrec'.symm.trans hrec)
  obtain rfl : data' = data := by
    have hread := txnVersion_of_live hrec rfl slot.isLt hdone.record
    rw [fileReadAt_txnRecordContent] at hread
    exact Except.ok.inj (hversion.symm.trans hread)
  have hcurrent := hfiles.symm ▸ hrec
  exact ⟨handle, hopen, hpinned.getInfo_current hcurrent,
    hpinned.readAt32_current hcurrent hdone.length_le⟩

theorem length_exampleStreamTag (s : Bytes) : (beBytes 16 (beNat s)).length = 16 :=
  length_beBytes _ _

/-- A MAC that can be fed piece by piece, with the low 16 bytes of the input in the place of a
cryptographic tag. -/
def exampleStreamAuth : StreamAuthenticator Bytes where
  start := []
  update := (· ++ ·)
  finish s := beBytes 16 (beNat s)
  update_nil := List.append_nil
  update_append := List.append_assoc
  length_finish := length_exampleStreamTag

/-- Three bytes and none, put into an absent object and read back. -/
theorem txn_object_round_trip_first_put :
    let put (data : Bytes) : FsProg TxnRam Unit :=
      fileObjectTxnPut (fun _ ↦ false) exampleTxnLayout exampleStreamAuth.authenticator data
    (put [7, 8, 9]).result ⟨fun _ ↦ none, .boot⟩ [] = .ok () ∧
      (put []).result ⟨fun _ ↦ none, .boot⟩ [] = .ok () :=
  have hreach : TxnReachable (fun _ ↦ false) exampleTxnLayout exampleStreamAuth.authenticator
      fun _ ↦ none := .absent fun _ ↦ ⟨rfl, rfl⟩
  ⟨(txn_object_round_trip exampleStreamAuth hreach [7, 8, 9] .boot).1 0 1 (by decide) (by rfl)
    (by decide), (txn_object_round_trip exampleStreamAuth hreach [] .boot).1 0 1 (by decide)
    (by rfl) (by decide)⟩

end PicoAll
