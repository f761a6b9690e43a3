import PicoAll.Fido.LargeBlobs

/-!
# The large-blob array is one upload

A trace is what was asked and what was answered. A set request at offset zero with a length that is
accepted *starts* an upload, even if the request itself is refused; a set request that is answered
with success, or with a wrong hash, is a *fragment*. What is in the buffer are the fragments since the
last start (`UploadInv`), so the array that is stored is made of the fragments of one upload
(`large_blobs_integrity`). A request that starts an upload drops the one in progress; otherwise only
fragments change it.
-/

namespace PicoAll

open BigEndian ByteBuffer Nat

/-- What happens to the authenticator. -/
inductive LargeBlobsEvent where
  /-- A message arrives. -/
  | message (env : LargeBlobsEnv) (items : List CborItem)
  /-- Time passes. -/
  | tick (now : UInt32)

open LargeBlobsEvent

/-- A request that passes the first checks and is a set, with what it sets. -/
def LargeBlobsEvent.setRequest? :
    LargeBlobsEvent → Option (LargeBlobsEnv × LargeBlobsRequest × Bytes)
  | message env items =>
    match largeBlobsRequest items with
    | .error _ => none
    | .ok request =>
      match request.get, request.set with
      | none, some set => some (env, request, set)
      | _, _ => none
  | tick _ => none

/-- The length of the upload that a request starts. -/
def LargeBlobsEvent.starts? (event : LargeBlobsEvent) : Option ℕ :=
  event.setRequest?.bind fun (_, request, set) ↦
    let length := (request.length.getD 0).toNat
    if set.length ≤ maxFragmentLength ∧ request.offset = 0 ∧ 17 ≤ length ∧
        length ≤ maxLargeBlobSize then some length
    else none

/-- An event and how it was answered. -/
abbrev LargeBlobsEntry := LargeBlobsEvent × Except CtapError (Option Bytes)

/-- The fragment that a request has added to the buffer, with its offset. -/
def largeBlobsFragment? (entry : LargeBlobsEntry) : Option (ℕ × Bytes) :=
  match entry.2 with
  | .ok _ | .error .integrityFailure =>
    entry.1.setRequest?.map fun (_, request, set) ↦ (request.offset.toNat, set)
  | .error _ => none

section Runs

variable (sha256 : Bytes → Bytes) (hmac : Bytes → Bytes → Bytes)

/-- A set request carries the authorisation it needs. -/
def LargeBlobsEvent.Authorised (event : LargeBlobsEvent) : Prop :=
  ∀ env request set, event.setRequest? = some (env, request, set) →
    largeBlobsAuthorize sha256 hmac env request set = .ok ()

def LargeBlobsEvent.step (s : LargeBlobs) :
    LargeBlobsEvent → Except CtapError (Option Bytes) × LargeBlobs
  | message env items => cborLargeBlobs sha256 hmac env s items
  | tick now => (.ok none, cborLargeBlobsTick s now)

/-- The trace and the state after some events. -/
def largeBlobsRun (s : LargeBlobs) (events : List LargeBlobsEvent) :
    List LargeBlobsEntry × LargeBlobs :=
  events.foldl (fun run event ↦
    let (result, s) := event.step sha256 hmac run.2
    (run.1 ++ [(event, result)], s)) ([], s)

/-- A part of a trace that is an upload of some length, up to the bytes that are there: its first
request starts it and no other request of it starts one; the fragments in it are authorised, each is
at the offset where the ones before it end, and together they are the bytes. -/
structure UploadSegment (segment : List LargeBlobsEntry) (length : ℕ) (data : Bytes) : Prop where
  starts : ∃ first rest, segment = first :: rest ∧ first.1.starts? = some length ∧
    ∀ entry ∈ rest, entry.1.starts? = none
  authorised : ∀ entry ∈ segment, (largeBlobsFragment? entry).isSome →
    entry.1.Authorised sha256 hmac
  offsets : ∀ before fragment after,
    segment.filterMap largeBlobsFragment? = before ++ fragment :: after →
      fragment.1 = (before.flatMap Prod.snd).length
  data_eq : (segment.filterMap largeBlobsFragment?).flatMap Prod.snd = data

/-- The last 16 bytes of an array are the truncated hash of the rest. -/
def LargeBlobHashed (array : Bytes) : Prop :=
  array.drop (array.length - 16) = (sha256 (array.take (array.length - 16))).take 16

end Runs

variable {sha256 : Bytes → Bytes} {hmac : Bytes → Bytes → Bytes} {s s' : LargeBlobs}
  {event : LargeBlobsEvent} {segment trace : List LargeBlobsEntry} {entry : LargeBlobsEntry}
  {length offset : ℕ} {data set : Bytes}

namespace UploadSegment

/-- What is not a fragment and starts nothing belongs to the upload without adding to it. -/
theorem concat (h : UploadSegment sha256 hmac segment length data)
    (hstart : entry.1.starts? = none) (hnone : largeBlobsFragment? entry = none) :
    UploadSegment sha256 hmac (segment ++ [entry]) length data := by
  obtain ⟨first, rest, hsegment, hfirst, hrest⟩ := h.starts
  have hfragments : (segment ++ [entry]).filterMap largeBlobsFragment? =
      segment.filterMap largeBlobsFragment? := by
    rw [List.filterMap_append, List.filterMap_cons_none hnone, List.filterMap_nil, List.append_nil]
  refine ⟨⟨first, rest ++ [entry], by rw [hsegment, List.cons_append], hfirst, fun e he ↦ ?_⟩,
    fun e he hsome ↦ ?_, ?_, ?_⟩
  · rcases List.mem_append.mp he with he | he
    · exact hrest e he
    · rwa [List.mem_singleton.mp he]
  · rcases List.mem_append.mp he with he | he
    · exact h.authorised e he hsome
    · rw [List.mem_singleton.mp he, hnone] at hsome
      cases hsome
  · rw [hfragments]
    exact h.offsets
  · rw [hfragments]
    exact h.data_eq

/-- A fragment at the end. -/
theorem concat_fragment (h : UploadSegment sha256 hmac segment length data)
    (hstart : entry.1.starts? = none) (hfragment : largeBlobsFragment? entry = some (offset, set))
    (hauth : entry.1.Authorised sha256 hmac) (hoffset : offset = data.length) :
    UploadSegment sha256 hmac (segment ++ [entry]) length (data ++ set) := by
  obtain ⟨first, rest, hsegment, hfirst, hrest⟩ := h.starts
  have hfragments : (segment ++ [entry]).filterMap largeBlobsFragment? =
      segment.filterMap largeBlobsFragment? ++ [(offset, set)] := by
    rw [List.filterMap_append, List.filterMap_cons_some hfragment, List.filterMap_nil]
  refine ⟨⟨first, rest ++ [entry], by rw [hsegment, List.cons_append], hfirst, fun e he ↦ ?_⟩,
    fun e he hsome ↦ ?_, fun before fragment after heq ↦ ?_, ?_⟩
  · rcases List.mem_append.mp he with he | he
    · exact hrest e he
    · rwa [List.mem_singleton.mp he]
  · rcases List.mem_append.mp he with he | he
    · exact h.authorised e he hsome
    · rwa [List.mem_singleton.mp he]
  · -- The fragment is the new one, or one that was there.
    rw [hfragments] at heq
    rcases List.eq_nil_or_concat after with rfl | ⟨after, last, rfl⟩
    · obtain ⟨hbefore, hlast⟩ := List.append_inj' heq rfl
      obtain rfl := List.head_eq_of_cons_eq hlast
      rw [← hbefore, h.data_eq]
      exact hoffset
    · rw [List.concat_eq_append, ← List.cons_append, ← List.append_assoc] at heq
      exact h.offsets before fragment after (List.append_inj' heq rfl).1
  · rw [hfragments, List.flatMap_append, h.data_eq]
    simp

/-- A fragment that starts an upload. -/
theorem start (hstart : entry.1.starts? = some length)
    (hfragment : largeBlobsFragment? entry = some (0, set))
    (hauth : entry.1.Authorised sha256 hmac) : UploadSegment sha256 hmac [entry] length set := by
  have hfragments : [entry].filterMap largeBlobsFragment? = [(0, set)] := by
    rw [List.filterMap_cons_some hfragment, List.filterMap_nil]
  refine ⟨⟨entry, [], rfl, hstart, fun _ he ↦ absurd he List.not_mem_nil⟩, fun e he _ ↦ ?_,
    fun before fragment after heq ↦ ?_, by rw [hfragments]; simp⟩
  · rwa [List.mem_singleton.mp he]
  · rw [hfragments] at heq
    rcases before with - | ⟨b, before⟩
    · rw [List.nil_append] at heq
      rw [← (List.head_eq_of_cons_eq heq)]
      rfl
    · simp at heq

end UploadSegment

/-! ### What one event does -/

/-- What a fragment leaves. -/
inductive FragmentStep (sha256 : Bytes → Bytes) (env : LargeBlobsEnv) (s : LargeBlobs) :
    Except CtapError (Option Bytes) → LargeBlobs → Prop
  /-- It is in the buffer; if the array is complete, its hash is wrong. -/
  | buffered {result : Except CtapError (Option Bytes)}
      (hresult : result = .ok none ∨ result = .error .integrityFailure ∧
        s.expectedNextOffset = s.expectedLength) : FragmentStep sha256 env s result s
  /-- The array is complete and has been written, unless the file could not be. -/
  | stored (hnext : s.expectedNextOffset = s.expectedLength)
      (hhash : (sha256 (slice s.tempLba 0 (s.expectedLength - 16))).take 16 =
        slice s.tempLba (s.expectedLength - 16) 16) :
      FragmentStep sha256 env s (.ok none) { s with
        stored := if env.put then s.array else s.stored
        expectedLength := 0, expectedNextOffset := 0, active := false }

/-- What an event does. -/
inductive LargeBlobsStep (sha256 : Bytes → Bytes) (hmac : Bytes → Bytes → Bytes) (s : LargeBlobs)
    (event : LargeBlobsEvent) : Except CtapError (Option Bytes) → LargeBlobs → Prop
  /-- Nothing. -/
  | quiet {result : Except CtapError (Option Bytes)} (hstart : event.starts? = none)
      (hnone : largeBlobsFragment? (event, result) = none) :
      LargeBlobsStep sha256 hmac s event result s
  /-- The upload in progress is dropped after some time. -/
  | expired {now : UInt32} (hevent : event = .tick now) :
      LargeBlobsStep sha256 hmac s event (.ok none)
        { s with expectedLength := 0, expectedNextOffset := 0, active := false }
  /-- A request that starts an upload is refused. -/
  | refused {now : UInt32} {length : ℕ} {e : CtapError} (hstart : event.starts? = some length)
      (hnone : largeBlobsFragment? (event, .error e) = none) :
      LargeBlobsStep sha256 hmac s event (.error e) { s with
        expectedLength := length, expectedNextOffset := 0, timer := now, active := true }
  /-- A fragment starts an upload. -/
  | first {env : LargeBlobsEnv} {set : Bytes} {length : ℕ}
      {result : Except CtapError (Option Bytes)} {s' : LargeBlobs}
      (hstart : event.starts? = some length)
      (hfragment : largeBlobsFragment? (event, result) = some (0, set))
      (hauth : event.Authorised sha256 hmac) (hlength : set.length ≤ length)
      (hstep : FragmentStep sha256 env (LargeBlobs.appended { s with
        expectedLength := length, expectedNextOffset := 0, timer := env.now, active := true }
          env 0 set) result s') :
      LargeBlobsStep sha256 hmac s event result s'
  /-- A fragment continues the upload in progress. -/
  | next {env : LargeBlobsEnv} {set : Bytes}
      {result : Except CtapError (Option Bytes)} {s' : LargeBlobs}
      (hstart : event.starts? = none) (hoffset : s.expectedNextOffset ≠ 0)
      (hfragment : largeBlobsFragment? (event, result) = some (s.expectedNextOffset, set))
      (hauth : event.Authorised sha256 hmac)
      (hlength : (s.expectedNextOffset + set.length) % 2 ^ 64 ≤ s.expectedLength)
      (hmax : set.length ≤ maxFragmentLength)
      (hstep : FragmentStep sha256 env (s.appended env s.expectedNextOffset set) result s') :
      LargeBlobsStep sha256 hmac s event result s'

variable {env : LargeBlobsEnv}

/-- A fragment that fits is in the buffer afterwards. -/
theorem largeBlobsAppend_step {result : Except CtapError Unit}
    (h : largeBlobsAppend sha256 env s offset set = (result, s')) :
    (result = .error .invalidParameter ∧ s' = s) ∨
      (offset + set.length) % 2 ^ 64 ≤ s.expectedLength ∧
        (result = .ok () ∨ result = .error .integrityFailure) ∧
        FragmentStep sha256 env (s.appended env offset set) (result.map fun () ↦ none) s' := by
  rw [largeBlobsAppend] at h
  split_ifs at h with hlong
  · cases h
    exact .inl ⟨rfl, rfl⟩
  · refine .inr ⟨not_lt.mp hlong, ?_⟩
    rw [largeBlobsComplete] at h
    by_cases hnext : (s.appended env offset set).expectedNextOffset =
      (s.appended env offset set).expectedLength
    · rw [if_pos hnext] at h
      split at h
      · cases h
        exact ⟨.inr rfl, .buffered (.inr ⟨rfl, hnext⟩)⟩
      · rename_i hhash
        cases h
        exact ⟨.inl rfl, .stored hnext (not_not.mp hhash)⟩
    · rw [if_neg hnext] at h
      cases h
      exact ⟨.inl rfl, .buffered (.inl rfl)⟩

variable {result : Except CtapError (Option Bytes)} {request : LargeBlobsRequest} {e : CtapError}
  {initial : Bytes}

/-- The three ways a set request that passes the first checks can begin. -/
theorem largeBlobsBegin_cases (hset : event.setRequest? = some (env, request, set))
    (hmax : set.length ≤ maxFragmentLength) :
    (∃ e, largeBlobsBegin env s request = .error e ∧ event.starts? = none ∧ e ≠ .integrityFailure) ∨
      (∃ length, largeBlobsBegin env s request = .ok { s with
          expectedLength := length, expectedNextOffset := 0, timer := env.now, active := true } ∧
        event.starts? = some length ∧ request.offset = 0) ∨
      (largeBlobsBegin env s request = .ok s ∧ event.starts? = none ∧ request.offset ≠ 0) := by
  have hstarts : event.starts? = if set.length ≤ 960 ∧ request.offset = 0 ∧
      17 ≤ (request.length.getD 0).toNat ∧ (request.length.getD 0).toNat ≤ 2048
      then some (request.length.getD 0).toNat else none := by
    rw [starts?, hset]
    rfl
  rw [largeBlobsBegin, maxLargeBlobSize]
  split_ifs with hoffset hzero hfull hshort hlength
  · exact .inl ⟨_, rfl, hstarts.trans (if_neg (by omega)), by simp⟩
  · exact .inl ⟨_, rfl, hstarts.trans (if_neg (by omega)), by simp⟩
  · exact .inl ⟨_, rfl, hstarts.trans (if_neg (by omega)), by simp⟩
  · exact .inr (.inl ⟨_, rfl, hstarts.trans (if_pos ⟨hmax, hoffset, by omega, by omega⟩), hoffset⟩)
  · exact .inl ⟨_, rfl, hstarts.trans (if_neg fun h ↦ hoffset h.2.1), by simp⟩
  · exact .inr (.inr ⟨rfl, hstarts.trans (if_neg fun h ↦ hoffset h.2.1), hoffset⟩)

/-- A refusal is not a fragment. -/
theorem largeBlobsFragment?_error (he : e ≠ .integrityFailure) :
    largeBlobsFragment? (event, .error e) = none := by
  cases e <;> first | rfl | exact absurd rfl he

theorem largeBlobsAuthorize_error (h : largeBlobsAuthorize sha256 hmac env request set = .error e) :
    e ≠ .integrityFailure := by
  rintro rfl
  rw [largeBlobsAuthorize] at h
  by_cases hneeded : env.requirePinAuth ∨ request.pinUvAuthParam.isSome ∨
    request.pinUvAuthProtocol.isSome
  · rw [if_pos hneeded] at h
    rcases hparam : request.pinUvAuthParam with - | param <;> rw [hparam] at h
    · cases h
    rcases hprotocol : request.pinUvAuthProtocol with - | protocol <;> rw [hprotocol] at h
    · cases h
    simp only at h
    split_ifs at h <;> cases h
  · rw [if_neg hneeded] at h
    cases h

/-- **A set request** that passes the first checks. -/
theorem largeBlobsSet_step (hset : event.setRequest? = some (env, request, set))
    {result : Except CtapError Unit}
    (h : largeBlobsSet sha256 hmac env s request set = (result, s')) :
    LargeBlobsStep sha256 hmac s event (result.map fun () ↦ none) s' := by
  rw [largeBlobsSet] at h
  split_ifs at h with hmax
  · cases h
    refine .quiet ?_ (largeBlobsFragment?_error (by simp))
    rw [starts?, hset, Option.bind_some]
    exact if_neg fun h ↦ absurd h.1 (not_le.mpr hmax)
  have hmax := not_lt.mp hmax
  have hfragment {r : Except CtapError Unit} (hr : r = .ok () ∨ r = .error .integrityFailure) :
      largeBlobsFragment? (event, r.map fun () ↦ none) = some (request.offset.toNat, set) := by
    rcases hr with rfl | rfl <;> (rw [largeBlobsFragment?, hset]; rfl)
  rcases @largeBlobsBegin_cases s event set env request hset hmax with
    ⟨e, hbegin, hstart, he⟩ | ⟨length, hbegin, hstart, hzero⟩ | ⟨hbegin, hstart, hoffset⟩
  · rw [hbegin] at h
    cases h
    exact .quiet hstart (largeBlobsFragment?_error he)
  · rw [hbegin, hzero] at h
    simp only [ne_eq, UInt64.toNat_zero, not_true_eq_false, if_false] at h
    rcases hauth : largeBlobsAuthorize sha256 hmac env request set with e | ⟨⟩
    · rw [hauth] at h
      cases h
      exact .refused hstart (largeBlobsFragment?_error (largeBlobsAuthorize_error hauth))
    · rw [hauth] at h
      rcases largeBlobsAppend_step h with ⟨rfl, rfl⟩ | ⟨hfits, hresult, hstep⟩
      · exact .refused hstart (largeBlobsFragment?_error (by simp))
      · have hfirst := hfragment hresult
        rw [hzero] at hfirst
        refine .first hstart hfirst (fun env' request' set' hset' ↦ ?_) ?_ hstep
        · cases hset.symm.trans hset'
          exact hauth
        · rw [Nat.zero_add, mod_eq_of_lt (by simp only [maxFragmentLength] at hmax; omega)] at hfits
          exact hfits
  · rw [hbegin] at h
    simp only at h
    split_ifs at h with hseq
    · cases h
      exact .quiet hstart (largeBlobsFragment?_error (by simp))
    rcases hauth : largeBlobsAuthorize sha256 hmac env request set with e | ⟨⟩
    · rw [hauth] at h
      cases h
      exact .quiet hstart (largeBlobsFragment?_error (largeBlobsAuthorize_error hauth))
    · rw [hauth] at h
      have hseq := not_not.mp hseq
      rcases largeBlobsAppend_step h with ⟨rfl, rfl⟩ | ⟨hfits, hresult, hstep⟩
      · exact .quiet hstart (largeBlobsFragment?_error (by simp))
      · have hnext := hfragment hresult
        rw [hseq] at hnext hfits hstep
        refine .next hstart (fun hzero ↦ hoffset ?_) hnext (fun env' request' set' hset' ↦ ?_) hfits
          hmax hstep
        · exact UInt64.toNat_inj.mp (hseq.trans hzero)
        · cases hset.symm.trans hset'
          exact hauth

/-- **One event.** -/
theorem largeBlobs_step (s : LargeBlobs) (event : LargeBlobsEvent) :
    LargeBlobsStep sha256 hmac s event (event.step sha256 hmac s).1 (event.step sha256 hmac s).2 := by
  cases event with
  | tick now =>
    rw [step, cborLargeBlobsTick]
    split_ifs with hidle
    · exact .expired rfl
    · exact .quiet rfl rfl
  | message env items =>
    rw [step, cborLargeBlobs]
    rcases hrequest : largeBlobsRequest items with e | request
    · refine .quiet ?_ ?_
      · rw [starts?, setRequest?, hrequest]
        rfl
      · cases e <;> first | rfl | (rw [largeBlobsFragment?, setRequest?, hrequest]; rfl)
    · rcases hget : request.get with - | get
      · rcases hset : request.set with - | set
        · have hnone : (message env items).setRequest? = none := by
            rw [setRequest?, hrequest]
            simp only [hget, hset]
          simp only [hget, hset]
          refine .quiet ?_ rfl
          rw [starts?, hnone]
          rfl
        · have hevent : (message env items).setRequest? =
              some (env, request, set) := by
            rw [setRequest?, hrequest]
            simp only [hget, hset]
          have hstep := largeBlobsSet_step hevent
            (Prod.mk.eta (p := largeBlobsSet sha256 hmac env s request set)).symm
          simpa only [hget, hset] using hstep
      · have hnone : (message env items).setRequest? = none := by
          rw [setRequest?, hrequest]
          simp only [hget]
        simp only [hget]
        refine .quiet ?_ ?_
        · rw [starts?, hnone]
          rfl
        · rw [largeBlobsFragment?, hnone]
          split <;> rfl

/-! ### What the buffer and the file hold -/

/-- The buffer holds what has arrived of the upload that was started last. -/
structure UploadInv (sha256 : Bytes → Bytes) (hmac : Bytes → Bytes → Bytes)
    (trace : List LargeBlobsEntry) (s : LargeBlobs) : Prop where
  tempLba_length : s.tempLba.length = maxLargeBlobSize
  length_le : s.expectedLength ≤ maxLargeBlobSize
  next_le : s.expectedNextOffset ≤ s.expectedLength
  upload : s.expectedNextOffset ≠ 0 → ∃ before segment, trace = before ++ segment ∧
    UploadSegment sha256 hmac segment s.expectedLength (slice s.tempLba 0 s.expectedNextOffset)

/-- The file holds one upload, or what it has held all along. -/
def StoredUpload (sha256 : Bytes → Bytes) (hmac : Bytes → Bytes → Bytes) (initial : Bytes)
    (trace : List LargeBlobsEntry) (stored : Bytes) : Prop :=
  stored = initial ∨ ∃ before segment after, trace = before ++ segment ++ after ∧
    UploadSegment sha256 hmac segment stored.length stored ∧ LargeBlobHashed sha256 stored

theorem StoredUpload.concat {stored : Bytes} (h : StoredUpload sha256 hmac initial trace stored)
    (entry : LargeBlobsEntry) : StoredUpload sha256 hmac initial (trace ++ [entry]) stored := by
  rcases h with h | ⟨before, segment, after, rfl, hsegment⟩
  · exact .inl h
  · exact .inr ⟨before, segment, after ++ [entry], by rw [← List.append_assoc], hsegment⟩

/-- Where a fragment ends the buffer, the array is complete or goes on. -/
theorem UploadInv.fragmentStep (h : UploadInv sha256 hmac trace s)
    (hstored : StoredUpload sha256 hmac initial trace s.stored) (hpos : 17 ≤ s.expectedLength)
    (hstep : FragmentStep sha256 env s result s') :
    UploadInv sha256 hmac trace s' ∧ StoredUpload sha256 hmac initial trace s'.stored := by
  cases hstep with
  | buffered hresult => exact ⟨h, hstored⟩
  | stored hnext hhash =>
    refine ⟨⟨h.tempLba_length, zero_le _, le_rfl, fun hne ↦ absurd rfl hne⟩, ?_⟩
    split_ifs
    · obtain ⟨before, segment, rfl, hsegment⟩ := h.upload (by omega)
      rw [hnext] at hsegment
      have hlen : s.array.length = s.expectedLength := by
        rw [LargeBlobs.array, length_slice (by rw [h.tempLba_length]; have := h.length_le; omega)]
      refine .inr ⟨before, segment, [], by rw [List.append_nil], by rw [hlen]; exact hsegment, ?_⟩
      -- The array is what is hashed and the hash.
      have hsplit : s.array = slice s.tempLba 0 (s.expectedLength - 16) ++
          slice s.tempLba (s.expectedLength - 16) 16 := by
        have hadd := slice_add s.tempLba 0 (s.expectedLength - 16) 16
        rwa [Nat.zero_add, Nat.sub_add_cancel (by omega)] at hadd
      have hfront : (slice s.tempLba 0 (s.expectedLength - 16)).length = s.expectedLength - 16 :=
        length_slice (by rw [h.tempLba_length]; have := h.length_le; omega)
      rw [LargeBlobHashed, hlen, hsplit, List.drop_left' hfront, List.take_left' hfront, hhash]
    · exact hstored

theorem starts?_bounds (h : event.starts? = some length) : 17 ≤ length ∧ length ≤ maxLargeBlobSize := by
  obtain ⟨⟨env, request, set⟩, -, hlength⟩ := Option.bind_eq_some_iff.mp h
  simp only at hlength
  split_ifs at hlength with hbounds
  cases hlength
  exact hbounds.2.2

theorem fragment?_length {event : LargeBlobsEvent} (hstart : event.starts? = some length)
    (h : largeBlobsFragment? (event, result) = some (offset, set)) :
    set.length ≤ maxFragmentLength := by
  obtain ⟨⟨env, request, set'⟩, hset, hlength⟩ := Option.bind_eq_some_iff.mp hstart
  have hset' : set' = set := by
    rw [largeBlobsFragment?, hset] at h
    split at h
    · simpa using (Prod.mk.inj (Option.some.inj h)).2
    · simpa using (Prod.mk.inj (Option.some.inj h)).2
    · cases h
  simp only at hlength
  split_ifs at hlength with hbounds
  rw [← hset']
  exact hbounds.1

/-- **One event keeps what is said of buffer and file.** -/
theorem UploadInv.step (h : UploadInv sha256 hmac trace s)
    (hstored : StoredUpload sha256 hmac initial trace s.stored)
    (hstep : LargeBlobsStep sha256 hmac s event result s') :
    UploadInv sha256 hmac (trace ++ [(event, result)]) s' ∧
      StoredUpload sha256 hmac initial (trace ++ [(event, result)]) s'.stored := by
  have hstored' := hstored.concat (event, result)
  cases hstep with
  | quiet hstart hnone =>
    refine ⟨⟨h.tempLba_length, h.length_le, h.next_le, fun hne ↦ ?_⟩, hstored'⟩
    obtain ⟨before, segment, rfl, hsegment⟩ := h.upload hne
    exact ⟨before, segment ++ [(event, result)], by rw [List.append_assoc],
      hsegment.concat hstart hnone⟩
  | expired hevent =>
    exact ⟨⟨h.tempLba_length, zero_le _, le_rfl, fun hne ↦ absurd rfl hne⟩, hstored'⟩
  | refused hstart hnone =>
    exact ⟨⟨h.tempLba_length, (starts?_bounds hstart).2, zero_le _,
      fun hne ↦ absurd rfl hne⟩, hstored'⟩
  | @first env set length _ _ hstart hfragment hauth hlength hstep =>
    have hmax := fragment?_length hstart hfragment
    obtain ⟨hmin, hle⟩ := starts?_bounds hstart
    simp only [maxFragmentLength] at hmax
    have hmod : (0 + set.length) % 2 ^ 64 = set.length := by
      rw [Nat.zero_add, mod_eq_of_lt (by omega)]
    have hfits : 0 + set.length ≤ (List.replicate maxLargeBlobSize (0 : UInt8)).length := by
      rw [List.length_replicate]
      omega
    suffices hinv : UploadInv sha256 hmac (trace ++ [(event, result)]) (LargeBlobs.appended { s with
        expectedLength := length, expectedNextOffset := 0, timer := env.now, active := true }
          env 0 set) from hinv.fragmentStep hstored' hmin hstep
    refine ⟨?_, hle, ?_, fun hne ↦ ?_⟩
    · show (patch (List.replicate maxLargeBlobSize 0) 0 set).length = _
      rw [length_patch hfits, List.length_replicate]
    · show (0 + set.length) % 2 ^ 64 ≤ length
      rw [hmod]
      exact hlength
    · refine ⟨trace, [(event, result)], rfl, ?_⟩
      show UploadSegment sha256 hmac _ length
        (slice (patch (List.replicate maxLargeBlobSize 0) 0 set) 0 ((0 + set.length) % 2 ^ 64))
      rw [hmod, slice_patch_self hfits]
      exact .start hstart hfragment hauth
  | @next env set _ _ hstart hoffset hfragment hauth hlength hmax hstep =>
    obtain ⟨before, segment, rfl, hsegment⟩ := h.upload hoffset
    have hnext := h.next_le
    have hle := h.length_le
    simp only [maxFragmentLength, maxLargeBlobSize] at hmax hle
    rw [mod_eq_of_lt (by omega)] at hlength
    have hfits : s.expectedNextOffset + set.length ≤ s.tempLba.length := by
      rw [h.tempLba_length]
      simp only [maxLargeBlobSize]
      omega
    have hmin : 17 ≤ s.expectedLength := by
      obtain ⟨first, rest, -, hfirst, -⟩ := hsegment.starts
      exact (starts?_bounds hfirst).1
    suffices hinv : UploadInv sha256 hmac (before ++ segment ++ [(event, result)])
        (s.appended env s.expectedNextOffset set) from hinv.fragmentStep hstored' hmin hstep
    refine ⟨?_, h.length_le, ?_, fun _ ↦ ?_⟩
    · rw [LargeBlobs.appended, if_neg hoffset]
      exact (length_patch hfits).trans h.tempLba_length
    · show (s.expectedNextOffset + set.length) % 2 ^ 64 ≤ s.expectedLength
      rwa [mod_eq_of_lt (by omega)]
    · refine ⟨before, segment ++ [(event, result)], by rw [List.append_assoc], ?_⟩
      show UploadSegment sha256 hmac _ s.expectedLength
        (slice (patch (if s.expectedNextOffset = 0 then _ else s.tempLba) s.expectedNextOffset set) 0
          ((s.expectedNextOffset + set.length) % 2 ^ 64))
      have hend := @slice_patch_end s.tempLba set 0 s.expectedNextOffset (by omega)
      rw [Nat.zero_add] at hend
      rw [if_neg hoffset, mod_eq_of_lt (by omega), hend]
      exact hsegment.concat_fragment hstart hfragment hauth (length_slice (by omega)).symm

theorem largeBlobsRun_concat (s : LargeBlobs) (events : List LargeBlobsEvent)
    (event : LargeBlobsEvent) :
    largeBlobsRun sha256 hmac s (events ++ [event]) =
      ((largeBlobsRun sha256 hmac s events).1 ++
          [(event, (event.step sha256 hmac (largeBlobsRun sha256 hmac s events).2).1)],
        (event.step sha256 hmac (largeBlobsRun sha256 hmac s events).2).2) := by
  rw [largeBlobsRun, List.foldl_append]
  rfl

/-- **Every run**: buffer and file hold fragments of one upload each. -/
theorem uploadInv_run (sha256 : Bytes → Bytes) (hmac : Bytes → Bytes → Bytes) (initial : Bytes)
    (events : List LargeBlobsEvent) :
    let run := largeBlobsRun sha256 hmac (.powerUp initial) events
    UploadInv sha256 hmac run.1 run.2 ∧ StoredUpload sha256 hmac initial run.1 run.2.stored := by
  induction events using List.reverseRecOn with
  | nil =>
    exact ⟨⟨List.length_replicate, zero_le _, le_rfl, fun hne ↦ absurd rfl hne⟩, .inl rfl⟩
  | append_singleton events event ih =>
    simp only [largeBlobsRun_concat]
    exact ih.1.step ih.2 (largeBlobs_step _ event)

/-! ### Errors -/

/-- **A request that is refused** leaves the array alone; the upload in progress too, unless it
starts one itself or was the last fragment of one with a wrong hash. -/
theorem LargeBlobsStep.error (h : LargeBlobsStep sha256 hmac s event (.error e) s') :
    s'.stored = s.stored ∧ (event.starts? = none → e ≠ .integrityFailure → s' = s) := by
  -- A fragment is answered with an error only if the hash is wrong.
  have hbuffered {env : LargeBlobsEnv} {t : LargeBlobs}
      (hstep : FragmentStep sha256 env t (.error e) s') : s' = t ∧ e = .integrityFailure := by
    cases hstep with
    | buffered hresult =>
      rcases hresult with hok | ⟨he, -⟩
      · cases hok
      · exact ⟨rfl, Except.error.inj he⟩
  cases h with
  | quiet => exact ⟨rfl, fun _ _ ↦ rfl⟩
  | refused hstart => exact ⟨rfl, fun hnone ↦ absurd (hnone.symm.trans hstart) (by simp)⟩
  | first hstart _ _ _ hstep =>
    obtain ⟨rfl, he⟩ := hbuffered hstep
    exact ⟨rfl, fun _ hne ↦ absurd he hne⟩
  | next _ _ _ _ _ _ hstep =>
    obtain ⟨rfl, he⟩ := hbuffered hstep
    exact ⟨rfl, fun _ hne ↦ absurd he hne⟩

/-! ### Reading -/

/-- The message of a get. -/
def largeBlobsGetItems (get offset : UInt64) : List CborItem :=
  [.uint 1, .uint get, .uint 3, .uint offset]

/-- Gets at consecutive offsets: each is asked for where the fragments before it end. -/
def largeBlobsReads (sha256 : Bytes → Bytes) (hmac : Bytes → Bytes → Bytes) (s : LargeBlobs)
    (offset : UInt64) : List (LargeBlobsEnv × UInt64) → Except CtapError (List Bytes)
  | [] => .ok []
  | (env, get) :: rest => do
    let (result, s) := cborLargeBlobs sha256 hmac env s (largeBlobsGetItems get offset)
    let fragment := (← result).getD []
    return fragment :: (← largeBlobsReads sha256 hmac s (offset + .ofNat fragment.length) rest)

/-- What is taken in two parts, the first of which may be cut off by the end. -/
theorem take_min_append (l : Bytes) (m n : ℕ) :
    l.take (min m l.length) ++ (l.drop (min m l.length)).take n = l.take (m + n) := by
  rcases le_total m l.length with h | h
  · rw [min_eq_left h, List.take_add]
  · rw [min_eq_right h, List.take_length, List.drop_length, List.take_nil, List.append_nil,
      List.take_of_length_le (by omega)]

theorem cborLargeBlobs_get {get offset : UInt64} (hget : get.toNat ≤ maxFragmentLength)
    (hoffset : offset.toNat ≤ s.stored.length) (hlength : s.stored.length < 2 ^ 32) :
    cborLargeBlobs sha256 hmac env s (largeBlobsGetItems get offset) =
      (.ok (some (slice s.stored offset.toNat (min get.toNat (s.stored.length - offset.toNat)))),
        s) := by
  have hpresent : offset ≠ .ofNat (2 ^ 64 - 1) := by
    rintro rfl
    rw [UInt64.toNat_ofNat', mod_eq_of_lt (by decide)] at hoffset
    omega
  have hrequest : largeBlobsRequest (largeBlobsGetItems get offset) =
      .ok ⟨some get, none, offset, none, none, none⟩ := by
    have hparse : largeBlobsParse 1 .empty (largeBlobsGetItems get offset) =
        .ok ⟨some get, none, offset, none, none, none⟩ := rfl
    have hcheck : largeBlobsCheck ⟨some get, none, offset, none, none, none⟩ = .ok () := by
      rw [largeBlobsCheck, if_neg (by simp), if_neg hpresent, if_neg (by simp), if_neg (by simp)]
    rw [largeBlobsRequest, hparse]
    simp only [hcheck]
  rw [cborLargeBlobs, hrequest]
  simp only
  rw [largeBlobsGet, if_neg (by simp), if_neg (not_lt.mpr hget), if_neg (not_lt.mpr hoffset)]
  rfl

/-- **Gets at consecutive offsets give the array**, from where they start. -/
theorem largeBlobsReads_eq {gets : List (LargeBlobsEnv × UInt64)}
    (hgets : ∀ get ∈ gets, get.2.toNat ≤ maxFragmentLength) (hlength : s.stored.length < 2 ^ 32)
    {offset : UInt64} (hoffset : offset.toNat ≤ s.stored.length) :
    ∃ fragments, largeBlobsReads sha256 hmac s offset gets = .ok fragments ∧
      fragments.flatten = (s.stored.drop offset.toNat).take (gets.map fun get ↦ get.2.toNat).sum := by
  induction gets generalizing offset with
  | nil => exact ⟨[], rfl, by simp⟩
  | cons get gets ih =>
    obtain ⟨env, get⟩ := get
    have hget := @cborLargeBlobs_get sha256 hmac s env get offset
      (hgets _ List.mem_cons_self) hoffset hlength
    set n := min get.toNat (s.stored.length - offset.toNat) with hn
    have hlen : (slice s.stored offset.toNat n).length = n := length_slice (by omega)
    have hnext : (offset + .ofNat (slice s.stored offset.toNat n).length).toNat =
        offset.toNat + n := by
      rw [hlen, UInt64.toNat_add, UInt64.toNat_ofNat', mod_eq_of_lt (by omega),
        mod_eq_of_lt (by omega)]
    obtain ⟨fragments, hreads, hflatten⟩ := @ih (fun g hg ↦ hgets g (List.mem_cons_of_mem _ hg))
      (offset + UInt64.ofNat (slice s.stored offset.toNat n).length) (by omega)
    refine ⟨slice s.stored offset.toNat n :: fragments, ?_, ?_⟩
    · rw [largeBlobsReads, hget]
      show (do
        let rest ← largeBlobsReads sha256 hmac s
          (offset + UInt64.ofNat (slice s.stored offset.toNat n).length) gets
        return slice s.stored offset.toNat n :: rest) = _
      rw [hreads]
      rfl
    · rw [List.flatten_cons, hflatten, hnext, List.map_cons, List.sum_cons, ← List.drop_drop, slice,
        hn, ← List.length_drop, take_min_append]

/-- **The large-blob array is one upload.** After any messages, from whoever, and any time, the
array is the initial one or the fragments of one upload, each of them authorised, at consecutive
offsets, with the hash of the rest at its end; what is refused leaves it as it is, and the upload in
progress too, unless it starts one or completes one with a wrong hash; and gets at consecutive
offsets give the array. -/
theorem large_blobs_integrity (sha256 : Bytes → Bytes) (hmac : Bytes → Bytes → Bytes)
    {initial : Bytes} (hinitial : initial.length < 2 ^ 32) (events : List LargeBlobsEvent) :
    let trace := (largeBlobsRun sha256 hmac (.powerUp initial) events).1
    let s := (largeBlobsRun sha256 hmac (.powerUp initial) events).2
    StoredUpload sha256 hmac initial trace s.stored ∧
      (∀ (event : LargeBlobsEvent) (e : CtapError), (event.step sha256 hmac s).1 = .error e →
        (event.step sha256 hmac s).2.stored = s.stored ∧
          (event.starts? = none → e ≠ .integrityFailure → (event.step sha256 hmac s).2 = s)) ∧
      ∀ gets : List (LargeBlobsEnv × UInt64),
        (∀ get ∈ gets, get.2.toNat ≤ maxFragmentLength) →
        ∃ fragments, largeBlobsReads sha256 hmac s 0 gets = .ok fragments ∧
          fragments.flatten = s.stored.take (gets.map fun get ↦ get.2.toNat).sum := by
  intro trace s
  have hstored : StoredUpload sha256 hmac initial trace s.stored :=
    (uploadInv_run sha256 hmac initial events).2
  refine ⟨hstored, fun event e he ↦ ?_, fun gets hgets ↦ ?_⟩
  · have hstep := @largeBlobs_step sha256 hmac s event
    rw [he] at hstep
    exact hstep.error
  · have hlength : s.stored.length < 2 ^ 32 := by
      rcases hstored with heq | ⟨_, segment, _, -, hsegment, -⟩
      · rwa [heq]
      · obtain ⟨first, rest, -, hfirst, -⟩ := hsegment.starts
        have hle := (starts?_bounds hfirst).2
        simp only [maxLargeBlobSize] at hle
        omega
    exact largeBlobsReads_eq hgets hlength (zero_le _)

/-- The array that is written when there is none: an empty CBOR array and its hash. -/
def emptyLargeBlobs : Bytes :=
  [0x80, 0x76, 0xbe, 0x8b, 0x52, 0x8d, 0x00, 0x75, 0xf7, 0xaa, 0xe9, 0x8d, 0x6f, 0xa5, 0x7a, 0x6d,
    0x3c]

/-- An array of 18 bytes is uploaded in two fragments; two gets of ten bytes give it back. -/
theorem large_blobs_integrity_uploaded :
    let sha256 : Bytes → Bytes := fun data ↦ List.replicate 32 (data.headD 0)
    let env : LargeBlobsEnv := ⟨0, false, [], 0, true⟩
    let run := largeBlobsRun sha256 (fun _ data ↦ data) (.powerUp emptyLargeBlobs)
      [message env [.uint 2, .bytes [7], .uint 3, .uint 0, .uint 4, .uint 18],
        message env [.uint 2, .bytes (List.replicate 17 7), .uint 3, .uint 1]]
    run.2.stored = List.replicate 18 7 ∧
      StoredUpload sha256 (fun _ data ↦ data) emptyLargeBlobs run.1 run.2.stored ∧
      ∃ fragments, largeBlobsReads sha256 (fun _ data ↦ data) run.2 0 [(env, 10), (env, 10)] =
          .ok fragments ∧
        fragments.flatten = run.2.stored.take 20 := by
  intro sha256 env run
  obtain ⟨hstored, -, hreads⟩ := @large_blobs_integrity sha256 (fun _ data ↦ data) emptyLargeBlobs
    (by decide) [message env [.uint 2, .bytes [7], .uint 3, .uint 0, .uint 4, .uint 18],
      message env [.uint 2, .bytes (List.replicate 17 7), .uint 3, .uint 1]]
  exact ⟨by decide +kernel, hstored, hreads [(env, 10), (env, 10)] (by decide)⟩

/-- A client uploads an array of 18 bytes and has sent the first one; a set request at offset zero
that carries no authorisation, though a PIN is set, is refused, and the upload is gone. -/
theorem large_blobs_upload_dropped :
    let items : List CborItem := [.uint 2, .bytes [7], .uint 3, .uint 0, .uint 4, .uint 18]
    let s := (message ⟨0, false, [], 0, true⟩ items).step id (fun _ data ↦ data)
      (.powerUp emptyLargeBlobs)
    let s' := (message ⟨1, true, [], 0, true⟩ items).step id (fun _ data ↦ data) s.2
    s.1 = .ok none ∧ s.2.expectedNextOffset = 1 ∧ s'.1 = .error .puatRequired ∧
      s'.2.expectedNextOffset = 0 := by
  decide +kernel

end PicoAll
