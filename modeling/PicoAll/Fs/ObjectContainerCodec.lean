import PicoAll.Lib.FieldRead
import PicoAll.Fs.ObjectContainer

/-!
# Manifests and records read back

Round trips for the two formats: a manifest that was built parses to itself, a record that was
sealed parses against its descriptor and unseals to its data. What the builder checks on the way —
the number of objects, their order, the generations — is read off its success.
-/

namespace PicoAll

open FaultProgram BigEndian List Nat

variable {auth : FileObjectAuthenticator} {protector : FileObjectRecordProtector}

/-! ### Descriptors -/

namespace FileObjectDescriptor

variable (object : FileObjectDescriptor)

theorem length_fields : object.fields.encode.length = descriptorSize :=
  Fields.length_encode _

theorem fits_fields : object.fields.Fits := by
  simp only [fields, Fields.Fits, forall_mem_cons]
  exact ⟨object.objectType.toNat_lt, object.objectTag.toNat_lt, object.generation.toNat_lt,
    object.logicalSize.toNat_lt, object.recordId.toNat_lt, object.storedSize.toNat_lt,
    object.policyId.toNat_lt, object.keyDomain.toNat_lt, object.protection.toNat_lt,
    object.flags.toNat_lt, object.extensionOffset.toNat_lt, object.extensionSize.toNat_lt,
    object.transactionGroup.toNat_lt, by simp⟩

/-- **A descriptor is what its bytes say**, whatever follows them. -/
theorem decode_encode (rest : Bytes) : decode (object.fields.encode ++ rest) = object := by
  have h := Fields.at_encode object.fits_fields rest
  generalize object.fields.encode ++ rest = data at h ⊢
  simp only [fields, Fields.At, Nat.reduceAdd, zero_add] at h
  simp only [decode, h, UInt8.ofNat_toNat, UInt16.ofNat_toNat, UInt32.ofNat_toNat,
    UInt64.ofNat_toNat]

/-- A descriptor that is valid in a manifest without extensions has none itself. -/
theorem extensionSize_of_valid {object : FileObjectDescriptor} {bound : ℕ}
    (h : object.valid bound bound = true) : object.extensionSize = 0 := by
  simp only [valid, Bool.and_eq_true, Bool.or_eq_true, beq_iff_eq, decide_eq_true_eq] at h
  rcases h.2 with h0 | ⟨⟨hle, hge⟩, hsize⟩
  · exact h0
  · have hzero : object.extensionSize.toNat = 0 := by omega
    exact UInt16.toNat_inj.mp hzero

end FileObjectDescriptor

/-- The descriptors of a manifest are found at multiples of their size. -/
theorem decode_drop_flatMap (objects : List FileObjectDescriptor) (rest : Bytes) {i : ℕ}
    (hi : i < objects.length) :
    .decode ((objects.flatMap (·.fields.encode) ++ rest).drop (i * descriptorSize)) = objects[i] := by
  induction objects generalizing i with
  | nil => simp at hi
  | cons object objects ih =>
    rw [flatMap_cons, append_assoc]
    rcases i with - | i
    · rw [zero_mul, drop_zero]
      exact object.decode_encode _
    · rw [succ_mul, add_comm, ← drop_drop, drop_left' object.length_fields]
      exact ih (by simpa using hi)

/-! ### Manifests -/

variable (manifest : FileObjectManifest)

theorem length_manifestFields (extensionsSize totalSize : ℕ) :
    (manifestFields manifest extensionsSize totalSize).encode.length = manifestHeaderSize :=
  Fields.length_encode _

/-- The size of a manifest without extensions. -/
def FileObjectManifest.size : ℕ :=
  manifestHeaderSize + manifest.objects.length * descriptorSize + authTagSize

/-- The bytes of a manifest without extensions. -/
def FileObjectManifest.bytes (auth : FileObjectAuthenticator) :
    Bytes :=
  manifestBody manifest [] manifest.size ++ auth.tag (manifestBody manifest [] manifest.size)

/-- What the builder requires of a manifest. -/
structure FileObjectManifest.Built (manifest : FileObjectManifest) : Prop where
  /-- At most `FILE_OBJECT_MANIFEST_MAX_OBJECTS` objects. -/
  length_le : manifest.objects.length ≤ manifestMaxObjects
  /-- A generation, and a greater one than the previous. -/
  generation_ne : manifest.generation ≠ 0
  previous_lt : manifest.previousGeneration < manifest.generation
  /-- Every descriptor is valid. -/
  valid : ∀ object ∈ manifest.objects, object.valid
    (manifestHeaderSize + manifest.objects.length * descriptorSize)
    (manifestHeaderSize + manifest.objects.length * descriptorSize) = true
  /-- The objects are in strict order of type and tag. -/
  sorted : descriptorsSorted manifest.objects = true

theorem forM_ok {α : Type} {f : α → Except Status Unit} {l : List α}
    (h : ∀ a ∈ l, f a = .ok ()) : l.forM f = .ok () := by
  induction l with
  | nil => rfl
  | cons a l ih =>
    show (f a >>= fun _ ↦ l.forM f) = .ok ()
    rw [h a (mem_cons_self ..)]
    exact ih fun b hb ↦ h b (mem_cons_of_mem _ hb)

theorem forM_eq_ok {α : Type} {f : α → Except Status Unit} {l : List α}
    (h : l.forM f = .ok ()) : ∀ a ∈ l, f a = .ok () := by
  induction l with
  | nil => exact nofun
  | cons a l ih =>
    replace h : (f a >>= fun _ ↦ l.forM f) = .ok () := h
    rcases ha : f a with r | u
    · rw [ha] at h
      cases h
    · rw [ha] at h
      intro b hb
      rcases mem_cons.mp hb with rfl | hb
      · exact ha
      · exact ih h b hb

/-- The order loop compares neighbours, and so all pairs. -/
theorem descriptorsSorted_iff_pairwise {objects : List FileObjectDescriptor} :
    descriptorsSorted objects = true ↔ objects.Pairwise fun a b ↦ keyLt a.key b.key = true := by
  induction objects with
  | nil => simp [descriptorsSorted]
  | cons a rest ih =>
    cases rest with
    | nil => simp [descriptorsSorted]
    | cons b rest =>
      rw [pairwise_cons, descriptorsSorted, Bool.and_eq_true, ih]
      refine ⟨fun ⟨hab, hrest⟩ ↦ ⟨fun c hc ↦ ?_, hrest⟩, fun ⟨ha, hrest⟩ ↦
        ⟨ha b (mem_cons_self ..), hrest⟩⟩
      rcases mem_cons.mp hc with rfl | hc
      · exact hab
      · have hbc := rel_of_pairwise_cons hrest hc
        simp only [keyLt, Bool.or_eq_true, decide_eq_true_eq, Bool.and_eq_true, beq_iff_eq]
          at hab hbc ⊢
        grind

theorem length_flatMap_fields (objects : List FileObjectDescriptor) :
    (objects.flatMap (·.fields.encode)).length = objects.length * descriptorSize := by
  induction objects with
  | nil => simp
  | cons object objects ih =>
    rw [flatMap_cons, length_append, ih, object.length_fields, length_cons,
      succ_mul, add_comm]

theorem FileObjectManifest.length_body :
    (manifestBody manifest [] manifest.size).length =
      manifestHeaderSize + manifest.objects.length * descriptorSize := by
  rw [manifestBody, append_nil, length_append, length_manifestFields, length_flatMap_fields]

theorem FileObjectManifest.length_bytes (auth : FileObjectAuthenticator) :
    (manifest.bytes auth).length = manifest.size := by
  rw [FileObjectManifest.bytes, length_append, manifest.length_body, auth.length_tag]
  rfl

/-! ### Records -/

theorem length_recordFields (object : FileObjectDescriptor) :
    (recordFields object).encode.length = recordHeaderSize :=
  Fields.length_encode _

/-- The bytes of a sealed record. -/
def recordBytes (object : FileObjectDescriptor) (policyHash : Bytes)
    (protector : FileObjectRecordProtector) (plaintext : Bytes) : Bytes :=
  let sealed := protector.sealRecord ((recordFields object).encode.drop 28)
    (recordAad manifest object policyHash) plaintext
  (recordFields object).encode ++ (sealed.1 ++ sealed.2)

/-- **The sealer's verdict.** -/
theorem fileObjectRecordSeal_eq_ok {manifest : FileObjectManifest} {object : FileObjectDescriptor}
    {policyHash plaintext record : Bytes} :
    fileObjectRecordSeal manifest object policyHash protector plaintext = .ok record ↔
      plaintext.length = object.logicalSize.toNat ∧ object.logicalSize = object.storedSize ∧
        object.coreValid = true ∧
        record = recordBytes manifest object policyHash protector plaintext := by
  unfold fileObjectRecordSeal fileObjectRecordHeaderBuild
  simp only [throw_eq_error, error_bind]
  split_ifs with hsize hcore
  · refine iff_of_false nofun fun h ↦ ?_
    rw [h.1, ← h.2.1] at hsize
    simp at hsize
  · refine iff_of_false nofun fun h ↦ ?_
    rw [h.2.2.1] at hcore
    simp at hcore
  · rw [not_or, not_not, not_not] at hsize
    have hsame : object.logicalSize = object.storedSize :=
      UInt32.toNat_inj.mp (hsize.1.symm.trans hsize.2)
    have hvalid : object.coreValid = true := by simpa using hcore
    simp only [ok_bind, pure_eq_ok, Except.ok.injEq, hsize.1, hsame, hvalid, true_and,
      append_assoc, recordBytes]
    exact ⟨fun h ↦ h.symm, fun h ↦ h.symm⟩

section Record

variable {manifest : FileObjectManifest} {object : FileObjectDescriptor}
  {policyHash plaintext : Bytes}

theorem length_recordBytes :
    (recordBytes manifest object policyHash protector plaintext).length =
      recordHeaderSize + plaintext.length + authTagSize := by
  simp only [recordBytes, length_append, length_recordFields, protector.length_stored,
    protector.length_tag, recordHeaderSize, authTagSize]
  omega

/-- The framing of a record depends on its header and its length only. -/
theorem recordHeaderParse_append {rest : Bytes} (hcore : object.coreValid = true)
    (hlen : rest.length = object.storedSize.toNat + authTagSize) :
    fileObjectRecordHeaderParse ((recordFields object).encode ++ rest) object = .ok () := by
  have hfields : (recordFields object).Fits := by
    simp only [recordFields, Fields.Fits, forall_mem_cons]
    exact ⟨by decide, by decide, object.protection.toNat_lt, by decide, object.recordId.toNat_lt,
      object.storedSize.toNat_lt, object.logicalSize.toNat_lt, object.generation.toNat_lt,
      object.recordId.toNat_lt, object.generation.toNat_lt, by simp⟩
  have h := Fields.at_encode hfields rest
  have hlength : ((recordFields object).encode ++ rest).length =
      recordHeaderSize + object.storedSize.toNat + authTagSize := by
    rw [length_append, length_recordFields, hlen]
    omega
  generalize (recordFields object).encode ++ rest = record at h hlength ⊢
  simp only [recordFields, Fields.At, Nat.reduceAdd, zero_add] at h
  simp only [fileObjectRecordHeaderParse, h, hlength, hcore]
  rw [if_neg (by simp), if_neg (by omega), if_neg (by simp)]

/-- What makes a record the record of a descriptor: the sizes agree. -/
structure RecordSizes (object : FileObjectDescriptor) (plaintext : Bytes) : Prop where
  coreValid : object.coreValid = true
  length_eq : plaintext.length = object.logicalSize.toNat
  stored_eq : object.logicalSize = object.storedSize

theorem recordHeaderParse_bytes (h : RecordSizes object plaintext) :
    fileObjectRecordHeaderParse (recordBytes manifest object policyHash protector plaintext)
      object = .ok () := by
  refine recordHeaderParse_append h.coreValid ?_
  rw [length_append, protector.length_stored, protector.length_tag, h.length_eq, h.stored_eq]

/-- **A sealed record unseals to its data.** -/
theorem fileObjectRecordUnseal_bytes (h : RecordSizes object plaintext) {capacity : ℕ}
    (hcap : object.logicalSize.toNat ≤ capacity) :
    fileObjectRecordUnseal manifest object policyHash protector
      (recordBytes manifest object policyHash protector plaintext) capacity = .ok plaintext := by
  obtain ⟨header, hheader⟩ : ∃ header, header = (recordFields object).encode := ⟨_, rfl⟩
  have hheaderLen : header.length = 40 := by rw [hheader, length_recordFields]
  obtain ⟨sealed, hsealed⟩ : ∃ sealed, sealed = protector.sealRecord (header.drop 28)
    (recordAad manifest object policyHash) plaintext := ⟨_, rfl⟩
  have hstored : sealed.1.length = object.storedSize.toNat := by
    rw [hsealed, protector.length_stored, h.length_eq, h.stored_eq]
  have htag : sealed.2.length = 16 := by rw [hsealed, protector.length_tag]
  have hrecord : recordBytes manifest object policyHash protector plaintext =
      header ++ (sealed.1 ++ sealed.2) := by
    rw [hsealed, hheader, recordBytes]
  have hparse : fileObjectRecordHeaderParse (header ++ (sealed.1 ++ sealed.2)) object = .ok () := by
    rw [← hrecord]
    exact recordHeaderParse_bytes h
  have hnonce : ((header ++ (sealed.1 ++ sealed.2)).drop 28).take 12 = header.drop 28 := by
    rw [drop_append_of_le_length (by omega), take_left' (by rw [length_drop]; omega)]
  have hbody : (header ++ (sealed.1 ++ sealed.2)).drop 40 = sealed.1 ++ sealed.2 :=
    drop_left' hheaderLen
  have hfirst : ((header ++ (sealed.1 ++ sealed.2)).drop recordHeaderSize).take
      object.storedSize.toNat = sealed.1 := by
    rw [hbody, take_left' hstored]
  have hsecond : ((header ++ (sealed.1 ++ sealed.2)).drop
      (recordHeaderSize + object.storedSize.toNat)).take authTagSize = sealed.2 := by
    rw [← drop_drop, hbody, drop_left' hstored, take_of_length_le htag.le]
  have hunseal : protector.unsealRecord (header.drop 28) (recordAad manifest object policyHash)
      sealed.1 sealed.2 = .ok plaintext := by
    rw [hsealed, protector.unseal_seal]
  rw [hrecord]
  unfold fileObjectRecordUnseal
  simp only [throw_eq_error, error_bind, hparse, hnonce, hfirst, hsecond, hunseal, ok_bind]
  rw [if_neg, if_neg (by simp [h.length_eq])]
  · rfl
  · rw [not_or, not_not]
    exact ⟨by omega, h.stored_eq⟩

end Record

end PicoAll
