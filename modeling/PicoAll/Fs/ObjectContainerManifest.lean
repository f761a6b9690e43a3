import PicoAll.Fs.ObjectContainerCodec
import PicoAll.Fs.ObjectStoreTxnHandle

/-!
# Manifests in full

The container store writes manifests without extensions and reads them with no extension kind
supported, and `ObjectContainer` models the codec as far as the store uses it. This module has the
rest: the C struct with every field the parser sets, any extension area, a reader that supports any
kinds, and an output buffer of any capacity. For the store's calls it is the same codec
(`fileObjectManifestBuildAny_eq`, `fileObjectManifestParseAny_eq`).

The builder accepts extensions of every kind; the parser refuses a critical one of a kind that its
caller does not support. Apart from that each undoes the other (`manifest_codec`): what was built is
parsed to the value it was built from, and what is parsed is the one encoding of what it was parsed to.
-/

namespace PicoAll

open FaultProgram BigEndian List Nat

/-- A descriptor with nothing in it. -/
def FileObjectDescriptor.zero : FileObjectDescriptor :=
  ⟨0, 0, 0, 0, 0, 0, 0, 0, 0, 0, 0, 0, 0⟩

/-- `file_object_manifest_t`, with all of its fields. -/
structure FileObjectManifestFull where
  flags : UInt16
  namespaceId : UInt16
  containerKind : UInt16
  containerId : UInt32
  generation : UInt32
  previousGeneration : UInt32
  extensionOffset : UInt16
  extensionSize : UInt16
  totalSize : UInt16
  objectCount : UInt16
  hasObject : Bool
  /-- `objects`; `object` is the first of them. -/
  objects : Fin manifestMaxObjects → FileObjectDescriptor
  deriving DecidableEq

namespace FileObjectManifestFull

variable (manifest : FileObjectManifestFull)

/-- The number of objects, as the builder counts them: a manifest may say that it has an object without
counting it. -/
def count : ℕ :=
  if manifest.objectCount = 0 ∧ manifest.hasObject = true then 1 else manifest.objectCount.toNat

/-- What the manifest holds, with a list of objects in the place of an array and its counters. -/
def listed : FileObjectManifest where
  flags := manifest.flags
  namespaceId := manifest.namespaceId
  containerKind := manifest.containerKind
  containerId := manifest.containerId
  generation := manifest.generation
  previousGeneration := manifest.previousGeneration
  extensionSize := manifest.extensionSize
  objects := ((List.finRange manifestMaxObjects).take manifest.count).map manifest.objects

/-- Where the extensions begin. -/
def extensionStart : ℕ :=
  manifestHeaderSize + manifest.count * descriptorSize

end FileObjectManifestFull

/-- `file_object_manifest_build`, into a buffer with room for `capacity` more bytes. -/
def fileObjectManifestBuildAny (manifest : FileObjectManifestFull) (extensions : Bytes)
    (auth : FileObjectAuthenticator) (capacity : ℕ) : Except Status Bytes := do
  if extensions.length > UINT16_MAX then
    throw .nullParam
  if manifest.count > manifestMaxObjects then
    throw .wrongData
  let extensionStart := manifest.extensionStart
  let extensionEnd := extensionStart + extensions.length
  let totalSize := extensionEnd + authTagSize
  if manifest.generation = 0 ∨ manifest.previousGeneration ≥ manifest.generation then
    throw .wrongData
  if totalSize > UINT16_MAX ∨ capacity < totalSize then
    throw .wrongLength
  if !descriptorsValid manifest.listed.objects extensionStart extensionEnd then
    throw .wrongData
  fileObjectExtensionsValidate extensions fun _ ↦ true
  manifest.listed.objects.forM (objectExtensionsValidate
    (fun offset ↦ extensions.drop (offset - extensionStart)) fun _ ↦ true)
  let body := manifestBody manifest.listed extensions totalSize
  return body ++ auth.tag body

/-- `file_object_manifest_parse`, with `supported` for the extension kinds the caller knows. The array
that is filled has been set to zero. -/
def fileObjectManifestParseAny (data : Bytes) (auth : FileObjectAuthenticator)
    (supported : UInt8 → Bool) : Except Status FileObjectManifestFull := do
  if data.length < manifestHeaderSize + authTagSize ∨ data.length > UINT16_MAX then
    throw .wrongLength
  let objectCount := beField data 24 2
  let extensionsSize := beField data 28 2
  if beField data 0 4 ≠ manifestMagic ∨ beField data 4 1 ≠ 1 ∨
      beField data 5 1 ≠ manifestHeaderSize ∨ objectCount > manifestMaxObjects ∨
      beField data 26 1 ≠ descriptorSize ∨ beField data 27 1 ≠ 0 ∨
      beField data 30 2 ≠ data.length then
    throw .wrongData
  let extensionStart := manifestHeaderSize + objectCount * descriptorSize
  let extensionEnd := extensionStart + extensionsSize
  if extensionEnd + authTagSize ≠ data.length then
    throw .wrongData
  if auth.tag (data.take (data.length - authTagSize)) ≠ data.drop (data.length - authTagSize) then
    throw .wrongSignature
  fileObjectExtensionsValidate ((data.drop extensionStart).take extensionsSize) supported
  let parsed : FileObjectManifestFull :=
    { flags := .ofNat (beField data 6 2)
      namespaceId := .ofNat (beField data 8 2)
      containerKind := .ofNat (beField data 10 2)
      containerId := .ofNat (beField data 12 4)
      generation := .ofNat (beField data 16 4)
      previousGeneration := .ofNat (beField data 20 4)
      extensionOffset := .ofNat extensionStart
      extensionSize := .ofNat extensionsSize
      totalSize := .ofNat (beField data 30 2)
      objectCount := .ofNat objectCount
      hasObject := decide (objectCount > 0)
      objects := fun i ↦
        if i < objectCount then .decode (data.drop (manifestHeaderSize + i * descriptorSize))
        else .zero }
  if parsed.generation = 0 ∨ parsed.previousGeneration ≥ parsed.generation then
    throw .wrongData
  if !descriptorsValid parsed.listed.objects extensionStart extensionEnd then
    throw .wrongData
  parsed.listed.objects.forM (objectExtensionsValidate data.drop supported)
  return parsed

/-! ### Extensions -/

/-- An entry of the extension area. -/
structure FileObjectExtension where
  kind : UInt8
  /-- `FILE_OBJECT_EXTENSION_FLAG_CRITICAL`. -/
  critical : Bool
  value : Bytes
  kind_ne : kind ≠ 0
  length_lt : value.length < 256 ^ 2

namespace FileObjectExtension

/-- The bytes of an entry. -/
def encode (e : FileObjectExtension) : Bytes :=
  e.kind :: (if e.critical then 1 else 0) :: (beBytes 2 e.value.length ++ e.value)

/-- The entries a reader can live with. -/
def ReadableBy (supported : UInt8 → Bool) (e : FileObjectExtension) : Prop :=
  e.critical = true → supported e.kind = true

end FileObjectExtension

/-- The bytes are entries one behind the other, all of them readable. -/
def ExtensionArea (supported : UInt8 → Bool) (data : Bytes) : Prop :=
  ∃ entries : List FileObjectExtension, data = entries.flatMap (·.encode) ∧
    ∀ e ∈ entries, e.ReadableBy supported

namespace FileObjectExtension

theorem length_encode (e : FileObjectExtension) : e.encode.length = 4 + e.value.length := by
  simp only [encode, length_cons, length_append, length_beBytes]
  omega

/-- Only the one flag is defined. -/
theorem flags_eq {flags : UInt8} (h : flags &&& ~~~(1 : UInt8) = 0) : flags = 0 ∨ flags = 1 := by
  have hbits : ∀ n : Fin 256, n.val &&& 254 = 0 → n.val = 0 ∨ n.val = 1 := by
    decide +kernel
  have hmasked := congrArg UInt8.toNat h
  rcases hbits ⟨flags.toNat, flags.toNat_lt⟩ hmasked with h0 | h1
  · exact .inl (UInt8.toNat_inj.mp h0)
  · exact .inr (UInt8.toNat_inj.mp h1)

end FileObjectExtension

/-- One entry in front of others. -/
theorem extensionsValidate_encode (supported : UInt8 → Bool) (fuel : ℕ) (e : FileObjectExtension)
    (rest : Bytes) :
    extensionsValidate supported (fuel + 1) (e.encode ++ rest) =
      ((!e.critical || supported e.kind) && extensionsValidate supported fuel rest) := by
  obtain ⟨hi, lo, hsize⟩ : ∃ hi lo, beBytes 2 e.value.length = [hi, lo] := ⟨_, _, rfl⟩
  have hvalue : beNat [hi, lo] = e.value.length := by
    rw [← hsize, beNat_beBytes e.length_lt]
  rw [FileObjectExtension.encode, hsize]
  simp only [cons_append, nil_append, extensionsValidate, hvalue,
    drop_left' rfl, length_append, le_add_right, decide_true, Bool.and_true]
  have hkind : (e.kind != 0) = true := by simpa using e.kind_ne
  rw [hkind]
  rcases e.critical with - | -
  · simp
  · simp

variable {data : Bytes} {supported : UInt8 → Bool}

/-- **What the validation loop accepts**: entries, one behind the other. -/
theorem extensionsValidate_iff {fuel : ℕ} (hfuel : data.length ≤ fuel) :
    extensionsValidate supported fuel data = true ↔ ExtensionArea supported data := by
  induction fuel generalizing data with
  | zero =>
    obtain rfl := length_eq_zero_iff.mp (le_zero.mp hfuel)
    exact iff_of_true rfl ⟨[], rfl, by simp⟩
  | succ fuel ih =>
    constructor
    · match data with
      | [] => exact fun _ ↦ ⟨[], rfl, by simp⟩
      | [_] => exact nofun
      | [_, _] => exact nofun
      | [_, _, _] => exact nofun
      | kind :: flags :: hi :: lo :: rest =>
        intro h
        simp only [extensionsValidate, Bool.and_eq_true, Bool.or_eq_true, bne_iff_ne, ne_eq,
          beq_iff_eq, decide_eq_true_eq] at h
        obtain ⟨⟨⟨⟨hkind, hflags⟩, hsize⟩, hcritical⟩, hrest⟩ := h
        have hlt := beNat_lt [hi, lo]
        obtain ⟨entries, hentries, hreadable⟩ := (ih (by
          simp only [length_cons, length_drop] at hfuel ⊢
          omega)).mp hrest
        have hlength : (rest.take (beNat [hi, lo])).length = beNat [hi, lo] :=
          length_take_of_le hsize
        have hwidth : beBytes 2 (beNat [hi, lo]) = [hi, lo] := beBytes_beNat [hi, lo]
        let e : FileObjectExtension :=
          ⟨kind, flags == 1, rest.take (beNat [hi, lo]), hkind, by rw [hlength]; exact hlt⟩
        have hencode : e.encode = kind :: flags :: hi :: lo :: rest.take (beNat [hi, lo]) := by
          show kind :: (if (flags == 1) = true then 1 else 0) ::
            (beBytes 2 (rest.take (beNat [hi, lo])).length ++ _) = _
          rw [hlength, hwidth]
          rcases FileObjectExtension.flags_eq hflags with rfl | rfl <;> rfl
        refine ⟨e :: entries, ?_, forall_mem_cons.mpr ⟨fun hcrit ↦ ?_, hreadable⟩⟩
        · rw [flatMap_cons, ← hentries, hencode]
          simp only [cons_append, take_append_drop]
        · obtain rfl : flags = 1 := beq_iff_eq.mp hcrit
          exact hcritical.resolve_left (by decide)
    · rintro ⟨entries, rfl, hreadable⟩
      rcases entries with - | ⟨e, entries⟩
      · rfl
      rw [forall_mem_cons] at hreadable
      rw [flatMap_cons] at hfuel ⊢
      rw [extensionsValidate_encode, Bool.and_eq_true]
      refine ⟨?_, (ih ?_).mpr ⟨entries, rfl, hreadable.2⟩⟩
      · rcases hcrit : e.critical with - | -
        · rfl
        · exact hreadable.1 hcrit
      · rw [length_append, e.length_encode] at hfuel
        omega

theorem fileObjectExtensionsValidate_ok :
    fileObjectExtensionsValidate data supported = .ok () ↔ ExtensionArea supported data := by
  rw [fileObjectExtensionsValidate, ← extensionsValidate_iff le_rfl]
  split_ifs with h
  · exact iff_of_true rfl h
  · exact iff_of_false (by simp) h

theorem fileObjectExtensionsValidate_error (h : ¬ExtensionArea supported data) :
    fileObjectExtensionsValidate data supported = .error .wrongData := by
  rw [fileObjectExtensionsValidate, if_neg]
  rwa [extensionsValidate_iff le_rfl]

/-! ### Checks that were passed -/

section Checks

variable {ε α β : Type}

theorem ite_error_eq_ok {c : Prop} [Decidable c] {e : ε} {x : Except ε α} {a : α} :
    (if c then .error e else x) = .ok a ↔ ¬c ∧ x = .ok a := by
  by_cases hc : c
  · rw [if_pos hc]
    exact iff_of_false nofun fun h ↦ h.1 hc
  · rw [if_neg hc]
    exact ⟨fun h ↦ ⟨hc, h⟩, And.right⟩

theorem except_bind_eq_ok {x : Except ε α} {f : α → Except ε β} {b : β} :
    (x >>= f) = .ok b ↔ ∃ a, x = .ok a ∧ f a = .ok b := by
  rcases x with e | a
  · exact iff_of_false nofun fun ⟨_, h, _⟩ ↦ nomatch h
  · exact ⟨fun h ↦ ⟨a, rfl, h⟩, fun ⟨_, ha, h⟩ ↦ by cases ha; exact h⟩

end Checks

/-! ### Numbers read back -/

section Numbers

variable (data : Bytes) (off : ℕ)

@[simp]
theorem toNat_ofNat_beField_one : (UInt8.ofNat (beField data off 1)).toNat = beField data off 1 := by
  exact mod_eq_of_lt (beField_lt data off 1)

@[simp]
theorem toNat_ofNat_beField_two :
    (UInt16.ofNat (beField data off 2)).toNat = beField data off 2 := by
  exact mod_eq_of_lt (beField_lt data off 2)

@[simp]
theorem toNat_ofNat_beField_four :
    (UInt32.ofNat (beField data off 4)).toNat = beField data off 4 := by
  exact mod_eq_of_lt (beField_lt data off 4)

@[simp]
theorem toNat_ofNat_beField_eight :
    (UInt64.ofNat (beField data off 8)).toNat = beField data off 8 := by
  exact mod_eq_of_lt (beField_lt data off 8)

end Numbers

/-- **A descriptor is encoded as the bytes it was decoded from.** -/
theorem FileObjectDescriptor.encode_decode (h : descriptorSize ≤ data.length) :
    (decode data).fields.encode = data.take descriptorSize := by
  have hread : (decode data).fields = Fields.read [2, 2, 4, 4, 8, 4, 2, 1, 1, 2, 2, 2, 2] data := by
    simp only [fields, decode, toNat_ofNat_beField_one, toNat_ofNat_beField_two,
      toNat_ofNat_beField_four, toNat_ofNat_beField_eight]
    simp only [Fields.read, beField, drop_drop, drop_zero, Nat.reduceAdd]
  rw [hread, Fields.encode_read (by simpa using h)]
  rfl

/-- A row of descriptors is encoded as the bytes it was decoded from. -/
theorem encode_decode_range {start count : ℕ} (h : start + count * descriptorSize ≤ data.length) :
    ((List.range count).map fun i ↦
        FileObjectDescriptor.decode (data.drop (start + i * descriptorSize))).flatMap
        (·.fields.encode) = (data.drop start).take (count * descriptorSize) := by
  induction count with
  | zero => simp
  | succ count ih =>
    rw [succ_mul] at h ⊢
    have hlast : descriptorSize ≤ (data.drop (start + count * descriptorSize)).length := by
      rw [length_drop]
      omega
    rw [range_succ, map_append, flatMap_append, ih (by omega), take_add, drop_drop]
    congr 1
    rw [map_singleton, flatMap_singleton, FileObjectDescriptor.encode_decode hlast]

/-! ### The objects of the array -/

/-- The array is read up to the count. -/
theorem map_take_finRange {α : Type} {n count : ℕ} (hcount : count ≤ n) {f : Fin n → α} {g : ℕ → α}
    (hfg : ∀ i : Fin n, i < count → f i = g i) :
    ((List.finRange n).take count).map f = (List.range count).map g := by
  refine ext_getElem (by simpa using hcount) fun i hi hi' ↦ ?_
  have hlt : i < count := by simpa using hi'
  simpa using hfg ⟨i, hlt.trans_le hcount⟩ hlt

namespace FileObjectManifestFull

variable {m : FileObjectManifestFull} {extensions : Bytes} {auth : FileObjectAuthenticator}
  {supported : UInt8 → Bool}

/-- A count that agrees with the flag beside it. -/
theorem count_eq {count : ℕ} (hmax : count ≤ manifestMaxObjects)
    (hcount : m.objectCount = .ofNat count) (hhas : m.hasObject = decide (count > 0)) :
    m.count = count := by
  have hc : (UInt16.ofNat count).toNat = count := by
    simp only [manifestMaxObjects] at hmax
    exact mod_eq_of_lt (by omega)
  rw [FileObjectManifestFull.count, hcount, hhas, hc, if_neg]
  rintro ⟨hzero, hpos⟩
  rw [hzero] at hc
  have hpos : 0 < count := by simpa using hpos
  exact absurd hc.symm (by simpa using hpos.ne')

theorem length_objects (hcount : m.count ≤ manifestMaxObjects) :
    m.listed.objects.length = m.count := by
  simpa [listed] using hcount

theorem getElem_objects {i : ℕ} (hi : i < m.listed.objects.length)
    (hi' : i < manifestMaxObjects) : m.listed.objects[i] = m.objects ⟨i, hi'⟩ := by
  simp [listed]

/-- The size of the manifest. -/
def size (m : FileObjectManifestFull) (extensions : Bytes) : ℕ :=
  m.extensionStart + extensions.length + authTagSize

/-- The bytes of the manifest. -/
def bytes (m : FileObjectManifestFull) (extensions : Bytes) (auth : FileObjectAuthenticator) :
    Bytes :=
  manifestBody m.listed extensions (m.size extensions) ++
    auth.tag (manifestBody m.listed extensions (m.size extensions))

/-- The part of the extension area that an object has for its own. -/
def objectExtensions (m : FileObjectManifestFull) (extensions : Bytes)
    (object : FileObjectDescriptor) : Bytes :=
  (extensions.drop (object.extensionOffset.toNat - m.extensionStart)).take
    object.extensionSize.toNat

/-- A reader can live with the extension area, and with the part of it that any object has. -/
structure Readable (m : FileObjectManifestFull) (supported : UInt8 → Bool) (extensions : Bytes) :
    Prop where
  area : ExtensionArea supported extensions
  object : ∀ object ∈ m.listed.objects,
    ExtensionArea supported (m.objectExtensions extensions object)

/-- **What the builder accepts.** -/
structure Accepted (m : FileObjectManifestFull) (extensions : Bytes) : Prop where
  /-- At most `FILE_OBJECT_MANIFEST_MAX_OBJECTS` objects. -/
  count_le : m.count ≤ manifestMaxObjects
  generation_ne : m.generation ≠ 0
  previous_lt : m.previousGeneration < m.generation
  /-- The size is a number of two bytes. -/
  size_le : m.size extensions ≤ UINT16_MAX
  /-- Every object is well-formed, and its extensions lie in the extension area. -/
  valid : ∀ object ∈ m.listed.objects,
    object.valid m.extensionStart (m.extensionStart + extensions.length) = true
  /-- The objects are in strict order of type and tag. -/
  sorted : m.listed.objects.Pairwise fun a b ↦ keyLt a.key b.key = true
  /-- The extensions are extensions, of any kind. -/
  extensions : m.Readable (fun _ ↦ true) extensions

/-- The manifest with what the parser derives: the count, the places and the sizes, and nothing in the
entries of the array that do not count. -/
def canonical (m : FileObjectManifestFull) (extensions : Bytes) : FileObjectManifestFull :=
  { m with
    extensionOffset := .ofNat m.extensionStart
    extensionSize := .ofNat extensions.length
    totalSize := .ofNat (m.size extensions)
    objectCount := .ofNat m.count
    hasObject := decide (m.count > 0)
    objects := fun i ↦ if i < m.count then m.objects i else .zero }

theorem length_body (hcount : m.count ≤ manifestMaxObjects) (extensions : Bytes) (total : ℕ) :
    (manifestBody m.listed extensions total).length = m.extensionStart + extensions.length := by
  rw [manifestBody, length_append, length_append, length_manifestFields,
    length_flatMap_fields, length_objects hcount, extensionStart]

theorem length_bytes (hcount : m.count ≤ manifestMaxObjects) (extensions : Bytes)
    (auth : FileObjectAuthenticator) : (m.bytes extensions auth).length = m.size extensions := by
  rw [bytes, length_append, length_body hcount, auth.length_tag, size]

/-- What the extension area holds is found in the manifest behind the descriptors. -/
theorem drop_bytes (hcount : m.count ≤ manifestMaxObjects) :
    (m.bytes extensions auth).drop m.extensionStart =
      extensions ++ auth.tag (manifestBody m.listed extensions (m.size extensions)) := by
  have hlen : ((manifestFields m.listed extensions.length (m.size extensions)).encode ++
      m.listed.objects.flatMap (·.fields.encode)).length = m.extensionStart := by
    rw [length_append, length_manifestFields, length_flatMap_fields, length_objects hcount,
      extensionStart]
  rw [bytes, manifestBody, append_assoc, drop_left' hlen]

variable {data : Bytes}

/-- The extensions of an object are the same seen from the area and from the manifest. -/
theorem objectExtensions_eq {object : FileObjectDescriptor}
    (harea : (data.drop m.extensionStart).take extensions.length = extensions)
    (hvalid : object.valid m.extensionStart (m.extensionStart + extensions.length) = true) :
    (data.drop object.extensionOffset.toNat).take object.extensionSize.toNat =
      m.objectExtensions extensions object := by
  simp only [FileObjectDescriptor.valid, Bool.and_eq_true, Bool.or_eq_true, beq_iff_eq,
    decide_eq_true_eq] at hvalid
  rw [objectExtensions]
  rcases hvalid.2 with hzero | ⟨⟨hstart, hend⟩, hsize⟩
  · rw [hzero]
    simp
  · have hplace : object.extensionOffset.toNat =
        m.extensionStart + (object.extensionOffset.toNat - m.extensionStart) := by omega
    conv_lhs => rw [hplace, ← drop_drop]
    conv_rhs => rw [← harea, drop_take, take_take]
    rw [min_eq_left (by omega)]

/-- The check of the extensions of all objects. -/
theorem forM_objectExtensions {bytesAt : ℕ → Bytes}
    (hbytes : ∀ object ∈ m.listed.objects, object.extensionSize > 0 →
      (bytesAt object.extensionOffset.toNat).take object.extensionSize.toNat =
        m.objectExtensions extensions object) :
    ((∀ object ∈ m.listed.objects, ExtensionArea supported (m.objectExtensions extensions object)) →
      m.listed.objects.forM (objectExtensionsValidate bytesAt supported) = .ok ()) ∧
    ((¬∀ object ∈ m.listed.objects,
        ExtensionArea supported (m.objectExtensions extensions object)) →
      m.listed.objects.forM (objectExtensionsValidate bytesAt supported) = .error .wrongData) := by
  have hone (object : FileObjectDescriptor) (hobject : object ∈ m.listed.objects) :
      (ExtensionArea supported (m.objectExtensions extensions object) →
        objectExtensionsValidate bytesAt supported object = .ok ()) ∧
      (¬ExtensionArea supported (m.objectExtensions extensions object) →
        objectExtensionsValidate bytesAt supported object = .error .wrongData) := by
    rw [objectExtensionsValidate]
    split_ifs with hsize
    · rw [hbytes object hobject hsize]
      exact ⟨fileObjectExtensionsValidate_ok.mpr, fileObjectExtensionsValidate_error⟩
    · refine ⟨fun _ ↦ rfl, fun h ↦ absurd ⟨[], ?_, by simp⟩ h⟩
      obtain hzero : object.extensionSize = 0 := by
        rw [gt_iff_lt, UInt16.not_lt] at hsize
        exact UInt16.le_zero_iff.mp hsize
      rw [objectExtensions, hzero]
      simp
  refine ⟨fun h ↦ forM_ok fun object hobject ↦ (hone object hobject).1 (h object hobject), ?_⟩
  generalize m.listed.objects = objects at hone ⊢
  induction objects with
  | nil => exact fun h ↦ absurd (by simp) h
  | cons object objects ih =>
    intro h
    show (objectExtensionsValidate bytesAt supported object >>= fun _ ↦ objects.forM _) = _
    by_cases hfirst : ExtensionArea supported (m.objectExtensions extensions object)
    · rw [(hone object (mem_cons_self ..)).1 hfirst, ok_bind]
      refine ih (fun o ho ↦ hone o (mem_cons_of_mem _ ho)) fun hrest ↦ h ?_
      exact forall_mem_cons.mpr ⟨hfirst, hrest⟩
    · rw [(hone object (mem_cons_self ..)).2 hfirst, error_bind]

theorem Accepted.listedValid (h : m.Accepted extensions) : descriptorsValid m.listed.objects
    m.extensionStart (m.extensionStart + extensions.length) = true := by
  simp only [descriptorsValid, Bool.and_eq_true, all_eq_true, descriptorsSorted_iff_pairwise]
  exact ⟨h.valid, h.sorted⟩

/-- **The builder's verdict.** -/
theorem build_eq_ok {capacity : ℕ} :
    fileObjectManifestBuildAny m extensions auth capacity = .ok data ↔
      m.Accepted extensions ∧ m.size extensions ≤ capacity ∧ data = m.bytes extensions auth := by
  have hbytes (object : FileObjectDescriptor) (_ : object ∈ m.listed.objects)
      (_ : object.extensionSize > 0) :
      (extensions.drop (object.extensionOffset.toNat - m.extensionStart)).take
        object.extensionSize.toNat = m.objectExtensions extensions object := rfl
  have hforM := @forM_objectExtensions m extensions (fun _ ↦ true)
    (fun offset ↦ extensions.drop (offset - m.extensionStart)) hbytes
  unfold fileObjectManifestBuildAny
  simp only [throw_eq_error, error_bind]
  constructor
  · intro h
    split_ifs at h with hext hcount hgen hsize hvalid
    rw [not_or, ge_iff_le, UInt32.not_le] at hgen
    rw [not_or] at hsize
    simp only [Bool.not_eq_true', Bool.not_eq_false, descriptorsValid, Bool.and_eq_true,
      all_eq_true, descriptorsSorted_iff_pairwise] at hvalid
    by_cases harea : ExtensionArea (fun _ ↦ true) extensions
    swap
    · rw [fileObjectExtensionsValidate_error harea] at h
      cases h
    rw [fileObjectExtensionsValidate_ok.mpr harea, ok_bind] at h
    by_cases hobjects : ∀ object ∈ m.listed.objects,
        ExtensionArea (fun _ ↦ true) (m.objectExtensions extensions object)
    swap
    · rw [hforM.2 hobjects] at h
      cases h
    rw [hforM.1 hobjects, ok_bind] at h
    exact ⟨⟨by omega, hgen.1, hgen.2, not_lt.mp hsize.1, hvalid.1, hvalid.2, harea, hobjects⟩,
      not_lt.mp hsize.2, (Except.ok.inj h).symm⟩
  · rintro ⟨hacc, hcapacity, rfl⟩
    have hsize := hacc.size_le
    rw [if_neg, if_neg (not_lt.mpr hacc.count_le), if_neg, if_neg, if_neg (by simp [hacc.listedValid]),
      fileObjectExtensionsValidate_ok.mpr hacc.extensions.area, ok_bind,
      hforM.1 hacc.extensions.object, ok_bind]
    · rfl
    · rw [not_or]
      exact ⟨not_lt.mpr hsize, not_lt.mpr hcapacity⟩
    · rw [not_or, ge_iff_le, UInt32.not_le]
      exact ⟨hacc.generation_ne, hacc.previous_lt⟩
    · rw [size] at hsize
      omega

/-! ### The parser on what was built -/

theorem listed_canonical (hcount : m.count ≤ manifestMaxObjects) :
    (m.canonical extensions).count = m.count ∧
      (m.canonical extensions).listed.objects = m.listed.objects := by
  have hcanon : (m.canonical extensions).count = m.count := count_eq hcount rfl rfl
  refine ⟨hcanon, ?_⟩
  show ((List.finRange manifestMaxObjects).take (m.canonical extensions).count).map
    (m.canonical extensions).objects = _
  rw [hcanon]
  refine map_congr_left fun i hi ↦ if_pos ?_
  obtain ⟨k, hk, hget⟩ := mem_iff_getElem.mp hi
  have hlt : k < m.count := by
    rw [length_take] at hk
    omega
  rw [getElem_take, getElem_finRange] at hget
  rw [← hget]
  exact hlt

/-- **The parser on a built manifest**: it goes as far as the extensions, and they decide. -/
theorem parse_bytes (h : m.Accepted extensions) :
    fileObjectManifestParseAny (m.bytes extensions auth) auth supported = (do
      fileObjectExtensionsValidate extensions supported
      m.listed.objects.forM (objectExtensionsValidate (m.bytes extensions auth).drop supported)
      return m.canonical extensions) := by
  have hcount := h.count_le
  have hsize := h.size_le
  have hlength := m.length_bytes hcount extensions auth
  have hbody := m.length_body hcount extensions (m.size extensions)
  have hobjects := length_objects hcount
  have htotal : m.size extensions =
      manifestHeaderSize + m.count * descriptorSize + extensions.length + authTagSize := rfl
  obtain ⟨data, hdata⟩ : ∃ data, data = m.bytes extensions auth := ⟨_, rfl⟩
  have hsplit : data = (manifestFields m.listed extensions.length (m.size extensions)).encode ++
      (m.listed.objects.flatMap (·.fields.encode) ++ (extensions ++
        auth.tag (manifestBody m.listed extensions (m.size extensions)))) := by
    rw [hdata, bytes]
    simp only [manifestBody, append_assoc]
  simp only [htotal, manifestHeaderSize, descriptorSize, authTagSize, UINT16_MAX] at hsize
  have hfits : (manifestFields m.listed extensions.length (m.size extensions)).Fits := by
    simp only [manifestFields, Fields.Fits, forall_mem_cons, hobjects, htotal, manifestHeaderSize,
      descriptorSize, authTagSize]
    exact ⟨by decide, by decide, by decide, m.flags.toNat_lt, m.namespaceId.toNat_lt,
      m.containerKind.toNat_lt, m.containerId.toNat_lt, m.generation.toNat_lt,
      m.previousGeneration.toNat_lt, by omega, by decide, by decide, by omega, by omega, by simp⟩
  have hfields := Fields.at_encode hfits (m.listed.objects.flatMap (·.fields.encode) ++ (extensions ++
    auth.tag (manifestBody m.listed extensions (m.size extensions))))
  rw [← hsplit] at hfields
  simp only [manifestFields, Fields.At, Nat.reduceAdd, Nat.zero_add] at hfields
  have harray : (fun i : Fin manifestMaxObjects ↦ if i < m.count then
      FileObjectDescriptor.decode (data.drop (manifestHeaderSize + i * descriptorSize))
      else .zero) = (m.canonical extensions).objects := by
    funext i
    show _ = if (i : ℕ) < m.count then m.objects i else .zero
    split_ifs with hi
    · rw [← drop_drop, hsplit, drop_left' (length_manifestFields ..),
        decode_drop_flatMap _ _ (hobjects.symm ▸ hi), getElem_objects _ i.isLt]
    · rfl
  have htag : auth.tag (data.take (data.length - authTagSize)) =
      data.drop (data.length - authTagSize) := by
    have hlen : data.length - authTagSize =
        (manifestBody m.listed extensions (m.size extensions)).length := by
      rw [hdata, hlength, hbody, size]
      omega
    rw [hlen, hdata, bytes, take_left' rfl, drop_left' rfl]
  have harea : (data.drop m.extensionStart).take extensions.length = extensions := by
    rw [hdata, drop_bytes h.count_le, take_left' rfl]
  rw [← hdata] at hlength ⊢
  rw [hlength] at htag
  unfold fileObjectManifestParseAny
  simp only [throw_eq_error, error_bind, hfields, hobjects, htag, hlength, UInt16.ofNat_toNat,
    UInt32.ofNat_toNat, harray]
  have hparsed : (⟨m.listed.flags, m.listed.namespaceId, m.listed.containerKind,
      m.listed.containerId, m.listed.generation, m.listed.previousGeneration,
      .ofNat (manifestHeaderSize + m.count * descriptorSize), .ofNat extensions.length,
      .ofNat (m.size extensions), .ofNat m.count, decide (m.count > 0),
      (m.canonical extensions).objects⟩ : FileObjectManifestFull) = m.canonical extensions := rfl
  have hstart : manifestHeaderSize + m.count * descriptorSize = m.extensionStart := rfl
  rw [hparsed, (listed_canonical h.count_le).2, hstart, harea]
  simp only [ne_eq, not_true_eq_false, false_or, or_false]
  rw [if_neg, if_neg (not_lt.mpr h.count_le), if_neg (by simp [size]), if_neg not_false,
    if_neg, if_neg (by simp [h.listedValid])]
  · rw [not_or, ge_iff_le, UInt32.not_le]
    exact ⟨h.generation_ne, h.previous_lt⟩
  · simp only [htotal, manifestHeaderSize, descriptorSize, authTagSize, UINT16_MAX]
    omega

/-- What becomes of a built manifest. -/
theorem parse_bytes_cases (h : m.Accepted extensions) :
    (m.Readable supported extensions →
      fileObjectManifestParseAny (m.bytes extensions auth) auth supported =
        .ok (m.canonical extensions)) ∧
    (¬m.Readable supported extensions →
      fileObjectManifestParseAny (m.bytes extensions auth) auth supported = .error .wrongData) := by
  have harea : ((m.bytes extensions auth).drop m.extensionStart).take extensions.length =
      extensions := by
    rw [drop_bytes h.count_le, take_left' rfl]
  have hforM := @forM_objectExtensions m extensions supported (m.bytes extensions auth).drop
    fun object hobject _ ↦ objectExtensions_eq harea (h.valid object hobject)
  rw [parse_bytes h]
  constructor
  · rintro ⟨hreadable, hobjects⟩
    rw [fileObjectExtensionsValidate_ok.mpr hreadable, ok_bind, hforM.1 hobjects]
    rfl
  · intro hnot
    by_cases hreadable : ExtensionArea supported extensions
    · rw [fileObjectExtensionsValidate_ok.mpr hreadable, ok_bind,
        hforM.2 fun hobjects ↦ hnot ⟨hreadable, hobjects⟩]
      rfl
    · rw [fileObjectExtensionsValidate_error hreadable]
      rfl

/-! ### What the parser accepts -/

/-- A reader that can live with extensions can live with them as extensions. -/
theorem extensionArea_any (h : ExtensionArea supported data) :
    ExtensionArea (fun _ ↦ true) data := by
  obtain ⟨entries, hentries, -⟩ := h
  exact ⟨entries, hentries, fun _ _ _ ↦ rfl⟩

/-- The header of a manifest is encoded as the bytes it was read from. -/
theorem encode_manifestFields {manifest : FileObjectManifest}
    (hlen : manifestHeaderSize ≤ data.length) (hmagic : beField data 0 4 = manifestMagic)
    (hversion : beField data 4 1 = 1) (hheader : beField data 5 1 = manifestHeaderSize)
    (hflags : manifest.flags = .ofNat (beField data 6 2))
    (hnamespace : manifest.namespaceId = .ofNat (beField data 8 2))
    (hkind : manifest.containerKind = .ofNat (beField data 10 2))
    (hid : manifest.containerId = .ofNat (beField data 12 4))
    (hgeneration : manifest.generation = .ofNat (beField data 16 4))
    (hprevious : manifest.previousGeneration = .ofNat (beField data 20 4))
    (hcount : manifest.objects.length = beField data 24 2)
    (hdescriptor : beField data 26 1 = descriptorSize) (hreserved : beField data 27 1 = 0) :
    (manifestFields manifest (beField data 28 2) (beField data 30 2)).encode =
      data.take manifestHeaderSize := by
  have hread : manifestFields manifest (beField data 28 2) (beField data 30 2) =
      Fields.read [4, 1, 1, 2, 2, 2, 4, 4, 4, 2, 1, 1, 2, 2] data := by
    rw [manifestFields, ← hmagic, ← hheader, ← hdescriptor, hflags, hnamespace, hkind, hid,
      hgeneration, hprevious, hcount]
    simp only [toNat_ofNat_beField_two, toNat_ofNat_beField_four]
    simp only [Fields.read, drop_drop, Nat.reduceAdd]
    simp only [beField] at hversion hreserved ⊢
    rw [hversion, hreserved]
    rfl
  rw [hread, Fields.encode_read (by simpa using hlen)]
  rfl

/-- **What the parser accepts is the encoding of what it gives.** -/
theorem parse_ok (h : fileObjectManifestParseAny data auth supported = .ok m) :
    ∃ extensions, m.Accepted extensions ∧ m.Readable supported extensions ∧
      m.canonical extensions = m ∧ data = m.bytes extensions auth := by
  unfold fileObjectManifestParseAny at h
  simp only [throw_eq_error, error_bind] at h
  simp only [ite_error_eq_ok, except_bind_eq_ok] at h
  obtain ⟨hlen, hhead, hsize, htag, ⟨⟩, harea, hgen, hvalid, ⟨⟩, hforM, hm⟩ := h
  replace hm := Except.ok.inj hm
  simp only [hm] at hvalid hforM
  simp only [not_or, not_not, not_lt] at hlen hhead hsize htag hgen
  obtain ⟨hmagic, hversion, hheader, hmax, hdescriptor, hreserved, htotal⟩ := hhead
  have hcount : m.count = beField data 24 2 :=
    count_eq hmax (congrArg objectCount hm.symm) (congrArg hasObject hm.symm)
  have hstart : m.extensionStart = manifestHeaderSize + beField data 24 2 * descriptorSize := by
    rw [extensionStart, hcount]
  obtain ⟨extensions, hext⟩ : ∃ extensions, extensions =
    (data.drop m.extensionStart).take (beField data 28 2) := ⟨_, rfl⟩
  have hextlen : extensions.length = beField data 28 2 := by
    rw [hext, length_take_of_le]
    rw [length_drop, hstart]
    omega
  have hsizeEq : m.size extensions = data.length := by
    rw [size, hstart, hextlen, hsize]
  have hobjects : m.listed.objects = (List.range (beField data 24 2)).map fun i ↦
      .decode (data.drop (manifestHeaderSize + i * descriptorSize)) := by
    show ((List.finRange manifestMaxObjects).take m.count).map m.objects = _
    rw [hcount]
    refine map_take_finRange hmax fun i hi ↦ ?_
    rw [← hm]
    exact if_pos hi
  -- the three parts of the body, and the tag behind them
  have hbody : manifestBody m.listed extensions (m.size extensions) =
      data.take (data.length - authTagSize) := by
    have hfields := @encode_manifestFields data m.listed (by omega) hmagic hversion hheader
      (congrArg flags hm.symm) (congrArg namespaceId hm.symm) (congrArg containerKind hm.symm)
      (congrArg containerId hm.symm) (congrArg generation hm.symm)
      (congrArg previousGeneration hm.symm) (by rw [hobjects]; simp) hdescriptor hreserved
    have hsum : data.length - authTagSize =
        manifestHeaderSize + beField data 24 2 * descriptorSize + beField data 28 2 := by omega
    rw [hsum, manifestBody, hextlen, hsizeEq, ← htotal, hfields, hobjects,
      encode_decode_range (by omega), hext, hstart, take_add, take_add]
  have hbytes : data = m.bytes extensions auth := by
    rw [bytes, hbody, htag, take_append_drop]
  rw [← hstart, ← hext] at harea
  simp only [Bool.not_eq_true', Bool.not_eq_false, descriptorsValid, Bool.and_eq_true,
    all_eq_true, descriptorsSorted_iff_pairwise, ← hstart, ← hextlen] at hvalid
  have hreadable : m.Readable supported extensions := by
    refine ⟨fileObjectExtensionsValidate_ok.mp harea, fun object hobject ↦ ?_⟩
    have hone := forM_eq_ok hforM object hobject
    have hslice := objectExtensions_eq (m := m) (by rw [hextlen]; exact hext.symm)
      (hvalid.1 object hobject)
    rw [objectExtensionsValidate, hslice] at hone
    split_ifs at hone with hzero
    · exact fileObjectExtensionsValidate_ok.mp hone
    · rw [gt_iff_lt, UInt16.not_lt, UInt16.le_zero_iff] at hzero
      rw [objectExtensions, hzero]
      exact ⟨[], rfl, by simp⟩
  refine ⟨extensions, ⟨hcount.trans_le hmax, ?_, ?_, hsizeEq.trans_le hlen.2, hvalid.1, hvalid.2,
    extensionArea_any hreadable.area, fun object hobject ↦
      extensionArea_any (hreadable.object object hobject)⟩, hreadable, ?_, hbytes⟩
  · rw [← hm]
    exact hgen.1
  · rw [← hm]
    exact UInt32.not_le.mp hgen.2
  · have harray (i : Fin manifestMaxObjects) :
        (if (i : ℕ) < beField data 24 2 then m.objects i else .zero) = m.objects i := by
      split_ifs with hi
      · rfl
      · rw [← hm]
        exact (if_neg hi).symm
    rw [canonical, hsizeEq, hextlen, hstart, hcount, ← htotal]
    simp only [harray]
    rw [← hm]

end FileObjectManifestFull

/-! ### The store's calls -/

open FileObjectManifestFull

/-- A buffer that holds any manifest is none. -/
theorem fileObjectManifestBuildAny_eq {m : FileObjectManifestFull} {extensions : Bytes}
    {auth : FileObjectAuthenticator} {capacity : ℕ} (hcount : m.count ≤ manifestMaxObjects)
    (hcapacity : UINT16_MAX ≤ capacity) :
    fileObjectManifestBuildAny m extensions auth capacity =
      fileObjectManifestBuild m.listed extensions auth := by
  have hsize (size : ℕ) : (size > UINT16_MAX ∨ capacity < size) ↔ size > UINT16_MAX := by omega
  unfold fileObjectManifestBuildAny fileObjectManifestBuild
  simp only [length_objects hcount, extensionStart, hsize]
  rfl

/-- A reader that supports no kind is the store. -/
theorem fileObjectManifestParseAny_eq (data : Bytes) (auth : FileObjectAuthenticator) :
    (fileObjectManifestParseAny data auth fun _ ↦ false).map listed =
      fileObjectManifestParse data auth := by
  unfold fileObjectManifestParseAny fileObjectManifestParse
  simp only [throw_eq_error, error_bind]
  by_cases hlen : data.length < manifestHeaderSize + authTagSize ∨ data.length > UINT16_MAX
  · rw [if_pos hlen, if_pos hlen]
    rfl
  rw [if_neg hlen, if_neg hlen]
  by_cases hhead : beField data 0 4 ≠ manifestMagic ∨ beField data 4 1 ≠ 1 ∨
      beField data 5 1 ≠ manifestHeaderSize ∨ beField data 24 2 > manifestMaxObjects ∨
      beField data 26 1 ≠ descriptorSize ∨ beField data 27 1 ≠ 0 ∨
      beField data 30 2 ≠ data.length
  · rw [if_pos hhead, if_pos hhead]
    rfl
  rw [if_neg hhead, if_neg hhead]
  have hmax : beField data 24 2 ≤ manifestMaxObjects := by
    simp only [not_or, not_lt] at hhead
    exact hhead.2.2.2.1
  obtain ⟨parsed, hparsed⟩ : ∃ parsed : FileObjectManifestFull, parsed =
      ⟨.ofNat (beField data 6 2), .ofNat (beField data 8 2), .ofNat (beField data 10 2),
        .ofNat (beField data 12 4), .ofNat (beField data 16 4), .ofNat (beField data 20 4),
        .ofNat (manifestHeaderSize + beField data 24 2 * descriptorSize),
        .ofNat (beField data 28 2), .ofNat (beField data 30 2), .ofNat (beField data 24 2),
        decide (beField data 24 2 > 0), fun i ↦ if i < beField data 24 2 then
          .decode (data.drop (manifestHeaderSize + i * descriptorSize)) else .zero⟩ := ⟨_, rfl⟩
  have hobjects : parsed.listed.objects = (List.range (beField data 24 2)).map fun i ↦
      .decode (data.drop (manifestHeaderSize + i * descriptorSize)) := by
    have hcount : parsed.count = beField data 24 2 :=
      count_eq hmax (congrArg objectCount hparsed) (congrArg hasObject hparsed)
    show ((List.finRange manifestMaxObjects).take parsed.count).map parsed.objects = _
    rw [hcount]
    refine map_take_finRange hmax fun i hi ↦ ?_
    rw [hparsed]
    exact if_pos hi
  have hlisted : parsed.listed = ⟨.ofNat (beField data 6 2), .ofNat (beField data 8 2),
      .ofNat (beField data 10 2), .ofNat (beField data 12 4), .ofNat (beField data 16 4),
      .ofNat (beField data 20 4), .ofNat (beField data 28 2), parsed.listed.objects⟩ := by
    rw [hparsed]
    rfl
  simp only [← hparsed, ← hobjects]
  rw [← hlisted]
  by_cases hsize : manifestHeaderSize + beField data 24 2 * descriptorSize + beField data 28 2 +
      authTagSize ≠ data.length
  · rw [if_pos hsize, if_pos hsize]
    rfl
  rw [if_neg hsize, if_neg hsize]
  by_cases htag : auth.tag (data.take (data.length - authTagSize)) ≠
      data.drop (data.length - authTagSize)
  · rw [if_pos htag, if_pos htag]
    rfl
  rw [if_neg htag, if_neg htag]
  rcases fileObjectExtensionsValidate ((data.drop (manifestHeaderSize +
    beField data 24 2 * descriptorSize)).take (beField data 28 2)) fun _ ↦ false with r | u
  · rfl
  split_ifs
  · rfl
  · rfl
  rcases parsed.listed.objects.forM (objectExtensionsValidate data.drop fun _ ↦ false) with r | u
  · rfl
  · rfl

/-! ### Manifests without extensions -/

/-- A manifest with its objects in an array. -/
def FileObjectManifest.full (manifest : FileObjectManifest) : FileObjectManifestFull where
  flags := manifest.flags
  namespaceId := manifest.namespaceId
  containerKind := manifest.containerKind
  containerId := manifest.containerId
  generation := manifest.generation
  previousGeneration := manifest.previousGeneration
  extensionOffset := 0
  extensionSize := manifest.extensionSize
  totalSize := 0
  objectCount := .ofNat manifest.objects.length
  hasObject := decide (manifest.objects.length > 0)
  objects := fun i ↦ manifest.objects.getD i .zero

namespace FileObjectManifest

variable {manifest : FileObjectManifest} {auth : FileObjectAuthenticator}

theorem count_full (h : manifest.objects.length ≤ manifestMaxObjects) :
    manifest.full.count = manifest.objects.length :=
  count_eq h rfl rfl

theorem listed_full (h : manifest.objects.length ≤ manifestMaxObjects) :
    manifest.full.listed = manifest := by
  have hobjects : manifest.full.listed.objects = manifest.objects := by
    refine ext_getElem ((length_objects ((count_full h).trans_le h)).trans (count_full h))
      fun i hi hi' ↦ ?_
    rw [getElem_objects hi (hi'.trans_le h)]
    exact getD_eq_getElem _ _ hi'
  obtain ⟨_, _, _, _, _, _, _, objects⟩ := manifest
  exact congrArg (FileObjectManifest.mk _ _ _ _ _ _ _) hobjects

/-- The builder requires the same of either manifest. -/
theorem accepted_full (h : manifest.objects.length ≤ manifestMaxObjects) :
    manifest.full.Accepted [] ↔ manifest.Built := by
  have hstart : manifest.full.extensionStart =
      manifestHeaderSize + manifest.objects.length * descriptorSize := by
    rw [extensionStart, count_full h]
  have hnone : ExtensionArea (fun _ ↦ true) [] := ⟨[], rfl, by simp⟩
  constructor
  · intro hacc
    have hvalid := hacc.valid
    have hsorted := hacc.sorted
    rw [listed_full h, hstart] at hvalid
    rw [listed_full h] at hsorted
    exact ⟨h, hacc.generation_ne, hacc.previous_lt, hvalid,
      descriptorsSorted_iff_pairwise.mpr hsorted⟩
  · intro hbuilt
    have hvalid := hbuilt.valid
    have hsorted := descriptorsSorted_iff_pairwise.mp hbuilt.sorted
    rw [← hstart] at hvalid
    refine ⟨(count_full h).trans_le h, hbuilt.generation_ne, hbuilt.previous_lt, ?_, ?_, ?_, hnone,
      fun object _ ↦ ?_⟩
    · simp only [FileObjectManifestFull.size, hstart, manifestHeaderSize, descriptorSize,
        authTagSize, UINT16_MAX, length_nil]
      simp only [manifestMaxObjects] at h
      omega
    · rw [listed_full h]
      exact hvalid
    · rw [listed_full h]
      exact hsorted
    · rw [objectExtensions, drop_nil, take_nil]
      exact hnone

theorem bytes_full (h : manifest.objects.length ≤ manifestMaxObjects) :
    manifest.full.bytes [] auth = manifest.bytes auth := by
  have hsize : manifest.full.size [] = manifest.size := by
    rw [FileObjectManifestFull.size, extensionStart, count_full h]
    rfl
  rw [FileObjectManifestFull.bytes, listed_full h, hsize, FileObjectManifest.bytes]

end FileObjectManifest

section Store

variable {auth : FileObjectAuthenticator} {manifest : FileObjectManifest}

/-- **The builder's verdict**: it produces the bytes of the manifest exactly when the manifest is as
it requires. -/
theorem fileObjectManifestBuild_eq_ok {bytes : Bytes} :
    fileObjectManifestBuild manifest [] auth = .ok bytes ↔
      manifest.Built ∧ bytes = manifest.bytes auth := by
  by_cases h : manifest.objects.length ≤ manifestMaxObjects
  · have hany := @fileObjectManifestBuildAny_eq manifest.full [] auth _
      ((manifest.count_full h).trans_le h) le_rfl
    rw [manifest.listed_full h] at hany
    rw [← hany, build_eq_ok, manifest.accepted_full h, manifest.bytes_full h]
    exact and_congr_right fun hbuilt ↦
      and_iff_right ((manifest.accepted_full h).mpr hbuilt).size_le
  · refine iff_of_false (fun hbuild ↦ ?_) fun hbuilt ↦ h hbuilt.1.length_le
    simp only [fileObjectManifestBuild, throw_eq_error, error_bind] at hbuild
    rw [if_neg (by simp), if_pos (Nat.lt_of_not_le h)] at hbuild
    cases hbuild

/-- **A manifest parses to itself.** -/
theorem fileObjectManifestParse_bytes (hbuilt : manifest.Built)
    (hext : manifest.extensionSize = 0) :
    fileObjectManifestParse (manifest.bytes auth) auth = .ok manifest := by
  have h := hbuilt.length_le
  have hacc := (manifest.accepted_full h).mpr hbuilt
  have hreadable : manifest.full.Readable (fun _ ↦ false) [] :=
    ⟨⟨[], rfl, by simp⟩, fun object _ ↦ ⟨[], by simp [objectExtensions], by simp⟩⟩
  have hlisted : (manifest.full.canonical []).listed = manifest := by
    have hobjects := (@listed_canonical _ [] hacc.count_le).2
    rw [manifest.listed_full h] at hobjects
    obtain ⟨_, _, _, _, _, _, _, objects⟩ := manifest
    obtain rfl := hext
    exact congrArg (FileObjectManifest.mk _ _ _ _ _ _ _) hobjects
  rw [← fileObjectManifestParseAny_eq, ← manifest.bytes_full h,
    (parse_bytes_cases hacc).1 hreadable]
  exact congrArg Except.ok hlisted

end Store

/-- **The manifest codec.** What the builder accepts it builds, if there is room, and the parser gives
back the value it was built from, if its caller supports the critical extensions, and refuses it
otherwise; and what the parser accepts is the encoding that the builder makes of the value it gives,
so that every other byte string is refused. -/
theorem manifest_codec (auth : FileObjectAuthenticator) (supported : UInt8 → Bool) :
    (∀ (m : FileObjectManifestFull) (extensions : Bytes) (capacity : ℕ),
      ((∃ data, fileObjectManifestBuildAny m extensions auth capacity = .ok data) ↔
        m.Accepted extensions ∧ m.size extensions ≤ capacity) ∧
      ∀ data, fileObjectManifestBuildAny m extensions auth capacity = .ok data →
        data.length = m.size extensions ∧
        (m.Readable supported extensions →
          fileObjectManifestParseAny data auth supported = .ok (m.canonical extensions)) ∧
        (¬m.Readable supported extensions →
          fileObjectManifestParseAny data auth supported = .error .wrongData)) ∧
    ∀ (data : Bytes) (m : FileObjectManifestFull),
      fileObjectManifestParseAny data auth supported = .ok m ↔
        ∃ extensions, m.Readable supported extensions ∧ m.canonical extensions = m ∧
          fileObjectManifestBuildAny m extensions auth data.length = .ok data := by
  refine ⟨fun m extensions capacity ↦ ⟨?_, fun data hbuild ↦ ?_⟩, fun data m ↦ ⟨fun h ↦ ?_, ?_⟩⟩
  · exact ⟨fun ⟨_, h⟩ ↦ ⟨(build_eq_ok.mp h).1, (build_eq_ok.mp h).2.1⟩,
      fun ⟨hacc, hcap⟩ ↦ ⟨_, build_eq_ok.mpr ⟨hacc, hcap, rfl⟩⟩⟩
  · obtain ⟨hacc, -, rfl⟩ := build_eq_ok.mp hbuild
    exact ⟨length_bytes hacc.count_le _ _, parse_bytes_cases hacc⟩
  · obtain ⟨extensions, hacc, hreadable, hcanon, hdata⟩ := parse_ok h
    refine ⟨extensions, hreadable, hcanon, build_eq_ok.mpr ⟨hacc, ?_, hdata⟩⟩
    rw [hdata, length_bytes hacc.count_le]
  · rintro ⟨extensions, hreadable, hcanon, hbuild⟩
    obtain ⟨hacc, -, rfl⟩ := build_eq_ok.mp hbuild
    rw [(parse_bytes_cases hacc).1 hreadable, hcanon]

/-- A manifest of the first generation without objects. -/
def exampleManifestFull : FileObjectManifestFull :=
  ⟨0, 1, 2, 3, 1, 0, 32, 4, 52, 0, false, fun _ ↦ .zero⟩

/-- A critical extension that the reader does not support is built and not parsed; and an object that is
there without being counted is counted when it is parsed. -/
theorem manifest_not_read_back :
    (∃ data, fileObjectManifestBuildAny exampleManifestFull [9, 1, 0, 0] exampleTxnAuth 52 =
        .ok data ∧
      (fileObjectManifestParseAny data exampleTxnAuth fun _ ↦ false) ≠ .ok exampleManifestFull) ∧
    ∃ (m : FileObjectManifestFull) (data : Bytes),
      fileObjectManifestBuildAny m [] exampleTxnAuth 84 = .ok data ∧
        (fileObjectManifestParseAny data exampleTxnAuth fun _ ↦ false) ≠ .ok m := by
  refine ⟨⟨_, rfl, by decide +kernel⟩, { exampleManifestFull with
    hasObject := true
    objects := fun _ ↦ ⟨1, 1, 1, 0, 1, 0, 0, 0, 1, 0, 0, 0, 0⟩ }, _, rfl, by decide +kernel⟩

end PicoAll
