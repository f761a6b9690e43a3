import PicoAll.Fs.ObjectContainerManifest
import PicoAll.Fs.ObjectContainerStore

/-!
# What a container holds

A container that holds a manifest `m` with data `val` — a function of object keys — has `m` in one
slot with all of its records intact, and in the other slot nothing, or a manifest of an older
generation whose records may long have been overwritten (`ContainerHolds`). Such a container loads
`m`, and reading an object gives its data.

The other slot is allowed to be stale because a load looks at generations first: an older manifest
whose records happen to be there is not chosen, and one whose records are gone does not count.
-/

namespace PicoAll

open FaultProgram BigEndian List

variable {layout : FileObjectContainerLayout} {cid : UInt32}
  {crypto : FileObjectContainerCrypto} {legacy : Option FileObjectContainerCrypto}
  {files files' : Files}

/-! ### Definitions -/

/-- The files a container can use: its manifests, and the record files of descriptors its layout
accepts. -/
def ContainerFid (layout : FileObjectContainerLayout) (cid : UInt32) (fid : ℕ) : Prop :=
  (∃ slot, fid = layout.manifestFid cid slot) ∨
    ∃ object, layout.descriptorValid cid object = true ∧
      layout.recordFid cid object = .ok fid

/-- The object's record id is one that its layout hands out. -/
def RecordIdAllocated (layout : FileObjectContainerLayout) (cid : UInt32)
    (object : FileObjectDescriptor) : Prop :=
  ∃ slot write auth s os r, layout.writeValid write = true ∧ write.key = object.key ∧
    (layout.recordAllocate cid slot write auth).result s os = .ok r ∧
    r.1 = object.recordId

/-- The record of an object is intact and holds `data`. -/
structure RecordHolds (layout : FileObjectContainerLayout) (cid : UInt32)
    (crypto : FileObjectContainerCrypto) (files : Files) (manifest : FileObjectManifest)
    (object : FileObjectDescriptor) (data : Bytes) : Prop where
  /-- The layout accepts the descriptor. -/
  valid : layout.descriptorValid cid object = true
  /-- The layout has made the record id. -/
  allocated : RecordIdAllocated layout cid object
  /-- Sizes and fields are in order. -/
  sizes : RecordSizes object data
  /-- The record is where the layout says, sealed under the object's policy. -/
  stored : ∃ policyHash fid, layout.policyHash object.policyId = .ok policyHash ∧
    layout.recordFid cid object = .ok fid ∧
    files fid = some (recordBytes manifest object policyHash crypto.protector data)

/-- A manifest file of this container, as the store writes them. -/
structure ManifestFile (layout : FileObjectContainerLayout) (cid : UInt32)
    (crypto : FileObjectContainerCrypto) (files : Files) (slot : Fin 2)
    (manifest : FileObjectManifest) : Prop where
  /-- The bytes are those of the manifest. -/
  file : files (layout.manifestFid cid slot) = some (manifest.bytes crypto.auth)
  /-- It can be built. -/
  built : manifest.Built
  extensionSize_eq : manifest.extensionSize = 0
  /-- It is this container's. -/
  namespaceId_eq : manifest.namespaceId = layout.namespaceId
  containerKind_eq : manifest.containerKind = layout.containerKind
  containerId_eq : manifest.containerId = cid
  /-- It has objects, and the layout knows where their records are. -/
  objects_ne : manifest.objects ≠ []
  placed : ∀ object ∈ manifest.objects, layout.descriptorValid cid object = true ∧
    ∃ fid, layout.recordFid cid object = .ok fid

/-- A slot without a manifest. -/
def SlotEmpty (layout : FileObjectContainerLayout) (cid : UInt32) (files : Files)
    (slot : Fin 2) : Prop :=
  fileHasData (files (layout.manifestFid cid slot)) = false

/-- **The container holds a manifest** with its data. -/
structure ContainerHolds (layout : FileObjectContainerLayout) (cid : UInt32)
    (crypto : FileObjectContainerCrypto) (files : Files) (slot : Fin 2)
    (manifest : FileObjectManifest) (val : UInt16 × UInt16 → Bytes) : Prop where
  /-- The manifest is in its slot. -/
  manifestFile : ManifestFile layout cid crypto files slot manifest
  /-- Its records are intact. -/
  records : ∀ object ∈ manifest.objects,
    RecordHolds layout cid crypto files manifest object (val object.key)
  /-- The other slot is empty or older. -/
  other : SlotEmpty layout cid files slot.rev ∨
    ∃ older, ManifestFile layout cid crypto files slot.rev older ∧
      older.generation < manifest.generation

/-- The container does not exist. -/
def ContainerAbsent (layout : FileObjectContainerLayout) (cid : UInt32) (files : Files) :
    Prop :=
  ∀ slot, SlotEmpty layout cid files slot

/-! ### Loading -/

theorem bytes_ne_nil (manifest : FileObjectManifest) (auth : FileObjectAuthenticator) :
    manifest.bytes auth ≠ [] := by
  intro h
  have hlen := manifest.length_bytes auth
  rw [h] at hlen
  simp [FileObjectManifest.size] at hlen

variable {manifest : FileObjectManifest} {object : FileObjectDescriptor} {slot : Fin 2}
  {val : UInt16 × UInt16 → Bytes} {data : Bytes} {state : FileObjectContainerState}
  {manifest' : FileObjectManifest}

theorem fileHasData_recordBytes {policyHash : Bytes} :
    fileHasData (some (recordBytes manifest object policyHash crypto.protector data)) = true := by
  rw [fileHasData_some]
  intro hnil
  have hlen := @length_recordBytes crypto.protector manifest object policyHash data
  rw [hnil] at hlen
  simp [recordHeaderSize] at hlen

theorem RecordHolds.checkObject (h : RecordHolds layout cid crypto files manifest object data) :
    containerCheckObject layout cid files object = .ok () := by
  obtain ⟨policyHash, fid, -, hfid, hfile⟩ := h.stored
  simp [containerCheckObject, h.valid, hfid, hfile, fileHasData_recordBytes,
    recordHeaderParse_bytes h.sizes]

/-- A check of an object either passes or says that the data are wrong, where the layout knows the
record's place. -/
theorem checkObject_cases (hvalid : layout.descriptorValid cid object = true) {fid : ℕ}
    (hfid : layout.recordFid cid object = .ok fid) :
    containerCheckObject layout cid files object = .ok () ∨
      containerCheckObject layout cid files object = .error .wrongData := by
  simp only [containerCheckObject, hvalid, hfid, Bool.not_true, Bool.false_eq_true, if_false,
    ok_bind, throw_eq_error, error_bind]
  rcases files fid with - | record
  · exact .inr rfl
  · simp only
    split_ifs
    · exact .inr rfl
    · rcases fileObjectRecordHeaderParse record object with r | u
      · exact .inr rfl
      · exact .inl rfl

theorem forM_cases {α : Type} {f : α → Except Status Unit} {l : List α}
    (h : ∀ a ∈ l, f a = .ok () ∨ f a = .error .wrongData) :
    l.forM f = .ok () ∨ l.forM f = .error .wrongData := by
  induction l with
  | nil => exact .inl rfl
  | cons a l ih =>
    show (f a >>= fun _ ↦ l.forM f) = .ok () ∨ (f a >>= fun _ ↦ l.forM f) = .error .wrongData
    rcases h a (mem_cons_self ..) with ha | ha
    · rw [ha]
      exact ih fun b hb ↦ h b (mem_cons_of_mem _ hb)
    · rw [ha]
      exact .inr rfl

/-- A manifest file parses to its manifest, so the slot's verdict is that of the checks on the
objects. -/
theorem ManifestFile.parseSlot (h : ManifestFile layout cid crypto files slot manifest) :
    fileObjectContainerParseSlot layout cid files slot crypto.auth =
      manifest.objects.forM (containerCheckObject layout cid files) >>= fun _ ↦
        .ok manifest := by
  have hdata : fileHasData (some (manifest.bytes crypto.auth)) = true :=
    fileHasData_some.mpr (bytes_ne_nil manifest crypto.auth)
  rw [fileObjectContainerParseSlot, h.file]
  simp [hdata, fileObjectManifestParse_bytes h.built h.extensionSize_eq, h.namespaceId_eq,
    h.containerKind_eq, h.containerId_eq, h.objects_ne]

theorem ManifestFile.candidate (h : ManifestFile layout cid crypto files slot manifest) :
    containerCandidate layout cid files slot crypto.auth = .ok (some manifest) ∨
      containerCandidate layout cid files slot crypto.auth = .ok none := by
  have hcheck : ∀ object ∈ manifest.objects, containerCheckObject layout cid files object = .ok () ∨
      containerCheckObject layout cid files object = .error .wrongData := by
    intro object hobject
    obtain ⟨hvalid, fid, hfid⟩ := h.placed object hobject
    exact checkObject_cases hvalid hfid
  rw [containerCandidate, h.parseSlot]
  rcases forM_cases hcheck with hok | herr
  · exact .inl (by rw [hok]; rfl)
  · exact .inr (by rw [herr]; rfl)

theorem ContainerHolds.candidate (h : ContainerHolds layout cid crypto files slot manifest val) :
    containerCandidate layout cid files slot crypto.auth = .ok (some manifest) := by
  rw [containerCandidate, h.manifestFile.parseSlot,
    forM_ok fun object hobject ↦ (h.records object hobject).checkObject]
  rfl

theorem SlotEmpty.candidate (h : SlotEmpty layout cid files slot) (auth : FileObjectAuthenticator) :
    containerCandidate layout cid files slot auth = .ok none := by
  have hparse : fileObjectContainerParseSlot layout cid files slot auth =
      .error .fileNotFound := by
    unfold SlotEmpty at h
    rw [fileObjectContainerParseSlot]
    rcases hf : files (layout.manifestFid cid slot) with - | data
    · rfl
    · rw [hf] at h
      simp [h]
  rw [containerCandidate, hparse]

/-- The record of an object is where the layout says, under a header that is the object's. -/
structure ObjectFramed (layout : FileObjectContainerLayout) (cid : UInt32) (files : Files)
    (object : FileObjectDescriptor) : Prop where
  valid : layout.descriptorValid cid object = true
  framed : ∃ fid record, layout.recordFid cid object = .ok fid ∧ files fid = some record ∧
    fileObjectRecordHeaderParse record object = .ok ()

theorem checkObject_framed (h : containerCheckObject layout cid files object = .ok ()) :
    ObjectFramed layout cid files object := by
  rw [containerCheckObject] at h
  simp only [throw_eq_error, error_bind, pure_eq_ok] at h
  split_ifs at h with hvalid
  rcases hfid : layout.recordFid cid object with r | fid
  · simp [hfid] at h
  · rw [hfid, ok_bind] at h
    rcases hfile : files fid with - | record
    · simp [hfile] at h
    · simp only [hfile] at h
      split_ifs at h
      rcases hparse : fileObjectRecordHeaderParse record object with r | u
      · simp [hparse] at h
      · exact ⟨by simpa using hvalid, fid, record, hfid, hfile, hparse⟩

theorem RecordHolds.framed (h : RecordHolds layout cid crypto files manifest object data) :
    ObjectFramed layout cid files object :=
  checkObject_framed h.checkObject

theorem recordId_eq_of_headerParse {record : Bytes}
    (h : fileObjectRecordHeaderParse record object = .ok ()) :
    beField record 8 8 = object.recordId.toNat := by
  rw [fileObjectRecordHeaderParse] at h
  split_ifs at h with _ _ hfields
  by_contra hne
  exact hfields (by tauto)

/-- Two records in one file are one record. -/
theorem ObjectFramed.recordId_eq {object' : FileObjectDescriptor} {fid : ℕ}
    (h : ObjectFramed layout cid files object) (h' : ObjectFramed layout cid files object')
    (hfid : layout.recordFid cid object = .ok fid)
    (hfid' : layout.recordFid cid object' = .ok fid) : object.recordId = object'.recordId := by
  obtain ⟨f, record, hf, hfile, hparse⟩ := h.framed
  obtain ⟨f', record', hf', hfile', hparse'⟩ := h'.framed
  rw [hfid] at hf
  rw [hfid'] at hf'
  cases hf
  cases hf'
  rw [hfile] at hfile'
  cases hfile'
  rw [← UInt64.toNat_inj, ← recordId_eq_of_headerParse hparse, ← recordId_eq_of_headerParse hparse']

/-- The records of a slot that takes part in a load are framed. -/
theorem containerCandidate_framed {auth : FileObjectAuthenticator}
    (h : containerCandidate layout cid files slot auth = .ok (some manifest)) :
    ∀ object ∈ manifest.objects, ObjectFramed layout cid files object := by
  have hparse : fileObjectContainerParseSlot layout cid files slot auth =
      .ok manifest := by
    rw [containerCandidate] at h
    split at h
    · cases h; assumption
    all_goals cases h
  rw [fileObjectContainerParseSlot] at hparse
  rcases hfile : files (layout.manifestFid cid slot) with - | data
  · simp [hfile] at hparse
  · simp only [hfile, throw_eq_error, error_bind, pure_eq_ok] at hparse
    split_ifs at hparse
    rcases hmanifest : fileObjectManifestParse data auth with r | m
    · simp [hmanifest] at hparse
    · simp only [hmanifest, ok_bind] at hparse
      split_ifs at hparse
      rcases hcheck : m.objects.forM (containerCheckObject layout cid files) with r | u
      · simp [hcheck] at hparse
      · simp only [hcheck, ok_bind] at hparse
        cases hparse
        exact fun object hobject ↦ checkObject_framed (forM_eq_ok hcheck object hobject)

/-- The state a container that holds a manifest loads: the manifest, and in each slot what counts
there. -/
structure LoadedState (layout : FileObjectContainerLayout) (cid : UInt32)
    (crypto : FileObjectContainerCrypto) (files : Files) (slot : Fin 2)
    (manifest : FileObjectManifest) (state : FileObjectContainerState) : Prop where
  crypto_eq : state.crypto = crypto
  current_eq : state.current = (slot, manifest)
  candidates_eq : ∀ i, containerCandidate layout cid files i crypto.auth =
    .ok (state.candidates i)

/-- **A container that holds a manifest loads it.** -/
theorem ContainerHolds.load (hlayout : fileObjectContainerLayoutValid layout = true)
    (h : ContainerHolds layout cid crypto files slot manifest val) :
    ∃ state, fileObjectContainerLoad layout cid files crypto legacy = .ok state ∧
      LoadedState layout cid crypto files slot manifest state := by
  have hcur := h.candidate
  suffices hload : ∃ state, fileObjectContainerLoadWithCrypto layout cid files crypto =
      .ok state ∧ LoadedState layout cid crypto files slot manifest state by
    obtain ⟨state, hstate, hspec⟩ := hload
    exact ⟨state, by simp [fileObjectContainerLoad, hlayout, hstate], hspec⟩
  -- the other slot gives nothing, or an older manifest
  obtain ⟨other, hother, hspec⟩ : ∃ other,
      containerCandidate layout cid files slot.rev crypto.auth = .ok other ∧
      ∀ older, other = some older → older.generation < manifest.generation := by
    rcases h.other with hempty | ⟨older, hfile, hlt⟩
    · exact ⟨none, hempty.candidate _, nofun⟩
    · rcases hfile.candidate with hsome | hnone
      · exact ⟨some older, hsome, fun m hm ↦ by cases hm; exact hlt⟩
      · exact ⟨none, hnone, nofun⟩
  unfold fileObjectContainerLoadWithCrypto
  match slot, hcur, hother with
  | 0, hcur, hother =>
    replace hother : containerCandidate layout cid files 1 crypto.auth = .ok other := hother
    have hboth : ∀ i : Fin 2, containerCandidate layout cid files i crypto.auth =
        .ok (if i = 0 then some manifest else other) := by
      intro i
      match i with
      | 0 => exact hcur
      | 1 => exact hother
    simp only [hcur, hother, ok_bind]
    rcases other with - | older
    · exact ⟨_, rfl, rfl, rfl, hboth⟩
    · have hlt := hspec older rfl
      have hne : manifest.generation ≠ older.generation := (UInt32.ne_of_lt hlt).symm
      have hngt : ¬older.generation > manifest.generation :=
        UInt32.not_lt.mpr (UInt32.le_of_lt hlt)
      simp only [hne, hngt, if_false]
      exact ⟨_, rfl, rfl, rfl, hboth⟩
  | 1, hcur, hother =>
    replace hother : containerCandidate layout cid files 0 crypto.auth = .ok other := hother
    have hboth : ∀ i : Fin 2, containerCandidate layout cid files i crypto.auth =
        .ok (if i = 0 then other else some manifest) := by
      intro i
      match i with
      | 0 => exact hother
      | 1 => exact hcur
    simp only [hcur, hother, ok_bind]
    rcases other with - | older
    · exact ⟨_, rfl, rfl, rfl, hboth⟩
    · have hlt := hspec older rfl
      have hne : older.generation ≠ manifest.generation := UInt32.ne_of_lt hlt
      simp only [hne, if_false, gt_iff_lt, hlt, if_true]
      exact ⟨_, rfl, rfl, rfl, hboth⟩

theorem LoadedState.candidate_eq (hstate : LoadedState layout cid crypto files slot manifest state)
    (h : ContainerHolds layout cid crypto files slot manifest val) :
    state.candidates slot = some manifest := by
  have hcandidate := (hstate.candidates_eq slot).symm.trans h.candidate
  exact Except.ok.inj hcandidate

theorem LoadedState.framed (hstate : LoadedState layout cid crypto files slot manifest state)
    (i : Fin 2) (candidate : FileObjectManifest) (hi : state.candidates i = some candidate) :
    ∀ object ∈ candidate.objects, ObjectFramed layout cid files object :=
  containerCandidate_framed ((hstate.candidates_eq i).trans (by rw [hi]))

theorem ContainerAbsent.load (hlayout : fileObjectContainerLayoutValid layout = true)
    (h : ContainerAbsent layout cid files) :
    fileObjectContainerLoad layout cid files crypto legacy = .error .fileNotFound := by
  have h0 : fileHasData (files (layout.manifestFid cid 0)) = false := h 0
  have h1 : fileHasData (files (layout.manifestFid cid 1)) = false := h 1
  simp [fileObjectContainerLoad, hlayout, fileObjectContainerLoadWithCrypto, (h 0).candidate,
    (h 1).candidate, h0, h1]

/-! ### Reading -/

theorem mem_of_containerFind {objectType objectTag : UInt16}
    (h : fileObjectContainerFind manifest objectType objectTag = some object) :
    object ∈ manifest.objects ∧ object.key = (objectType, objectTag) :=
  ⟨mem_of_find?_eq_some h, by simpa using find?_some h⟩

theorem RecordHolds.unseal (h : RecordHolds layout cid crypto files manifest object data)
    {capacity : ℕ} (hcap : object.logicalSize.toNat ≤ capacity) :
    fileObjectContainerUnseal layout cid files manifest object crypto.protector capacity =
      .ok data := by
  obtain ⟨policyHash, fid, hpolicy, hfid, hfile⟩ := h.stored
  simp [fileObjectContainerUnseal, hpolicy, hfid, hfile, fileHasData_recordBytes,
    fileObjectRecordUnseal_bytes h.sizes hcap]

/-- A container that holds a manifest validates. -/
theorem ContainerHolds.validate (h : ContainerHolds layout cid crypto files slot manifest val) :
    fileObjectContainerValidate layout cid files manifest crypto.protector = .ok () := by
  refine forM_ok fun object hobject ↦ ?_
  have hrecord := h.records object hobject
  simp [hrecord.unseal le_rfl, hrecord.sizes.length_eq]

theorem ContainerHolds.selectValid (h : ContainerHolds layout cid crypto files slot manifest val)
    (hstate : LoadedState layout cid crypto files slot manifest state) :
    fileObjectContainerSelectValid layout cid files state = .ok state := by
  have hvalidate : fileObjectContainerValidate layout cid files state.current.2
      state.crypto.protector = .ok () := by
    rw [hstate.current_eq, hstate.crypto_eq]
    exact h.validate
  rw [fileObjectContainerSelectValid, hvalidate]

/-- **Reading an object gives its data.** -/
theorem ContainerHolds.read (hlayout : fileObjectContainerLayoutValid layout = true)
    (h : ContainerHolds layout cid crypto files slot manifest val)
    (objectType objectTag : UInt16) {capacity : ℕ}
    (hcap : ∀ object ∈ manifest.objects, object.key = (objectType, objectTag) →
      object.logicalSize.toNat ≤ capacity) :
    fileObjectContainerRead layout cid files objectType objectTag crypto legacy capacity =
      if (manifest.objects.any (·.key == (objectType, objectTag))) then
        .ok (val (objectType, objectTag))
      else
        .error .fileNotFound := by
  obtain ⟨state, hload, hstate⟩ := @ContainerHolds.load _ _ _ legacy _ _ _ _ hlayout h
  simp only [fileObjectContainerRead, hload, ok_bind, hstate.current_eq, hstate.crypto_eq]
  rcases hfind : fileObjectContainerFind manifest objectType objectTag with - | object
  · have hnone : (manifest.objects.any (·.key == (objectType, objectTag))) = false := by
      rw [fileObjectContainerFind, find?_eq_none] at hfind
      rw [any_eq_false]
      exact hfind
    simp [hnone]
  · obtain ⟨hmem, hkey⟩ := mem_of_containerFind hfind
    have hany : (manifest.objects.any (·.key == (objectType, objectTag))) = true := by
      rw [any_eq_true]
      exact ⟨object, hmem, by simp [hkey]⟩
    simp [hany, (h.records object hmem).unseal (hcap object hmem hkey), hkey]

theorem ContainerAbsent.read (hlayout : fileObjectContainerLayoutValid layout = true)
    (h : ContainerAbsent layout cid files) (objectType objectTag : UInt16) (capacity : ℕ) :
    fileObjectContainerRead layout cid files objectType objectTag crypto legacy capacity =
      .error .fileNotFound := by
  simp [fileObjectContainerRead, h.load hlayout]

/-! ### What the records depend on -/

/-- A record is bound to the identity of the container, not to the rest of the manifest. -/
theorem recordBytes_congr (hns : manifest'.namespaceId = manifest.namespaceId)
    (hkind : manifest'.containerKind = manifest.containerKind)
    (hid : manifest'.containerId = manifest.containerId) (object : FileObjectDescriptor)
    (policyHash : Bytes) (protector : FileObjectRecordProtector) (data : Bytes) :
    recordBytes manifest' object policyHash protector data =
      recordBytes manifest object policyHash protector data := by
  simp [recordBytes, recordAad, hns, hkind, hid]

theorem RecordHolds.congr (h : RecordHolds layout cid crypto files manifest object data)
    (hns : manifest'.namespaceId = manifest.namespaceId)
    (hkind : manifest'.containerKind = manifest.containerKind)
    (hid : manifest'.containerId = manifest.containerId)
    (hfiles : ∀ fid, layout.recordFid cid object = .ok fid → files' fid = files fid) :
    RecordHolds layout cid crypto files' manifest' object data := by
  obtain ⟨policyHash, fid, hpolicy, hfid, hfile⟩ := h.stored
  refine ⟨h.valid, h.allocated, h.sizes, policyHash, fid, hpolicy, hfid, ?_⟩
  rw [hfiles fid hfid, hfile, recordBytes_congr hns hkind hid]

theorem ManifestFile.congr (h : ManifestFile layout cid crypto files slot manifest)
    (hfile : files' (layout.manifestFid cid slot) = files (layout.manifestFid cid slot)) :
    ManifestFile layout cid crypto files' slot manifest :=
  { h with file := hfile.trans h.file }

theorem SlotEmpty.congr (h : SlotEmpty layout cid files slot)
    (hfile : files' (layout.manifestFid cid slot) = files (layout.manifestFid cid slot)) :
    SlotEmpty layout cid files' slot := by
  rw [SlotEmpty, hfile]
  exact h

end PicoAll
