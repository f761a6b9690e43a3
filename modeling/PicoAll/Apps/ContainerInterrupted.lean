import PicoAll.Apps.ContainerAtomic

/-!
# What an interrupted update leaves

A layout that numbers its records by slot may write on a record of the committed manifest, so that an
update that is interrupted may take the container with it. It does not bring an older manifest back.
Of the records that the current manifest shares with no older one none is in the target slot
(`ContainerLinked`), so that an update which spoils the current manifest spoils the older one with
it: what is left has manifests, none of which counts (`ContainerDead`). Such a container is neither
read nor written any more.

As elsewhere, no file operation takes effect and reports an error all the same.
-/

namespace PicoAll

open FaultProgram BigEndian List

section Interrupted

variable {layout : FileObjectContainerLayout} {cid : UInt32}
  {crypto : FileObjectContainerCrypto} {legacy : Option FileObjectContainerCrypto}
  {Allowed : FileObjectContainerWrite → Prop} {number : Fin 2 → UInt16 × UInt16 → ℕ}
  {Key : UInt16 × UInt16 → Prop} {current : Option (Fin 2 × FileObjectManifest)}
  {val : UInt16 × UInt16 → Bytes} {files files' : Files}

/-! ### A container that is lost -/

/-- **The container is lost**: there is a manifest, but none of them has all of its records. -/
structure ContainerDead (layout : FileObjectContainerLayout) (cid : UInt32)
    (crypto : FileObjectContainerCrypto) (files : Files) : Prop where
  stored : ∃ slot, ¬SlotEmpty layout cid files slot
  lost : ∀ slot, SlotEmpty layout cid files slot ∨
    ∃ manifest, ManifestFile layout cid crypto files slot manifest ∧
      ∃ object ∈ manifest.objects,
        containerCheckObject layout cid files object = .error .wrongData

variable {manifest : FileObjectManifest} {object : FileObjectDescriptor}

/-- Other keys accept a manifest or find its tag wrong. -/
theorem fileObjectManifestParse_auth {data : Bytes} {auth : FileObjectAuthenticator}
    (h : fileObjectManifestParse data auth = .ok manifest) (auth' : FileObjectAuthenticator) :
    fileObjectManifestParse data auth' = .ok manifest ∨
      fileObjectManifestParse data auth' = .error .wrongSignature := by
  by_cases htag : auth'.tag (data.take (data.length - authTagSize)) =
      data.drop (data.length - authTagSize)
  · left
    unfold fileObjectManifestParse at h ⊢
    simp only [throw_eq_error, error_bind, ne_eq, htag, not_true_eq_false, if_false] at h ⊢
    split_ifs at h ⊢ <;> exact h
  · right
    unfold fileObjectManifestParse at h ⊢
    simp only [throw_eq_error, error_bind, ne_eq, htag, not_false_eq_true, if_true] at h ⊢
    split_ifs at h ⊢ <;> rfl

variable {slot : Fin 2} {fid : ℕ}

/-- A manifest that has lost a record does not count, whatever the keys. -/
theorem ManifestFile.candidate_lost (h : ManifestFile layout cid crypto files slot manifest)
    (hobject : object ∈ manifest.objects)
    (hlost : containerCheckObject layout cid files object = .error .wrongData)
    (auth : FileObjectAuthenticator) :
    containerCandidate layout cid files slot auth = .ok none := by
  have hcheck : forM manifest.objects (containerCheckObject layout cid files) =
      .error .wrongData := by
    refine (forM_cases fun o ho ↦ ?_).resolve_left fun hok ↦ ?_
    · obtain ⟨hvalid, fid, hfid⟩ := h.placed o ho
      exact checkObject_cases hvalid hfid
    · rw [forM_eq_ok hok object hobject] at hlost
      cases hlost
  have hdata : fileHasData (some (manifest.bytes crypto.auth)) = true :=
    fileHasData_some.mpr (bytes_ne_nil manifest crypto.auth)
  rw [containerCandidate, fileObjectContainerParseSlot, h.file]
  rcases fileObjectManifestParse_auth (@fileObjectManifestParse_bytes crypto.auth _ h.built
    h.extensionSize_eq) auth with hparse | hparse
  · simp [hdata, hparse, h.namespaceId_eq, h.containerKind_eq, h.containerId_eq, h.objects_ne,
      hcheck]
  · simp [hdata, hparse]

section

variable (h : ContainerDead layout cid crypto files)
include h

theorem ContainerDead.candidate (slot : Fin 2) (auth : FileObjectAuthenticator) :
    containerCandidate layout cid files slot auth = .ok none := by
  rcases h.lost slot with hempty | ⟨manifest, hfile, object, hobject, hlost⟩
  · exact hempty.candidate auth
  · exact hfile.candidate_lost hobject hlost auth

/-- **A lost container does not load.** -/
theorem ContainerDead.load (hlayout : fileObjectContainerLayoutValid layout = true)
    (legacy : Option FileObjectContainerCrypto) :
    fileObjectContainerLoad layout cid files crypto legacy = .error .wrongData := by
  have hstored : (fileHasData (files (layout.manifestFid cid 0)) ||
      fileHasData (files (layout.manifestFid cid 1))) = true := by
    obtain ⟨slot, hslot⟩ := h.stored
    rw [SlotEmpty, Bool.not_eq_false] at hslot
    fin_cases slot
    · exact Bool.or_eq_true_iff.mpr (.inl hslot)
    · exact Bool.or_eq_true_iff.mpr (.inr hslot)
  have hload (crypto : FileObjectContainerCrypto) :
      fileObjectContainerLoadWithCrypto layout cid files crypto = .error .wrongData := by
    rw [fileObjectContainerLoadWithCrypto, h.candidate, h.candidate]
    simp [hstored]
  rw [fileObjectContainerLoad, hlayout]
  rcases legacy with - | legacy
  · simp [hload]
  · simp [hload]

theorem ContainerDead.read (hlayout : fileObjectContainerLayoutValid layout = true)
    (legacy : Option FileObjectContainerCrypto) (objectType objectTag : UInt16) (capacity : ℕ) :
    fileObjectContainerRead layout cid files objectType objectTag crypto legacy capacity =
      .error .wrongData := by
  rw [fileObjectContainerRead, h.load hlayout, error_bind]

end

/-- **A lost container is not written any more.** -/
theorem ContainerDead.wp_update {A : Outcome → Prop} {s : FsState TxnRam}
    (h : ContainerDead layout cid crypto s.files)
    (hlayout : fileObjectContainerLayoutValid layout = true)
    (writes : List FileObjectContainerWrite) (validateRecords : Bool) :
    wp A (fileObjectContainerUpdateInternal layout cid writes crypto legacy validateRecords)
      (fun _ _ ↦ False) (fun _ s' ↦ s' = s) s := by
  have hstate : containerUpdateState layout cid s.files crypto legacy validateRecords =
      .error .wrongData := by
    rw [containerUpdateState, h.load hlayout]
  refine wp_guard rfl fun _ ↦ wp_get (wp_bind ?_)
  rw [hstate]
  exact wp_fail rfl

/-- It depends on the container's files only. -/
theorem ContainerDead.congr (h : ContainerDead layout cid crypto files)
    (hsame : ∀ fid, ContainerFid layout cid fid → files' fid = files fid) :
    ContainerDead layout cid crypto files' := by
  have hmanifest (slot : Fin 2) : files' (layout.manifestFid cid slot) =
      files (layout.manifestFid cid slot) := hsame _ (.inl ⟨slot, rfl⟩)
  obtain ⟨slot, hslot⟩ := h.stored
  refine ⟨⟨slot, fun hempty ↦ hslot (hempty.congr (hmanifest slot).symm)⟩, fun slot ↦ ?_⟩
  rcases h.lost slot with hempty | ⟨manifest, hfile, object, hobject, hlost⟩
  · exact .inl (hempty.congr (hmanifest slot))
  · refine .inr ⟨manifest, hfile.congr (hmanifest slot), object, hobject, ?_⟩
    obtain ⟨hvalid, fid, hfid⟩ := hfile.placed object hobject
    rw [containerCheckObject, hfid, ok_bind] at hlost ⊢
    rw [hsame fid (.inr ⟨object, hvalid, hfid⟩)]
    exact hlost

/-! ### What an update writes -/

/-- The record of an object is as it was, or it does not pass for the object's any more. -/
def KeptOrLost (layout : FileObjectContainerLayout) (cid : UInt32) (files files' : Files)
    (object : FileObjectDescriptor) : Prop :=
  (∀ fid, layout.recordFid cid object = .ok fid → files' fid = files fid) ∨
    containerCheckObject layout cid files' object = .error .wrongData

/-- The objects are those of the current manifest, and new ones in the files of the slot. -/
def PlacedIn (layout : FileObjectContainerLayout) (cid : UInt32)
    (number : Fin 2 → UInt16 × UInt16 → ℕ) (current : Option (Fin 2 × FileObjectManifest))
    (objects : List FileObjectDescriptor) : Prop :=
  ∀ object ∈ objects, object ∈ currentObjects current ∨
    layout.recordFid cid object = .ok (number (targetSlot current) object.key)

/-- What an update does to the container's files, wherever it stops: the records of the current
manifest are kept or lost, a newer manifest in the target slot has its new records there, and the
current manifest is at most deleted. -/
structure UpdateStep (layout : FileObjectContainerLayout) (cid : UInt32)
    (crypto : FileObjectContainerCrypto) (number : Fin 2 → UInt16 × UInt16 → ℕ)
    (current : Option (Fin 2 × FileObjectManifest)) (files files' : Files) : Prop where
  record : ∀ object ∈ currentObjects current, KeptOrLost layout cid files files' object
  manifest : ∀ next, ManifestFile layout cid crypto files' (targetSlot current) next →
    currentGeneration current < next.generation →
      PlacedIn layout cid number current next.objects
  other : files' (layout.manifestFid cid (targetSlot current).rev) =
      files (layout.manifestFid cid (targetSlot current).rev) ∨
    files' (layout.manifestFid cid (targetSlot current).rev) = none

theorem containerCheckObject_congr
    (hfile : ∀ fid, layout.recordFid cid object = .ok fid → files' fid = files fid) :
    containerCheckObject layout cid files' object =
      containerCheckObject layout cid files object := by
  rw [containerCheckObject, containerCheckObject]
  rcases hfid : layout.recordFid cid object with r | fid
  · simp
  · simp only [ok_bind]
    rw [hfile fid hfid]

/-- A record without data passes for none. -/
theorem checkObject_blank (hvalid : layout.descriptorValid cid object = true)
    (hfid : layout.recordFid cid object = .ok fid) (hblank : fileHasData (files fid) = false) :
    containerCheckObject layout cid files object = .error .wrongData := by
  refine (checkObject_cases hvalid hfid).resolve_left fun hok ↦ ?_
  rw [containerCheckObject, hfid, ok_bind, hvalid] at hok
  rcases hfile : files fid with - | record
  · simp [hfile] at hok
  · rw [hfile] at hblank
    simp [hfile, hblank] at hok

theorem ContainerIs.recordHolds (h : ContainerIs layout cid crypto files val current)
    (hobject : object ∈ currentObjects current) :
    ∃ manifest, RecordHolds layout cid crypto files manifest object (val object.key) := by
  rcases current with - | ⟨slot, manifest⟩
  · cases hobject
  · exact ⟨manifest, ContainerHolds.records h object hobject⟩

theorem ContainerIs.descriptorValid (h : ContainerIs layout cid crypto files val current)
    (hobject : object ∈ currentObjects current) : layout.descriptorValid cid object = true :=
  have ⟨_, hrecord⟩ := h.recordHolds hobject
  hrecord.valid

/-- Two manifests in one file are one manifest. -/
theorem ManifestFile.unique {manifest' : FileObjectManifest}
    (h : ManifestFile layout cid crypto files slot manifest)
    (h' : ManifestFile layout cid crypto files slot manifest') : manifest = manifest' := by
  have hbytes : manifest.bytes crypto.auth = manifest'.bytes crypto.auth :=
    Option.some.inj (h.file.symm.trans h'.file)
  have hparse := @fileObjectManifestParse_bytes crypto.auth _ h.built h.extensionSize_eq
  rw [hbytes, fileObjectManifestParse_bytes h'.built h'.extensionSize_eq] at hparse
  exact (Except.ok.inj hparse).symm

theorem ManifestFile.not_empty (h : ManifestFile layout cid crypto files slot manifest) :
    ¬SlotEmpty layout cid files slot := by
  rw [SlotEmpty, h.file, Bool.not_eq_false]
  exact fileHasData_some.mpr (bytes_ne_nil manifest crypto.auth)

theorem UpdateStep.refl (h : ContainerIs layout cid crypto files val current) :
    UpdateStep layout cid crypto number current files files := by
  refine ⟨fun _ _ ↦ .inl fun _ _ ↦ rfl, fun next hnext hlt ↦ ?_, .inl rfl⟩
  rcases current with - | ⟨slot, manifest⟩
  · exact absurd (h _) hnext.not_empty
  · rcases ContainerHolds.other h with hempty | ⟨older, holder, hlt'⟩
    · exact absurd hempty hnext.not_empty
    · cases ManifestFile.unique hnext holder
      exact absurd hlt (UInt32.not_lt.mpr (UInt32.le_of_lt hlt'))

section

variable (h : UpdateStep layout cid crypto number current files files')
include h

theorem UpdateStep.congr {files'' : Files}
    (hcurrent : ContainerIs layout cid crypto files val current)
    (hsame : ∀ fid, ContainerFid layout cid fid → files'' fid = files' fid) :
    UpdateStep layout cid crypto number current files files'' := by
  have hmanifest (slot : Fin 2) : files'' (layout.manifestFid cid slot) =
      files' (layout.manifestFid cid slot) := hsame _ (.inl ⟨slot, rfl⟩)
  refine ⟨fun object hobject ↦ ?_, fun next hnext ↦ h.manifest next (hnext.congr (hmanifest _).symm),
    by rw [hmanifest]; exact h.other⟩
  have hrecord (fid : ℕ) (hfid : layout.recordFid cid object = .ok fid) :
      files'' fid = files' fid := hsame fid (hcurrent.containerFid ⟨object, hobject, hfid⟩)
  rcases h.record object hobject with hkept | hlost
  · exact .inl fun fid hfid ↦ (hrecord fid hfid).trans (hkept fid hfid)
  · exact .inr ((containerCheckObject_congr hrecord).trans hlost)

/-- One file is written. -/
theorem UpdateStep.set {c : Option Bytes}
    (hrecord : ∀ object ∈ currentObjects current, layout.recordFid cid object = .ok fid →
      containerCheckObject layout cid (files'.set fid c) object = .error .wrongData)
    (hmanifest : fid = layout.manifestFid cid (targetSlot current) →
      ∀ next, ManifestFile layout cid crypto (files'.set fid c) (targetSlot current) next →
      PlacedIn layout cid number current next.objects)
    (hother : fid = layout.manifestFid cid (targetSlot current).rev → c = none) :
    UpdateStep layout cid crypto number current files (files'.set fid c) := by
  refine ⟨fun object hobject ↦ ?_, fun next hnext hlt ↦ ?_, ?_⟩
  · by_cases hfid : layout.recordFid cid object = .ok fid
    · exact .inr (hrecord object hobject hfid)
    · have hsame (f : ℕ) (hf : layout.recordFid cid object = .ok f) :
          files'.set fid c f = files' f := Files.set_of_ne _ _ fun heq ↦ hfid (heq ▸ hf)
      rcases h.record object hobject with hkept | hlost
      · exact .inl fun f hf ↦ (hsame f hf).trans (hkept f hf)
      · exact .inr ((containerCheckObject_congr hsame).trans hlost)
  · by_cases hfid : fid = layout.manifestFid cid (targetSlot current)
    · exact hmanifest hfid next hnext
    · exact h.manifest next (hnext.congr (Files.set_of_ne _ _ (Ne.symm hfid)).symm) hlt
  · by_cases hfid : fid = layout.manifestFid cid (targetSlot current).rev
    · rw [← hfid, Files.set_self]
      exact .inr (hother hfid)
    · rw [Files.set_of_ne _ _ (Ne.symm hfid)]
      exact h.other

/-- A file is emptied. -/
theorem UpdateStep.blank {c : Option Bytes}
    (hcurrent : ContainerIs layout cid crypto files val current) (hc : fileHasData c = false)
    (hother : fid = layout.manifestFid cid (targetSlot current).rev → c = none) :
    UpdateStep layout cid crypto number current files (files'.set fid c) := by
  refine h.set (fun object hobject hfid ↦ ?_) (fun hfid next hnext ↦ ?_) hother
  · refine checkObject_blank (hcurrent.descriptorValid hobject) hfid ?_
    rw [Files.set_self, hc]
  · refine absurd ?_ hnext.not_empty
    rw [SlotEmpty, ← hfid, Files.set_self, hc]

theorem UpdateStep.delete (hcurrent : ContainerIs layout cid crypto files val current) :
    UpdateStep layout cid crypto number current files (files'.set fid none) :=
  h.blank hcurrent rfl fun _ ↦ rfl

end

/-! ### Writing the records -/

section Numbered

variable (h : SlotNumbering layout cid Allowed number Key) {A : Outcome → Prop}
  {s : FsState TxnRam}

theorem generation_eq_of_headerParse {record : Bytes} {object : FileObjectDescriptor}
    (hparse : fileObjectRecordHeaderParse record object = .ok ()) :
    beField record 24 4 = object.generation.toNat := by
  rw [fileObjectRecordHeaderParse] at hparse
  split_ifs at hparse with _ _ hfields
  by_contra hne
  exact hfields (by tauto)

/-- The record of another generation does not pass for an object's. -/
theorem checkObject_generation {object written : FileObjectDescriptor} {data : Bytes} {fid : ℕ}
    {manifest : FileObjectManifest} {policyHash : Bytes}
    (hvalid : layout.descriptorValid cid object = true)
    (hfid : layout.recordFid cid object = .ok fid) (hsizes : RecordSizes written data)
    (hfile : files fid = some (recordBytes manifest written policyHash crypto.protector data))
    (hne : written.generation ≠ object.generation) :
    containerCheckObject layout cid files object = .error .wrongData := by
  refine (checkObject_cases hvalid hfid).resolve_left fun hok ↦ hne ?_
  obtain ⟨fid', record, hfid', hfile', hparse⟩ := (checkObject_framed hok).framed
  rw [hfid] at hfid'
  cases hfid'
  rw [hfile] at hfile'
  cases hfile'
  rw [← UInt32.toNat_inj, ← generation_eq_of_headerParse hparse,
    ← generation_eq_of_headerParse (recordHeaderParse_bytes hsizes)]

include h in
/-- An object whose record is in a numbered file has the key of the number. -/
theorem SlotNumbering.key_of_recordFid (hcurrent : ContainerIs layout cid crypto files val
    current) {object : FileObjectDescriptor} (hobject : object ∈ currentObjects current)
    {slot : Fin 2} {key : UInt16 × UInt16} (hkey : Key key)
    (hfid : layout.recordFid cid object = .ok (number slot key)) : object.key = key := by
  obtain ⟨manifest, hrecord⟩ := hcurrent.recordHolds hobject
  obtain ⟨hkey', slot', hnumber⟩ := h.recordId_of_allocated hrecord.allocated
  have hid := h.recordFid object _ hrecord.valid hfid
  exact (h.number_inj slot slot' key object.key hkey hkey' (hid.trans hnumber)).symm

variable {next : FileObjectManifest} {writes : List FileObjectContainerWrite}

include h in
/-- Writing one record, of a generation that the current object does not have. -/
theorem wp_writeRecord_step (spec : ContainerLayoutSpec layout cid Allowed)
    (hcurrent : ContainerIs layout cid crypto files val current)
    {write : FileObjectContainerWrite} (hallowed : Allowed write)
    (hvalid : layout.writeValid write = true) {generation : UInt32}
    (hnew : ∀ object ∈ currentObjects current, object.key = write.key → generation ≠ object.generation)
    (hs : UpdateStep layout cid crypto number current files s.files) :
    wp A (fileObjectContainerWriteRecord layout cid (targetSlot current) write generation next
        crypto)
      (fun r s' ↦ UpdateStep layout cid crypto number current files s'.files ∧ r.1.key = write.key ∧
        layout.recordFid cid r.1 = .ok (number (targetSlot current) write.key))
      (fun _ s' ↦ UpdateStep layout cid crypto number current files s'.files) s := by
  have hkey := h.key_of_writeValid write hvalid
  obtain ⟨hdescriptor, hrecordFid⟩ := h.accepts (targetSlot current) write generation hallowed hvalid
  have hmanifest (slot : Fin 2) : number (targetSlot current) write.key ≠
      layout.manifestFid cid slot := spec.record_ne_manifest _ _ slot hdescriptor hrecordFid
  unfold fileObjectContainerWriteRecord
  rw [h.allocate _ _ _ hkey]
  refine wp_bind (wp_pure (wp_lift (fun policyHash _ ↦ ?_) fun _ _ ↦ hs))
  refine wp_guard hs fun _ ↦ ?_
  refine wp_lift (fun record hrecord ↦ ?_) fun _ _ ↦ hs
  rw [fileObjectRecordSeal_eq_ok] at hrecord
  obtain ⟨hlength, hstored, hcore, rfl⟩ := hrecord
  have hwritten : UpdateStep layout cid crypto number current files
      (s.files.set (number (targetSlot current) write.key) (some (recordBytes next
        (write.descriptor generation (.ofNat (number (targetSlot current) write.key))) policyHash
        crypto.protector write.data))) := by
    refine hs.set (fun object hobject hfid ↦ ?_) (fun heq ↦ absurd heq (hmanifest _))
      fun heq ↦ absurd heq (hmanifest _)
    exact checkObject_generation (hcurrent.descriptorValid hobject) hfid ⟨hcore, hlength, hstored⟩
      (Files.set_self ..) (hnew object hobject (h.key_of_recordFid hcurrent hobject hkey hfid))
  have hblank {c : Option Bytes} (hc : fileHasData c = false) :=
    hs.blank hcurrent hc fun heq ↦ absurd heq (hmanifest _)
  refine wp_bind (wp_fileObjectContainerReplaceFile (wp_pure ⟨hwritten, rfl, hrecordFid⟩)
    fun e _ c hc ↦ ?_)
  rcases hc with rfl | rfl | rfl | ⟨-, rfl⟩
  · rw [FsState.setFile_get]
    exact hs
  · exact hblank rfl
  · exact hblank rfl
  · exact hwritten

include h in
/-- **Writing all the records**, by induction on the writes that are left. The objects whose keys are
still to be written are those of the current manifest. -/
theorem wp_writeRecords_step (spec : ContainerLayoutSpec layout cid Allowed)
    (hcurrent : ContainerIs layout cid crypto files val current) {base : FileObjectManifest}
    (writes : List FileObjectContainerWrite) :
    ∀ {earlier : List FileObjectContainerWrite} {next : FileObjectManifest}
      {newRecordFids : List ℕ} {s : FsState TxnRam},
    (∀ write ∈ writes, Allowed write) →
    UpdateStep layout cid crypto number current files s.files →
    next = { base with objects := next.objects } →
    PlacedIn layout cid number current next.objects →
    (next.objects.map (·.key)).Nodup →
    (∀ object ∈ currentObjects current, (∀ write ∈ earlier, write.key ≠ object.key) →
      object ∈ next.objects) →
    wp A (containerWriteRecords layout cid (targetSlot current) crypto earlier writes next
        newRecordFids)
      (fun r s' ↦ UpdateStep layout cid crypto number current files s'.files ∧
        r.1 = { base with objects := r.1.objects } ∧
        PlacedIn layout cid number current r.1.objects)
      (fun _ s' ↦ UpdateStep layout cid crypto number current files s'.files) s := by
  have habort {α : Type} {fids : List ℕ} {r : Status} {s' : FsState TxnRam}
      {Q : α → FsState TxnRam → Prop}
      (hs' : UpdateStep layout cid crypto number current files s'.files) :
      wp A (containerAbort layout fids r : FsProg TxnRam α) Q
        (fun _ s' ↦ UpdateStep layout cid crypto number current files s'.files) s' :=
    wp_containerAbort (I := fun s' ↦ UpdateStep layout cid crypto number current files
      s'.files) hs' (fun _ hs'' _ _ ↦ hs''.delete hcurrent) (fun _ h ↦ h) fun _ _ h ↦ h
  induction writes with
  | nil => exact fun _ hs hbase hplaced _ _ ↦ wp_pure ⟨hs, hbase, hplaced⟩
  | cons write writes ih =>
    intro earlier next newRecordFids s hallowed hs hbase hplaced hnodup hold
    refine wp_ite (fun _ ↦ wp_bind (habort hs)) fun hpassed ↦ ?_
    rw [Bool.or_eq_true, containerWriteRefused, Bool.or_eq_true, Bool.or_eq_true, not_or, not_or,
      not_or] at hpassed
    obtain ⟨⟨⟨-, hvalid⟩, hdup⟩, -⟩ := hpassed
    replace hvalid : layout.writeValid write = true := by simpa using hvalid
    have hearlier : ∀ w ∈ earlier, w.key ≠ write.key := by
      intro w hw hkey
      exact hdup (any_eq_true.mpr ⟨w, hw, by simpa using hkey⟩)
    have hnew : ∀ object ∈ currentObjects current, object.key = write.key →
        nextObjectGeneration (fileObjectContainerFind next write.objectType write.objectTag) ≠
          object.generation := by
      intro object hobject hkey
      have hmem := hold object hobject (by rwa [hkey])
      have hfind : fileObjectContainerFind next write.objectType write.objectTag = some object := by
        rcases hfound : fileObjectContainerFind next write.objectType write.objectTag with - | found
        · rw [fileObjectContainerFind, find?_eq_none] at hfound
          exact absurd (beq_iff_eq.mpr hkey) (hfound object hmem)
        · obtain ⟨hfoundMem, hfoundKey⟩ := mem_of_containerFind hfound
          rw [inj_on_of_nodup_map hnodup hfoundMem hmem (hfoundKey.trans hkey.symm)]
      rw [hfind]
      show object.generation + 1 ≠ object.generation
      simp
    refine wp_bind (wp_onError (wp_mono (wp_writeRecord_step h spec hcurrent
      (hallowed write (mem_cons_self ..)) hvalid hnew hs) ?_ ?_))
    · rintro ⟨replacement, recordFid⟩ s₁ ⟨hs₁, hkey, hfid⟩
      refine wp_ite (fun _ ↦ wp_bind (habort hs₁)) fun _ ↦ ih
        (fun w hw ↦ hallowed w (mem_cons_of_mem _ hw)) hs₁ ?_ ?_
        (nodup_key_placeObject hnodup) ?_
      · conv_lhs => rw [hbase]
      · intro object hobject
        rcases (mem_placeObject hnodup).mp hobject with rfl | ⟨hmem, -⟩
        · exact .inr (hkey ▸ hfid)
        · exact hplaced object hmem
      · intro object hobject hne
        have hne' : object.key ≠ write.key := Ne.symm (hne write (by simp))
        refine (mem_placeObject hnodup).mpr (.inr ⟨hold object hobject fun w hw ↦
          hne w (mem_append_left _ hw), ?_⟩)
        rw [hkey]
        exact hne'
    · rintro (r | -) s₁ hs₁
      · exact habort hs₁
      · exact hs₁

include h in
/-- **An update is a step**, wherever it stops, if the clean-up after it only deletes. -/
theorem wp_update_step (spec : ContainerLayoutSpec layout cid Allowed)
    (hretire : ∀ (I : FsState TxnRam → Prop), (∀ s fid, I s → I (s.setFile fid none)) →
      ∀ candidates next currentSlot targetSlot,
      Preserves I (layout.retire cid candidates next currentSlot targetSlot))
    (hcurrent : ContainerIs layout cid crypto s.files val current)
    (hwrites : ∀ write ∈ writes, Allowed write) (validateRecords : Bool) :
    wp A (fileObjectContainerUpdateInternal layout cid writes crypto legacy validateRecords)
      (fun _ s' ↦ UpdateStep layout cid crypto number current s.files s'.files)
      (fun _ s' ↦ UpdateStep layout cid crypto number current s.files s'.files) s := by
  have hrefl : UpdateStep layout cid crypto number current s.files s.files := .refl hcurrent
  refine wp_guard hrefl fun _ ↦ wp_get ?_
  obtain ⟨state, hstate, hstart⟩ :=
    @ContainerIs.updateState _ _ _ legacy _ _ _ spec.valid hcurrent validateRecords
  rw [hstate]
  refine wp_bind (wp_pure ?_)
  simp only [hstart.crypto_eq, hstart.slot_eq, hstart.manifest_eq]
  refine wp_lift (fun base hbase ↦ ?_) fun _ _ ↦ hrefl
  have hnext := hcurrent.nextBase hbase
  refine wp_then (wp_writeRecords_step h spec hcurrent writes hwrites hrefl rfl
    (fun object hobject ↦ .inl (hnext.objects_eq ▸ hobject))
    (by rw [hnext.objects_eq]; exact hcurrent.nodup)
    fun object hobject _ ↦ hnext.objects_eq ▸ hobject) ?_
  rintro ⟨unsorted, newRecordFids⟩ s₁ ⟨hs₁, hunsorted, hplaced⟩
  obtain ⟨next, hnextDef⟩ : ∃ next, next = { unsorted with
    objects := unsorted.objects.insertionSort keyLe } := ⟨_, rfl⟩
  simp only [← hnextDef]
  have hextension : next.extensionSize = 0 := by
    replace hunsorted : unsorted = { base with objects := unsorted.objects } := hunsorted
    rw [hnextDef, hunsorted]
    exact hnext.extensionSize_eq
  have hplaced' : PlacedIn layout cid number current next.objects := by
    intro object hobject
    rw [hnextDef] at hobject
    exact hplaced object ((mem_insertionSort _).mp hobject)
  have habort {r : Status} {Q : Unit → FsState TxnRam → Prop} {s₂ : FsState TxnRam}
      (hs₂ : UpdateStep layout cid crypto number current s.files s₂.files) :
      wp A (containerAbort layout newRecordFids r) Q
        (fun _ s' ↦ UpdateStep layout cid crypto number current s.files s'.files) s₂ :=
    wp_containerAbort (I := fun s' ↦ UpdateStep layout cid crypto number current s.files
      s'.files) hs₂ (fun _ hs' _ _ ↦ hs'.delete hcurrent) (fun _ h ↦ h) fun _ _ h ↦ h
  refine wp_bind (wp_onError (wp_lift (fun bytes hbytes ↦ ?_) fun _ _ ↦ habort hs₁))
  obtain ⟨hbuilt, rfl⟩ := fileObjectManifestBuild_eq_ok.mp hbytes
  have hcommit : UpdateStep layout cid crypto number current s.files
      (s₁.files.set (layout.manifestFid cid (targetSlot current))
        (some (next.bytes crypto.auth))) := by
    refine hs₁.set (fun object hobject hfid ↦ ?_) (fun _ next' hnext' ↦ ?_) fun heq ↦ ?_
    · exact absurd rfl (spec.record_ne_manifest object _ _ (hcurrent.descriptorValid hobject) hfid)
    · have heq : next'.bytes crypto.auth = next.bytes crypto.auth := by
        have hfile := hnext'.file
        rw [Files.set_self] at hfile
        exact (Option.some.inj hfile).symm
      have hparse := @fileObjectManifestParse_bytes crypto.auth _ hnext'.built
        hnext'.extensionSize_eq
      rw [heq, fileObjectManifestParse_bytes hbuilt hextension] at hparse
      cases Except.ok.inj hparse
      exact hplaced'
    · exact absurd heq (spec.manifest_ne _).symm
  refine wp_fileObjectContainerReplaceFile ?_ fun e _ c hc ↦ ?_
  · refine wp_seq (spec.activate A _) (fun _ s₂ hs₂ ↦ ?_) fun _ s₂ hs₂ ↦ hcommit.congr hcurrent hs₂
    exact wp_mono (hretire (fun s' ↦ UpdateStep layout cid crypto number current s.files
      s'.files) (fun _ _ hs' ↦ hs'.delete hcurrent) _ _ _ _ A s₂ (hcommit.congr hcurrent hs₂))
      (fun _ _ h ↦ h.1) fun _ _ h ↦ h
  · have hstopped : UpdateStep layout cid crypto number current s.files
        (s₁.setFile (layout.manifestFid cid (targetSlot current)) c).files := by
      rcases hc with rfl | rfl | rfl | ⟨-, rfl⟩
      · rw [FsState.setFile_get]
        exact hs₁
      · exact hs₁.delete hcurrent
      · exact hs₁.blank hcurrent rfl fun heq ↦ absurd heq (spec.manifest_ne _).symm
      · exact hcommit
    cases e with
    | code r => exact habort hstopped
    | cut => exact hstopped

/-! ### The link to the older manifest -/

/-- **A container and the manifest before**: those of its objects that the older manifest does not
name have their records in the files of the current slot. -/
structure ContainerLinked (layout : FileObjectContainerLayout) (cid : UInt32)
    (crypto : FileObjectContainerCrypto) (number : Fin 2 → UInt16 × UInt16 → ℕ) (files : Files)
    (val : UInt16 × UInt16 → Bytes) (current : Option (Fin 2 × FileObjectManifest)) : Prop where
  is : ContainerIs layout cid crypto files val current
  linked : ∀ slot manifest older, current = some (slot, manifest) →
    ManifestFile layout cid crypto files slot.rev older → ∀ object ∈ manifest.objects,
      object ∈ older.objects ∨ layout.recordFid cid object = .ok (number slot object.key)

/-- The call took place, and the next manifest is linked to the one there was. -/
def LinkedCommit (layout : FileObjectContainerLayout) (cid : UInt32)
    (crypto : FileObjectContainerCrypto) (number : Fin 2 → UInt16 × UInt16 → ℕ)
    (current : Option (Fin 2 × FileObjectManifest)) (val : UInt16 × UInt16 → Bytes)
    (call : ContainerCall) (files : Files) : Prop :=
  ∃ val' next, CallCommitted layout cid crypto current val call files val' next ∧
    ContainerLinked layout cid crypto number files val' (some (targetSlot current, next))

theorem rev_targetSlot (slot : Fin 2) (manifest : FileObjectManifest) :
    (targetSlot (some (slot, manifest))).rev = slot :=
  Fin.rev_rev slot

theorem UpdateStep.linked {call : ContainerCall} {val' : UInt16 × UInt16 → Bytes}
    (hstep : UpdateStep layout cid crypto number current files files')
    (hcurrent : ContainerIs layout cid crypto files val current)
    (hcommitted : CallCommitted layout cid crypto current val call files' val' next) :
    LinkedCommit layout cid crypto number current val call files' := by
  refine ⟨val', next, hcommitted, hcommitted.holds, ?_⟩
  rintro slot manifest older ⟨⟩ holder object hobject
  have hlt : currentGeneration current < next.generation := by
    rw [UInt32.lt_iff_toNat_lt, hcommitted.generation_eq]
    exact Nat.lt_succ_self _
  have hplaced := hstep.manifest next (ContainerHolds.manifestFile hcommitted.holds) hlt object
    hobject
  refine hplaced.imp_left fun hmem ↦ ?_
  rcases current with - | ⟨slot, manifest⟩
  · cases hmem
  · rcases hstep.other with hsame | hnone
    · rw [rev_targetSlot] at hsame holder
      have hfile := (ContainerHolds.manifestFile hcurrent).congr hsame
      rw [holder.unique hfile]
      exact hmem
    · refine absurd ?_ holder.not_empty
      rw [SlotEmpty, hnone]
      rfl

include h in
/-- **An update** takes place, or leaves the container as it was, or takes it with it. -/
theorem wp_update_linked (spec : ContainerLayoutSpec layout cid Allowed)
    (hslots : ∀ slot key, Key key → number slot key ≠ number slot.rev key)
    (hretire : ∀ (I : FsState TxnRam → Prop), (∀ s fid, I s → I (s.setFile fid none)) →
      ∀ candidates next currentSlot targetSlot,
      Preserves I (layout.retire cid candidates next currentSlot targetSlot))
    (hlinked : ContainerLinked layout cid crypto number s.files val current)
    (hwrites : ∀ write ∈ writes, Allowed write) (validateRecords : Bool) :
    wp A (fileObjectContainerUpdateInternal layout cid writes crypto legacy validateRecords)
      (fun _ s' ↦ LinkedCommit layout cid crypto number current val
        (.update writes validateRecords) s'.files)
      (fun _ s' ↦ ¬A .late → ContainerLinked layout cid crypto number s'.files val current ∨
        ContainerDead layout cid crypto s'.files ∨
        LinkedCommit layout cid crypto number current val (.update writes validateRecords)
          s'.files) s := by
  have hcurrent := hlinked.is
  obtain ⟨keep, hkeepDef⟩ : ∃ keep : ℕ → Prop, keep = fun fid ↦ ∃ object ∈ currentObjects current,
      layout.recordFid cid object = .ok fid ∧
        fid = number (targetSlot current).rev object.key := ⟨_, rfl⟩
  have hkeep : ∀ fid, keep fid → ContainerFid layout cid fid := by
    rw [hkeepDef]
    rintro fid ⟨object, hobject, hfid, -⟩
    exact hcurrent.containerFid ⟨object, hobject, hfid⟩
  have hfresh : CallFresh layout cid crypto keep current s.files
      (.update writes validateRecords) := by
    refine h.callFresh fun write _ hvalid ↦ ?_
    rw [hkeepDef]
    rintro ⟨object, hobject, hfid, hnumber⟩
    have hkey := h.key_of_writeValid write hvalid
    have heq := h.key_of_recordFid hcurrent hobject hkey hfid
    rw [heq] at hnumber
    exact hslots _ _ hkey hnumber
  have hcall := @wp_containerCall _ _ crypto legacy val current _ spec A keep s _ hkeep hcurrent
    (.update writes validateRecords) hwrites hfresh spec.cleanupOk
  have hstep := @wp_update_step _ _ crypto legacy _ number Key current val h A s writes spec hretire
    hcurrent hwrites validateRecords
  refine wp_mono (wp_and hcall hstep) ?_ ?_
  · rintro - s' ⟨⟨val', next, hcommitted, -⟩, hs'⟩
    exact hs'.linked hcurrent hcommitted
  · rintro e s' ⟨hstopped, hs'⟩ hlate
    rcases hstopped hlate with hstopped | ⟨val', next, hcommitted⟩
    · by_cases hall : ∀ object ∈ currentObjects current, ∀ fid,
          layout.recordFid cid object = .ok fid → s'.files fid = s.files fid
      · -- nothing is lost
        have hstopped' : UpdateStopped layout cid (CurrentRecord layout cid current) current s s' :=
          ⟨fun fid hfid _ ↦ hfid.elim fun object h ↦ hall object h.1 fid h.2, hstopped.current_eq,
            hstopped.target⟩
        refine .inl ⟨hstopped'.containerIs spec hcurrent, ?_⟩
        rintro slot manifest older rfl holder
        rcases hstopped.target with hsame | hempty
        · exact hlinked.linked slot manifest older rfl (holder.congr hsame.symm)
        · exact absurd hempty holder.not_empty
      · -- a record is lost, to the older manifest as well
        right; left
        push Not at hall
        obtain ⟨object, hobject, fid, hfid, hchanged⟩ := hall
        have hlost := (hs'.record object hobject).resolve_left fun hkept ↦
          hchanged (hkept fid hfid)
        rcases current with - | ⟨slot, manifest⟩
        · cases hobject
        have hfile : ManifestFile layout cid crypto s'.files slot manifest := by
          refine (ContainerHolds.manifestFile hcurrent).congr ?_
          have hsame := hstopped.current_eq
          rwa [rev_targetSlot] at hsame
        refine ⟨⟨slot, hfile.not_empty⟩, fun i ↦ ?_⟩
        by_cases hi : i = slot
        · exact .inr ⟨manifest, hi ▸ hfile, object, hobject, hlost⟩
        · rw [eq_rev_of_ne i slot hi]
          rcases hstopped.target with hsame | hempty
          · rcases ContainerHolds.other hcurrent with hempty | ⟨older, holder, -⟩
            · exact .inl (hempty.congr hsame)
            · refine .inr ⟨older, holder.congr hsame, object, ?_, hlost⟩
              refine (hlinked.linked slot manifest older rfl holder object hobject).resolve_right
                fun hnumber ↦ hchanged ?_
              refine hstopped.kept fid ?_ fun i ↦ spec.record_ne_manifest object fid i
                (hcurrent.descriptorValid hobject) hfid
              rw [hkeepDef]
              refine ⟨object, hobject, hfid, ?_⟩
              rw [hfid] at hnumber
              rw [rev_targetSlot]
              exact Except.ok.inj hnumber
          · exact .inl hempty
    · exact .inr (.inr (hs'.linked hcurrent hcommitted))

end Numbered

end Interrupted

end PicoAll
