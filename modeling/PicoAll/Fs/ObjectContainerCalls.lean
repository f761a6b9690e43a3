import PicoAll.Fs.ObjectContainerCommit

/-!
# The calls that change a container

One rule for each of `file_object_container_update_internal`, `file_object_container_remove` and
`file_object_container_delete`: what the container is at afterwards if the call succeeds, and what
is left if it stops. An early stop comes with its reason, so that an undisturbed call whose
arguments are in order is known to succeed.
-/

namespace PicoAll

open FaultProgram BigEndian ContainerHolds List

variable {layout : FileObjectContainerLayout} {cid : UInt32}
  {crypto : FileObjectContainerCrypto} {legacy : Option FileObjectContainerCrypto}
  {Allowed : FileObjectContainerWrite → Prop}
  (spec : ContainerLayoutSpec layout cid Allowed) {A : Outcome → Prop} {P : Prop}
  {keep : ℕ → Prop} {current : Option (Fin 2 × FileObjectManifest)}
  {val : UInt16 × UInt16 → Bytes} {s : FsState TxnRam}

/-- The call stopped before its commit: the protected records and the current manifest are as they
were, and the target slot is as it was or empty. -/
structure UpdateStopped (layout : FileObjectContainerLayout) (cid : UInt32)
    (keep : ℕ → Prop) (current : Option (Fin 2 × FileObjectManifest)) (s s' : FsState TxnRam) :
    Prop where
  kept : ∀ fid, keep fid → (∀ slot, fid ≠ layout.manifestFid cid slot) →
    s'.files fid = s.files fid
  current_eq : s'.files (layout.manifestFid cid (targetSlot current).rev) =
    s.files (layout.manifestFid cid (targetSlot current).rev)
  target : s'.files (layout.manifestFid cid (targetSlot current)) =
      s.files (layout.manifestFid cid (targetSlot current)) ∨
    SlotEmpty layout cid s'.files (targetSlot current)

theorem UpdateStopped.refl (layout : FileObjectContainerLayout) (cid : UInt32)
    (keep : ℕ → Prop) (current : Option (Fin 2 × FileObjectManifest)) (s : FsState TxnRam) :
    UpdateStopped layout cid keep current s s :=
  ⟨fun _ _ _ ↦ rfl, rfl, .inl rfl⟩

/-- The records of the current manifest. -/
def CurrentRecord (layout : FileObjectContainerLayout) (cid : UInt32)
    (current : Option (Fin 2 × FileObjectManifest)) (fid : ℕ) : Prop :=
  ∃ object ∈ currentObjects current, layout.recordFid cid object = .ok fid

include spec in
/-- **A call that stopped before its commit**, with the records of the current manifest protected,
leaves the container at what it was. -/
theorem UpdateStopped.containerIs {s' : FsState TxnRam}
    (hcurrent : ContainerIs layout cid crypto s.files val current)
    (h : UpdateStopped layout cid (CurrentRecord layout cid current) current s s') :
    ContainerIs layout cid crypto s'.files val current := by
  rcases current with - | ⟨slot, manifest⟩
  · -- no container: both slots are empty, and stay so
    have htarget : SlotEmpty layout cid s'.files 0 := by
      rcases h.target with hsame | hempty
      · exact SlotEmpty.congr (hcurrent 0) hsame
      · exact hempty
    intro slot
    by_cases hslot : slot = 0
    · exact hslot ▸ htarget
    · rw [eq_rev_of_ne slot 0 hslot]
      exact SlotEmpty.congr (hcurrent _) h.current_eq
  · have hrev : (targetSlot (some (slot, manifest))).rev = slot := by
      simp [targetSlot, containerTargetSlot]
    have hmanifest := h.current_eq
    rw [hrev] at hmanifest
    refine ⟨(manifestFile hcurrent).congr hmanifest, fun object hobject ↦ ?_, ?_⟩
    · have hrecord := records hcurrent object hobject
      refine hrecord.congr rfl rfl rfl fun fid hfid ↦ ?_
      exact h.kept fid ⟨object, hobject, hfid⟩ fun i ↦
        spec.record_ne_manifest object fid i hrecord.valid hfid
    · rcases h.target with hsame | hempty
      · rcases other hcurrent with hempty | ⟨older, hfile, hlt⟩
        · exact .inl (hempty.congr hsame)
        · exact .inr ⟨older, hfile.congr hsame, hlt⟩
      · exact .inl hempty

/-- What an update's clean-up finds: a record file is one there was before or one the next manifest
names. -/
structure BeforeRetire (layout : FileObjectContainerLayout) (cid : UInt32)
    (current : Option (Fin 2 × FileObjectManifest)) (s s₁ : FsState TxnRam)
    (next : FileObjectManifest) (candidates : Fin 2 → Option FileObjectManifest) : Prop where
  present : ∀ fid, ContainerFid layout cid fid → s₁.files fid ≠ none →
    s.files fid ≠ none ∨ (∃ object ∈ next.objects, layout.recordFid cid object = .ok fid) ∨
      fid = layout.manifestFid cid (targetSlot current)
  candidate_eq : ∀ slot manifest, current = some (slot, manifest) →
    candidates slot = some manifest

/-- What the layout does after a commit: it finishes, unless something is disturbed, and cleans up
as far as `Clean` says. -/
structure CleanupOk (layout : FileObjectContainerLayout) (cid : UInt32)
    (A : Outcome → Prop) (P : Prop)
    (Clean : (Fin 2 → Option FileObjectManifest) → FileObjectManifest → Fin 2 →
      FsState TxnRam → FsState TxnRam → Prop) : Prop where
  activate : ∀ s, wp A (layout.activate cid) (fun _ _ ↦ True) (fun _ _ ↦ Faulty A P) s
  retire : ∀ candidates next currentSlot targetSlot s,
    CandidatesOk layout cid candidates next →
    wp A (layout.retire cid candidates next currentSlot targetSlot)
      (fun _ s' ↦ Clean candidates next targetSlot s s') (fun _ _ ↦ Faulty A P) s

include spec in
/-- Of a layout that keeps to the rules nothing need be known, where anything may go wrong. -/
theorem ContainerLayoutSpec.cleanupOk : CleanupOk layout cid A True fun _ _ _ _ _ ↦ True where
  activate s := wp_mono (spec.activate _ s) (fun _ _ _ ↦ trivial) fun _ _ _ ↦ .of_prop trivial
  retire candidates next currentSlot slot s hcandidates :=
    wp_mono (spec.retire _ candidates next currentSlot slot s hcandidates) (fun _ _ _ ↦ trivial)
      fun _ _ _ ↦ .of_prop trivial

/-- The arguments of an update: where one of these is not in order, `P` is the case. -/
structure UpdateOk (layout : FileObjectContainerLayout) (cid : UInt32)
    (crypto : FileObjectContainerCrypto) (Allowed : FileObjectContainerWrite → Prop)
    (A : Outcome → Prop) (P : Prop) (keep : ℕ → Prop)
    (current : Option (Fin 2 × FileObjectManifest)) (files : Files)
    (writes : List FileObjectContainerWrite) : Prop where
  each : ∀ write ∈ writes,
    WritesOk layout cid crypto Allowed A P keep (targetSlot current) files write
  batch : BatchOk P (currentObjects current) writes
  count : writes = [] ∨ manifestMaxObjects < writes.length → P
  exhausted : currentGeneration current = 0xffffffff → P

include spec in
/-- A write that avoids the protected files avoids the manifests as well. -/
theorem WritesOk.manifests {slot : Fin 2} {files : Files} {write : FileObjectContainerWrite}
    (h : WritesOk layout cid crypto Allowed A P keep slot files write) :
    WritesOk layout cid crypto Allowed A P
      (fun fid ↦ keep fid ∨ ∃ slot, fid = layout.manifestFid cid slot) slot files write :=
  { h with
    fresh := by
      rintro hvalid s hs os r hr (hkeep | ⟨i, hi⟩)
      · exact h.fresh hvalid s (fun fid hfid ↦ hs fid (.inl hfid)) os r hr hkeep
      · have hallocated := (final_of_result_ok
          (spec.allocate (fun _ ↦ True) slot write crypto.auth s h.allowed hvalid) hr).2
        exact spec.record_ne_manifest _ _ i (hallocated.valid 1) (hallocated.recordFid_eq 1) hi }

/-- The keys an update leaves. -/
abbrev keysAfter (current : Option (Fin 2 × FileObjectManifest))
    (writes : List FileObjectContainerWrite) (key : UInt16 × UInt16) : Prop :=
  key ∈ (currentObjects current).map (·.key) ∨ ∃ write ∈ writes, write.key = key

/-- Framed candidates are in order for a next manifest whose records are framed as well, or new. -/
theorem CandidatesOk.of_framed {files : Files} {candidates : Fin 2 → Option FileObjectManifest}
    {next : FileObjectManifest}
    (hframed : ∀ slot manifest, candidates slot = some manifest → ∀ object ∈ manifest.objects,
      ObjectFramed layout cid files object)
    (hplaced : ∀ object ∈ next.objects, layout.descriptorValid cid object = true ∧
      ∃ fid, layout.recordFid cid object = .ok fid)
    (hnext : ∀ object ∈ next.objects, ObjectFramed layout cid files object ∨
      ∀ object' fid, layout.descriptorValid cid object' = true →
        layout.recordFid cid object' = .ok fid →
        layout.recordFid cid object = .ok fid → files fid ≠ none →
          object'.recordId = object.recordId) :
    CandidatesOk layout cid candidates next where
  next_valid := hplaced
  placed slot manifest hslot object hobject := by
    have h := hframed slot manifest hslot object hobject
    obtain ⟨fid, -, hfid, -⟩ := h.framed
    exact ⟨h.valid, fid, hfid⟩
  recordId_eq slot manifest hslot object hobject object' hobject' fid hfid hfid' := by
    have h := hframed slot manifest hslot object hobject
    rcases hnext object' hobject' with h' | h'
    · exact h.recordId_eq h' hfid hfid'
    · obtain ⟨f, record, hf, hfile, -⟩ := h.framed
      rw [hfid] at hf
      cases hf
      exact h' object fid h.valid hfid hfid' (by simp [hfile])

/-! ### The update -/

section Update

variable {Clean : (Fin 2 → Option FileObjectManifest) → FileObjectManifest → Fin 2 →
  FsState TxnRam → FsState TxnRam → Prop}

include spec in
/-- The clean-up of a committed update. -/
theorem wp_retire {s s₁ : FsState TxnRam} {keys : UInt16 × UInt16 → Prop}
    {next : FileObjectManifest} {candidates : Fin 2 → Option FileObjectManifest}
    {currentSlot : Option (Fin 2)} {E : Exit Status → FsState TxnRam → Prop}
    (hclean : CleanupOk layout cid A P Clean)
    (hcandidates : CandidatesOk layout cid candidates next)
    (hbefore : BeforeRetire layout cid current s s₁ next candidates)
    (hupdated : Updated layout cid crypto current keys val s₁.files next)
    (hE : ∀ e s', Updated layout cid crypto current keys val s'.files next → Faulty A P → E e s') :
    wp A (layout.retire cid candidates next currentSlot (targetSlot current))
      (fun _ s' ↦ ∃ next, Updated layout cid crypto current keys val s'.files next ∧
        ∃ candidates s₁, BeforeRetire layout cid current s s₁ next candidates ∧
          Clean candidates next (targetSlot current) s₁ s')
      E s₁ := by
  refine wp_mono (wp_and
    (spec.retire A candidates next currentSlot (targetSlot current) s₁ hcandidates)
    (hclean.retire candidates next currentSlot (targetSlot current) s₁ hcandidates)) ?_ ?_
  · rintro - s' ⟨hretired, hdone⟩
    exact ⟨next, hupdated.congr hretired.manifest_eq hretired.record_eq hretired.other,
      candidates, s₁, hbefore, hdone⟩
  · rintro e s' ⟨hretired, hfaulty⟩
    exact hE e s' (hupdated.congr hretired.manifest_eq hretired.record_eq hretired.other) hfaulty

include spec in
/-- **An update** either takes place or leaves what is protected as it was. -/
theorem wp_fileObjectContainerUpdateInternal {writes : List FileObjectContainerWrite}
    (hkeep : ∀ fid, keep fid → ContainerFid layout cid fid)
    (hcurrent : ContainerIs layout cid crypto s.files val current)
    (hok : UpdateOk layout cid crypto Allowed A P keep current s.files writes)
    (hclean : CleanupOk layout cid A P Clean) (validateRecords : Bool) :
    wp A (fileObjectContainerUpdateInternal layout cid writes crypto legacy validateRecords)
      (fun _ s' ↦ ∃ next, Updated layout cid crypto current (keysAfter current writes)
          (valAfter val writes) s'.files next ∧
        ∃ candidates s₁, BeforeRetire layout cid current s s₁ next candidates ∧
          Clean candidates next (targetSlot current) s₁ s')
      (fun _ s' ↦ (¬A .late → UpdateStopped layout cid keep current s s' ∨
        ∃ next, Updated layout cid crypto current (keysAfter current writes)
          (valAfter val writes) s'.files next) ∧ Faulty A P) s := by
  refine wp_ite (fun hcount ↦ wp_bind (wp_fail ⟨fun _ ↦ .inl (.refl ..),
    .of_prop (hok.count ?_)⟩)) fun hcount ↦ ?_
  · simpa [spec.valid, List.isEmpty_iff] using hcount
  have hwrites : writes ≠ [] := by
    rintro rfl
    simp at hcount
  refine wp_get ?_
  -- what is loaded is what the container is at
  obtain ⟨state, hstate, hstart⟩ :=
    @ContainerIs.updateState _ _ _ legacy _ _ _ spec.valid hcurrent validateRecords
  rw [hstate]
  refine wp_bind (wp_pure ?_)
  simp only [hstart.crypto_eq, hstart.slot_eq, hstart.manifest_eq]
  refine wp_lift (fun base hnext ↦ ?_) fun r hrefused ↦
    ⟨fun _ ↦ .inl (.refl ..), .of_prop (hok.exhausted (hcurrent.exhausted hrefused))⟩
  have hbase := hcurrent.nextBase hnext
  -- the records
  have hnodup : (base.objects.map (·.key)).Nodup := by
    rw [hbase.objects_eq]
    exact hcurrent.nodup
  have hpresent : ∀ object ∈ base.objects, ∀ fid,
      layout.recordFid cid object = .ok fid → s.files fid ≠ none :=
    fun object hobject fid hfid ↦ (hcurrent.records hbase object hobject).present hfid
  have hkeep' : ∀ fid, (keep fid ∨ ∃ slot, fid = layout.manifestFid cid slot) →
      ContainerFid layout cid fid := by
    rintro fid (h | h)
    · exact hkeep fid h
    · exact .inl h
  refine wp_seq (wp_containerWriteRecords spec hkeep' hpresent writes
    (fun write hwrite ↦ (hok.each write hwrite).manifests spec)
    (by simpa [hbase.objects_eq] using hok.batch) (.start hnodup
      (by rw [hbase.objects_eq]; exact hcurrent.length_le) (hcurrent.records hbase))
    (fun _ _ ↦ rfl) fun _ h ↦ absurd h not_mem_nil) ?_ ?_
  · rintro ⟨unsorted, newRecordFids⟩ s₁ ⟨hbuild, hs₁, hfids⟩
    obtain ⟨next, hnextDef⟩ : ∃ next, next = { unsorted with
      objects := unsorted.objects.insertionSort keyLe } := ⟨_, rfl⟩
    simp only [← hnextDef]
    -- stopping from here on, before the manifest is there
    have hstopped (c : Option Bytes) (hc : c = s₁.files
          (layout.manifestFid cid (targetSlot current)) ∨ c = none ∨ c = some []) :
        UpdateStopped layout cid keep current s
          (s₁.setFile (layout.manifestFid cid (targetSlot current)) c) := by
      refine ⟨fun fid hfid hne ↦ ?_, ?_, ?_⟩
      · rw [FsState.files_setFile, Files.set_of_ne _ _ (hne _), hs₁ fid (.inl hfid)]
      · rw [FsState.files_setFile, Files.set_of_ne _ _ (spec.manifest_ne _), hs₁ _ (.inr ⟨_, rfl⟩)]
      · rw [FsState.files_setFile, SlotEmpty, Files.set_self]
        rcases hc with rfl | rfl | rfl
        · exact .inl (hs₁ _ (.inr ⟨_, rfl⟩))
        · exact .inr rfl
        · exact .inr rfl
    have habort {r : Status} {Q : Unit → FsState TxnRam → Prop} (s₂ : FsState TxnRam)
        (hs₂ : ¬A .late → UpdateStopped layout cid keep current s s₂)
        (hfaulty : Faulty A P) :
        wp A (containerAbort layout newRecordFids r) Q (fun _ s' ↦
          (¬A .late → UpdateStopped layout cid keep current s s' ∨
            ∃ next, Updated layout cid crypto current (keysAfter current writes)
              (valAfter val writes) s'.files next) ∧ Faulty A P) s₂ := by
      refine wp_containerAbort
        (I := fun s' ↦ ¬A .late → UpdateStopped layout cid keep current s s') hs₂
        (fun s' hs' fid hfid hlate ↦ ?_) (fun s' hs' ↦ ⟨fun h ↦ .inl (hs' h), hfaulty⟩)
        fun _ s' hs' ↦ ⟨fun h ↦ .inl (hs' h), hfaulty⟩
      have hfresh := hfids fid hfid
      have hstopped := hs' hlate
      have hslot (slot : Fin 2) : layout.manifestFid cid slot ≠ fid :=
        fun heq ↦ hfresh (.inr ⟨slot, heq.symm⟩)
      refine ⟨fun f hf hne ↦ ?_, ?_, ?_⟩
      · have hfne : f ≠ fid := fun heq ↦ hfresh (.inl (heq ▸ hf))
        rw [FsState.files_setFile, Files.set_of_ne _ _ hfne, hstopped.kept f hf hne]
      · rw [FsState.files_setFile, Files.set_of_ne _ _ (hslot _), hstopped.current_eq]
      · rw [FsState.files_setFile, SlotEmpty, Files.set_of_ne _ _ (hslot _)]
        exact hstopped.target
    have hready := hbuild.ready hcurrent hbase hwrites
    rw [← hnextDef] at hready
    have hmanifestOk : fileObjectManifestBuild next [] crypto.auth = .ok (next.bytes crypto.auth) :=
      fileObjectManifestBuild_eq_ok.mpr ⟨hready.built, rfl⟩
    refine wp_bind (wp_onError (wp_bind ?_))
    rw [hmanifestOk]
    refine wp_pure (wp_fileObjectContainerReplaceFile ?_ ?_)
    · -- the commit
      have hupdated := hready.commit spec.record_ne_manifest spec.manifest_ne hcurrent
        (hs₁ _ (.inr ⟨_, rfl⟩))
      have hbefore (s₂ : FsState TxnRam) (huntouched : Untouched layout cid (s₁.setFile
          (layout.manifestFid cid (targetSlot current)) (some (next.bytes crypto.auth)))
          s₂) : BeforeRetire layout cid current s s₂ next
            (fun slot ↦ state.bind (·.candidates slot)) := by
        refine ⟨fun fid hfid hfile ↦ ?_, hstart.candidate_eq⟩
        rw [huntouched fid hfid] at hfile
        by_cases htarget : fid = layout.manifestFid cid (targetSlot current)
        · exact .inr (.inr htarget)
        · rw [FsState.files_setFile, Files.set_of_ne _ _ htarget] at hfile
          rcases hbuild.present fid hfid hfile with h | ⟨object, hobject, hrecordFid⟩
          · exact .inl h
          · refine .inr (.inl ⟨object, ?_, hrecordFid⟩)
            rw [hnextDef]
            exact (mem_insertionSort _).mpr hobject
      have hupdated₂ (s₂ : FsState TxnRam) (huntouched : Untouched layout cid (s₁.setFile
          (layout.manifestFid cid (targetSlot current)) (some (next.bytes crypto.auth)))
          s₂) : Updated layout cid crypto current (keysAfter current writes)
            (valAfter val writes) s₂.files next := by
        refine hupdated.congr (huntouched _ (.inl ⟨_, rfl⟩)) (fun object hobject fid hfid ↦ ?_)
          (.inl (huntouched _ (.inl ⟨_, rfl⟩)))
        exact huntouched fid
          (.inr ⟨object, (hupdated.holds.manifestFile.placed object hobject).1, hfid⟩)
      have hcandidates : CandidatesOk layout cid (fun slot ↦ state.bind (·.candidates slot)) next :=
        .of_framed hstart.framed hupdated.holds.manifestFile.placed
          fun object hobject ↦ by
            rw [hnextDef] at hobject
            rcases hbuild.recordId_eq object ((mem_insertionSort _).mp hobject) with h | h
            · exact .inl (hcurrent.records hbase object h).framed
            · exact .inr h
      refine wp_seq (wp_and (spec.activate A _) (hclean.activate _)) ?_ ?_
      · rintro - s₂ ⟨huntouched, -⟩
        exact wp_retire spec hclean hcandidates (hbefore s₂ huntouched)
          (hupdated₂ s₂ huntouched) fun e s' h hfaulty ↦ ⟨fun _ ↦ .inr ⟨next, h⟩, hfaulty⟩
      · rintro e s₂ ⟨huntouched, hfaulty⟩
        exact ⟨fun _ ↦ .inr ⟨next, hupdated₂ s₂ huntouched⟩, hfaulty⟩
    · intro e he c hc
      have hfaulty : Faulty A P := by
        rcases he with h | h | h
        · exact .of_fail h
        · exact .of_late h
        · exact .of_cut h
      have hstopped' (hlate : ¬A .late) : UpdateStopped layout cid keep current s
          (s₁.setFile (layout.manifestFid cid (targetSlot current)) c) := by
        refine hstopped c ?_
        rcases hc with h | h | h | ⟨h, -⟩
        · exact .inl h
        · exact .inr (.inl h)
        · exact .inr (.inr h)
        · exact absurd h hlate
      cases e with
      | code r => exact habort _ hstopped' hfaulty
      | cut => exact ⟨fun h ↦ .inl (hstopped' h), hfaulty⟩
  · rintro e s₁ ⟨hs₁, hfaulty⟩
    refine ⟨fun _ ↦ .inl ⟨fun fid hfid _ ↦ hs₁ fid (.inl hfid), hs₁ _ (.inr ⟨_, rfl⟩),
      .inl (hs₁ _ (.inr ⟨_, rfl⟩))⟩, hfaulty⟩

end Update

/-! ### Removing an object -/

section Remove

variable {Clean : (Fin 2 → Option FileObjectManifest) → FileObjectManifest → Fin 2 →
  FsState TxnRam → FsState TxnRam → Prop}

/-- The keys a removal leaves. -/
abbrev keysWithout (current : Option (Fin 2 × FileObjectManifest))
    (removed key : UInt16 × UInt16) : Prop :=
  key ∈ (currentObjects current).map (·.key) ∧ key ≠ removed

/-- The arguments of a removal: where one of these is not in order, `P` is the case. -/
structure RemoveOk (P : Prop) (current : Option (Fin 2 × FileObjectManifest))
    (removed : UInt16 × UInt16) : Prop where
  found : removed ∉ (currentObjects current).map (·.key) → P
  last : (currentObjects current).length ≤ 1 → P
  exhausted : currentGeneration current = 0xffffffff → P

theorem mem_erase_key {objects : List FileObjectDescriptor} {object found : FileObjectDescriptor}
    (hnodup : (objects.map (·.key)).Nodup) (hfound : found ∈ objects) :
    object ∈ objects.erase found ↔ object ∈ objects ∧ object.key ≠ found.key := by
  have hobjects : objects.Nodup := hnodup.of_map _
  rw [hobjects.mem_erase_iff, and_comm]
  refine and_congr_right fun hobject ↦ not_congr ⟨fun h ↦ h ▸ rfl, fun h ↦ ?_⟩
  exact inj_on_of_nodup_map hnodup hobject hfound h

variable {manifest : FileObjectManifest} {objectType objectTag : UInt16}

/-- The manifest without the object is ready. -/
theorem ContainerHolds.removeObject {slot : Fin 2} {next : FileObjectManifest} {files : Files}
    (h : ContainerHolds layout cid crypto files slot manifest val)
    (hnext : containerRemoveObject manifest objectType objectTag = .ok next) :
    ReadyManifest layout cid crypto (some (slot, manifest))
      (keysWithout (some (slot, manifest)) (objectType, objectTag)) val files next := by
  rw [containerRemoveObject] at hnext
  rcases hfind : fileObjectContainerFind manifest objectType objectTag with - | found <;>
    rw [hfind] at hnext
  · cases hnext
  simp only at hnext
  split_ifs at hnext with hrefused
  cases hnext
  simp only [not_or, not_le] at hrefused
  obtain ⟨hgen, hlen, -, -⟩ := hrefused
  obtain ⟨hfound, hkey⟩ := mem_of_containerFind hfind
  have hfile := h.manifestFile
  have hnodup := nodup_key_of_sorted hfile.built.sorted
  have hmem {object : FileObjectDescriptor} : object ∈ manifest.objects.erase found ↔
      object ∈ manifest.objects ∧ object.key ≠ (objectType, objectTag) := by
    rw [mem_erase_key hnodup hfound, hkey]
  have hgeneration := toNat_add_one hgen
  have hlenErase : (manifest.objects.erase found).length = manifest.objects.length - 1 :=
    length_erase_of_mem hfound
  refine ⟨⟨rfl, hfile.namespaceId_eq, hfile.containerKind_eq, hfile.containerId_eq,
    hfile.extensionSize_eq, hgeneration, rfl⟩, ?_, ⟨?_, ?_, ?_, ?_, ?_⟩, ?_, ?_⟩
  · exact ne_nil_of_length_pos (by rw [hlenErase]; omega)
  · have hle := hfile.built.length_le
    show (manifest.objects.erase found).length ≤ manifestMaxObjects
    omega
  · intro hzero
    rw [show manifest.generation + 1 = 0 from hzero] at hgeneration
    simp at hgeneration
  · rw [UInt32.lt_iff_toNat_lt]
    show manifest.generation.toNat < (manifest.generation + 1).toNat
    omega
  · intro object hobject
    have hvalid := hfile.built.valid object (hmem.mp hobject).1
    have hext := FileObjectDescriptor.extensionSize_of_valid hvalid
    rw [FileObjectDescriptor.valid, Bool.and_eq_true] at hvalid ⊢
    exact ⟨hvalid.1, by simp [hext]⟩
  · exact descriptorsSorted_iff_pairwise.mpr
      ((descriptorsSorted_iff_pairwise.mp hfile.built.sorted).sublist erase_sublist)
  · intro object hobject
    exact (h.records object (hmem.mp hobject).1).congr rfl rfl rfl fun _ _ ↦ rfl
  · intro key
    simp only [mem_map, hmem, keysWithout, currentObjects]
    constructor
    · rintro ⟨object, ⟨hobject, hne⟩, rfl⟩
      exact ⟨⟨object, hobject, rfl⟩, hne⟩
    · rintro ⟨⟨object, hobject, rfl⟩, hne⟩
      exact ⟨object, ⟨hobject, hne⟩, rfl⟩

theorem containerRemoveObject_error {files : Files} {slot : Fin 2} {r : Status}
    (h : ContainerHolds layout cid crypto files slot manifest val)
    (hok : RemoveOk P (some (slot, manifest)) (objectType, objectTag))
    (hr : containerRemoveObject manifest objectType objectTag = .error r) : P := by
  have hfile := h.manifestFile
  rw [containerRemoveObject] at hr
  rcases hfind : fileObjectContainerFind manifest objectType objectTag with - | found <;>
    rw [hfind] at hr
  · refine hok.found ?_
    rw [fileObjectContainerFind, find?_eq_none] at hfind
    rintro hmem
    obtain ⟨object, hobject, hkey⟩ := mem_map.mp hmem
    exact hfind object hobject (by simp [hkey])
  · simp only at hr
    split_ifs at hr with hrefused
    obtain ⟨hfound, -⟩ := mem_of_containerFind hfind
    rcases hrefused with hgen | hlen | hext | hext
    · exact hok.exhausted hgen
    · exact hok.last hlen
    · exact absurd hfile.extensionSize_eq hext
    · exact absurd (FileObjectDescriptor.extensionSize_of_valid
        (hfile.built.valid found hfound)) hext

include spec in
/-- **A removal** either takes place or leaves the container as it was. -/
theorem wp_fileObjectContainerRemove (hcurrent : ContainerIs layout cid crypto s.files val current)
    (hok : RemoveOk P current (objectType, objectTag)) (hclean : CleanupOk layout cid A P Clean) :
    wp A (fileObjectContainerRemove layout cid objectType objectTag crypto legacy)
      (fun _ s' ↦ ∃ next, Updated layout cid crypto current
          (keysWithout current (objectType, objectTag)) val s'.files next ∧
        ∃ candidates s₁, BeforeRetire layout cid current s s₁ next candidates ∧
          Clean candidates next (targetSlot current) s₁ s')
      (fun _ s' ↦ (¬A .late → UpdateStopped layout cid keep current s s' ∨
        ∃ next, Updated layout cid crypto current
          (keysWithout current (objectType, objectTag)) val s'.files next) ∧ Faulty A P) s := by
  refine wp_ite (fun hlayout ↦ by simp [spec.valid] at hlayout) fun _ ↦ ?_
  refine wp_get ?_
  dsimp only
  rcases current with - | ⟨slot, manifest⟩
  · -- nothing to remove from
    rw [ContainerAbsent.load spec.valid hcurrent]
    exact wp_bind (wp_fail ⟨fun _ ↦ .inl (.refl ..), .of_prop (hok.found (by simp [currentObjects]))⟩)
  obtain ⟨state, hload, hstate⟩ := @ContainerHolds.load _ _ _ legacy _ _ _ _ spec.valid hcurrent
  have hcandidate := hstate.candidate_eq hcurrent
  have hselect := selectValid hcurrent hstate
  rw [hload]
  refine wp_bind (wp_pure ?_)
  rw [hselect]
  refine wp_bind (wp_pure ?_)
  simp only [hstate.current_eq, hstate.crypto_eq]
  refine wp_lift (fun next hnext ↦ ?_) fun r hr ↦
    ⟨fun _ ↦ .inl (.refl ..), .of_prop (containerRemoveObject_error hcurrent hok hr)⟩
  have hready := removeObject hcurrent hnext
  rw [fileObjectManifestBuild_eq_ok.mpr ⟨hready.built, rfl⟩]
  refine wp_bind (wp_pure (wp_bind (wp_fileObjectContainerReplaceFile ?_ ?_)))
  · have hupdated := hready.commit spec.record_ne_manifest spec.manifest_ne
      (show ContainerIs layout cid crypto s.files val (some (slot, manifest)) from hcurrent)
      rfl
    have hbefore : BeforeRetire layout cid (some (slot, manifest)) s
        (s.setFile (layout.manifestFid cid slot.rev) (some (next.bytes crypto.auth))) next
        state.candidates := by
      refine ⟨fun fid hfid hfile ↦ ?_, ?_⟩
      · by_cases htarget : fid = layout.manifestFid cid slot.rev
        · exact .inr (.inr htarget)
        · rw [FsState.files_setFile, Files.set_of_ne _ _ htarget] at hfile
          exact .inl hfile
      · rintro _ _ ⟨⟩
        exact hcandidate
    have hcandidates : CandidatesOk layout cid state.candidates next :=
      .of_framed hstate.framed hupdated.holds.manifestFile.placed fun object hobject ↦
        .inl (hready.records object hobject).framed
    exact wp_retire spec hclean hcandidates hbefore hupdated fun e s' h hfaulty ↦
      ⟨fun _ ↦ .inr ⟨next, h⟩, hfaulty⟩
  · intro e he c hc
    refine ⟨fun hlate ↦ .inl ⟨fun fid _ hne ↦ ?_, ?_, ?_⟩, ?_⟩
    · rw [FsState.files_setFile, Files.set_of_ne _ _ (hne _)]
    · rw [FsState.files_setFile]
      exact Files.set_of_ne _ _ (spec.manifest_ne _)
    · rw [FsState.files_setFile, SlotEmpty]
      show (s.files.set (layout.manifestFid cid slot.rev) c)
        (layout.manifestFid cid slot.rev) = _ ∨ fileHasData ((s.files.set
          (layout.manifestFid cid slot.rev) c)
          (layout.manifestFid cid slot.rev)) = false
      rw [Files.set_self]
      rcases hc with rfl | rfl | rfl | ⟨h, -⟩
      · exact .inl rfl
      · exact .inr rfl
      · exact .inr rfl
      · exact absurd h hlate
    · rcases he with h | h | h
      · exact .of_fail h
      · exact .of_late h
      · exact .of_cut h

end Remove

/-! ### Deleting the container -/

section Delete

/-- Files have at most disappeared. -/
def Shrunk (s s' : FsState TxnRam) : Prop :=
  ∀ fid, s'.files fid = s.files fid ∨ s'.files fid = none

theorem Shrunk.trans {s s' s'' : FsState TxnRam} (h : Shrunk s s') (h' : Shrunk s' s'') :
    Shrunk s s'' := by
  intro fid
  rcases h' fid with h' | h'
  · exact h'.symm ▸ h fid
  · exact .inr h'

theorem Shrunk.none {s s' : FsState TxnRam} (h : Shrunk s s') {fid : ℕ}
    (hfid : s.files fid = Option.none) : s'.files fid = Option.none := by
  rcases h fid with h | h
  · exact h.trans hfid
  · exact h

theorem Shrunk.setFile (s : FsState TxnRam) (fid : ℕ) : Shrunk s (s.setFile fid Option.none) := by
  intro f
  by_cases hf : f = fid
  · exact .inr (by rw [hf, FsState.files_setFile, Files.set_self])
  · exact .inl (by rw [FsState.files_setFile, Files.set_of_ne _ _ hf])

/-- A file deleted if it is there is not there any more. -/
theorem wp_fileDeletePresent_gone {fid : ℕ} :
    wp A (fileDeletePresent fid) (fun _ s' ↦ Shrunk s s' ∧ s'.files fid = none)
      (fun _ _ ↦ True) s :=
  wp_fileDeletePresent ⟨.setFile s fid, Files.set_self ..⟩ fun _ _ _ _ ↦ trivial

/-- The loop of a deletion over one slot. -/
theorem wp_containerDeleteSlot {state : FileObjectContainerState} {slot : Fin 2} :
    wp A (containerDeleteSlot layout cid state slot)
      (fun _ s' ↦ Shrunk s s' ∧ s'.files (layout.manifestFid cid slot) = none ∧
        ∀ manifest, state.candidates slot = some manifest → ∀ object ∈ manifest.objects, ∀ fid,
          layout.recordFid cid object = .ok fid → s'.files fid = none)
      (fun _ _ ↦ True) s := by
  have hmanifest (s₁ : FsState TxnRam) (hs₁ : Shrunk s s₁)
      (hrecords : ∀ manifest, state.candidates slot = some manifest →
        ∀ object ∈ manifest.objects, ∀ fid, layout.recordFid cid object = .ok fid →
          s₁.files fid = none) :
      wp A (fileDeletePresent (layout.manifestFid cid slot))
        (fun _ s' ↦ Shrunk s s' ∧ s'.files (layout.manifestFid cid slot) = none ∧
          ∀ manifest, state.candidates slot = some manifest → ∀ object ∈ manifest.objects, ∀ fid,
            layout.recordFid cid object = .ok fid → s'.files fid = none)
        (fun _ _ ↦ True) s₁ := by
    refine wp_mono wp_fileDeletePresent_gone ?_ fun _ _ _ ↦ trivial
    rintro - s₂ ⟨hs₂, hgone⟩
    exact ⟨hs₁.trans hs₂, hgone, fun manifest hm object hobject fid hfid ↦
      hs₂.none (hrecords manifest hm object hobject fid hfid)⟩
  unfold containerDeleteSlot
  rcases hcandidate : state.candidates slot with - | manifest
  · rw [hcandidate] at hmanifest
    exact hmanifest s (fun _ ↦ .inl rfl) nofun
  · refine wp_seq (wp_forEach_all (E := fun _ _ ↦ True) (I := Shrunk s)
      (R := fun object s' ↦ ∀ fid, layout.recordFid cid object = .ok fid →
        s'.files fid = none) (fun _ ↦ .inl rfl) fun object _ s₁ hs₁ ↦ ?_) ?_ fun _ _ _ ↦ trivial
    · refine wp_lift (fun fid hfid ↦ ?_) fun _ _ ↦ trivial
      refine wp_mono wp_fileDeletePresent_gone ?_ fun _ _ _ ↦ trivial
      rintro - s₂ ⟨hs₂, hgone⟩
      refine ⟨hs₁.trans hs₂, fun fid' hfid' ↦ ?_, fun _ h fid' hfid' ↦ hs₂.none (h fid' hfid')⟩
      rw [hfid] at hfid'
      cases hfid'
      exact hgone
    · rintro - s₁ ⟨hs₁, -, hall⟩
      rw [hcandidate] at hmanifest
      refine hmanifest s₁ hs₁ fun m hm object hobject ↦ ?_
      cases hm
      exact hall object hobject

/-- What a completed deletion leaves: no container, and none of its records. -/
structure Deleted (layout : FileObjectContainerLayout) (cid : UInt32)
    (current : Option (Fin 2 × FileObjectManifest)) (s s' : FsState TxnRam) : Prop where
  absent : ContainerAbsent layout cid s'.files
  shrunk : ∀ fid, ContainerFid layout cid fid →
    s'.files fid = s.files fid ∨ s'.files fid = none
  records : ∀ fid, CurrentRecord layout cid current fid → s'.files fid = none

include spec in
/-- **A deletion that succeeds** leaves no container. -/
theorem wp_fileObjectContainerDelete
    (hcurrent : ContainerIs layout cid crypto s.files val current) :
    wp A (fileObjectContainerDelete layout cid crypto legacy)
      (fun _ s' ↦ Deleted layout cid current s s') (fun _ _ ↦ True) s := by
  refine wp_ite (fun hlayout ↦ by simp [spec.valid] at hlayout) fun _ ↦ ?_
  refine wp_get ?_
  rcases current with - | ⟨slot, manifest⟩
  · rw [ContainerAbsent.load spec.valid hcurrent]
    exact wp_bind (wp_fail trivial)
  obtain ⟨state, hload, hstate⟩ := @ContainerHolds.load _ _ _ legacy _ _ _ _ spec.valid hcurrent
  rw [hload]
  refine wp_bind (wp_pure (wp_seq wp_containerDeleteSlot ?_ fun _ _ _ ↦ trivial))
  rintro - s₁ ⟨hs₁, hmanifest₁, hrecords₁⟩
  refine wp_seq wp_containerDeleteSlot ?_ fun _ _ _ ↦ trivial
  rintro - s₂ ⟨hs₂, hmanifest₂, hrecords₂⟩
  refine wp_mono (spec.deactivate A s₂) ?_ fun _ _ _ ↦ trivial
  intro _ s₃ hs₃
  have hnone {fid : ℕ} (hfid : ContainerFid layout cid fid) (h : s₂.files fid = none) :
      s₃.files fid = none := by
    rcases hs₃ fid hfid with h' | h'
    · exact h'.trans h
    · exact h'
  refine ⟨fun i ↦ ?_, fun fid hfid ↦ ?_, ?_⟩
  · rw [SlotEmpty, hnone (.inl ⟨i, rfl⟩)]
    · rfl
    revert i
    exact Fin.forall_fin_two.mpr ⟨hs₂.none hmanifest₁, hmanifest₂⟩
  · rcases hs₃ fid hfid with h | h
    · exact h.symm ▸ hs₁.trans hs₂ fid
    · exact .inr h
  · rintro fid ⟨object, hobject, hfid⟩
    have hvalid := ((manifestFile hcurrent).placed object hobject).1
    refine hnone (.inr ⟨object, hvalid, hfid⟩) ?_
    have hcandidate := hstate.candidate_eq hcurrent
    obtain rfl | rfl : slot = 0 ∨ slot = 1 := by omega
    · exact hs₂.none (hrecords₁ manifest hcandidate object hobject fid hfid)
    · exact hrecords₂ manifest hcandidate object hobject fid hfid

end Delete

end PicoAll
