import PicoAll.Fs.ObjectContainerInvariant

/-!
# What an update does

The specification of the calls that change a container, operation by operation, for every layout
that keeps to a few rules (`ContainerLayoutSpec`): its manifest and record files do not collide, a
freshly allocated record file is not the file of another object, and what it does on its own leaves
the container alone.

Two things are tracked side by side. `keep` is a set of files that nothing may change; which files
an update keeps depends on what its layout allocates. And every early stop comes with its reason, so
that where nothing is disturbed and no check fails the call is known to succeed.
-/

namespace PicoAll

open FaultProgram BigEndian List Option

variable {layout : FileObjectContainerLayout} {cid : UInt32}
  {crypto : FileObjectContainerCrypto} {legacy : Option FileObjectContainerCrypto}

/-! ### Rules for layouts -/

/-- The container's files are as they were. -/
def Untouched (layout : FileObjectContainerLayout) (cid : UInt32)
    (s s' : FsState TxnRam) : Prop :=
  ∀ fid, ContainerFid layout cid fid → s'.files fid = s.files fid

/-- What an allocation for a write promises: the id stands for the file in every descriptor of the
written object, and the file is not that of another object that is there. -/
structure Allocated (layout : FileObjectContainerLayout) (cid : UInt32)
    (s : FsState TxnRam) (write : FileObjectContainerWrite) (r : UInt64 × ℕ) : Prop where
  recordId_ne : r.1 ≠ 0
  valid : ∀ generation,
    layout.descriptorValid cid (write.descriptor generation r.1) = true
  recordFid_eq : ∀ generation,
    layout.recordFid cid (write.descriptor generation r.1) = .ok r.2
  disjoint : ∀ object fid, layout.descriptorValid cid object = true →
    RecordIdAllocated layout cid object → layout.recordFid cid object = .ok fid →
    s.files fid ≠ none → object.key ≠ write.key → fid ≠ r.2
  recordId_eq : ∀ object, layout.descriptorValid cid object = true →
    layout.recordFid cid object = .ok r.2 → s.files r.2 ≠ none → object.recordId = r.1

/-- What a clean-up is given: manifests whose records have a place, and no two record ids for one
file. -/
structure CandidatesOk (layout : FileObjectContainerLayout) (cid : UInt32)
    (candidates : Fin 2 → Option FileObjectManifest) (next : FileObjectManifest) : Prop where
  next_valid : ∀ object ∈ next.objects, layout.descriptorValid cid object = true ∧
    ∃ fid, layout.recordFid cid object = .ok fid
  placed : ∀ slot manifest, candidates slot = some manifest → ∀ object ∈ manifest.objects,
    layout.descriptorValid cid object = true ∧
      ∃ fid, layout.recordFid cid object = .ok fid
  recordId_eq : ∀ slot manifest, candidates slot = some manifest → ∀ object ∈ manifest.objects,
    ∀ object' ∈ next.objects, ∀ fid, layout.recordFid cid object = .ok fid →
      layout.recordFid cid object' = .ok fid → object.recordId = object'.recordId

/-- What a clean-up may do: nothing to the target manifest or to a record the next manifest names,
and nothing to the other manifest but delete it. -/
structure Retired (layout : FileObjectContainerLayout) (cid : UInt32)
    (s s' : FsState TxnRam) (next : FileObjectManifest) (targetSlot : Fin 2) : Prop where
  manifest_eq : s'.files (layout.manifestFid cid targetSlot) =
    s.files (layout.manifestFid cid targetSlot)
  record_eq : ∀ object ∈ next.objects, ∀ fid, layout.recordFid cid object = .ok fid →
    s'.files fid = s.files fid
  other : s'.files (layout.manifestFid cid targetSlot.rev) =
      s.files (layout.manifestFid cid targetSlot.rev) ∨
    s'.files (layout.manifestFid cid targetSlot.rev) = none

/-- **The rules a layout keeps to**, for the writes its application makes. -/
structure ContainerLayoutSpec (layout : FileObjectContainerLayout) (cid : UInt32)
    (Allowed : FileObjectContainerWrite → Prop) : Prop where
  /-- The layout passes the store's own check. -/
  valid : fileObjectContainerLayoutValid layout = true
  /-- The two manifests are two files. -/
  manifest_ne : ∀ slot : Fin 2,
    layout.manifestFid cid slot.rev ≠ layout.manifestFid cid slot
  record_ne_manifest : ∀ object fid slot, layout.descriptorValid cid object = true →
    layout.recordFid cid object = .ok fid → fid ≠ layout.manifestFid cid slot
  /-- Allocating a record. -/
  allocate : ∀ A slot write auth s, Allowed write → layout.writeValid write = true →
    wp A (layout.recordAllocate cid slot write auth)
      (fun r s' ↦ Untouched layout cid s s' ∧ Allocated layout cid s write r)
      (fun _ s' ↦ Untouched layout cid s s') s
  /-- Activating the container. -/
  activate : ∀ A s, wp A (layout.activate cid)
    (fun _ s' ↦ Untouched layout cid s s')
    (fun _ s' ↦ Untouched layout cid s s') s
  /-- Deactivating the container. -/
  deactivate : ∀ A s, wp A (layout.deactivate cid)
    (fun _ s' ↦ ∀ fid, ContainerFid layout cid fid →
      s'.files fid = s.files fid ∨ s'.files fid = none)
    (fun _ _ ↦ True) s
  /-- Cleaning up after a commit. -/
  retire : ∀ A candidates next currentSlot targetSlot s,
    CandidatesOk layout cid candidates next →
    wp A (layout.retire cid candidates next currentSlot targetSlot)
      (fun _ s' ↦ Retired layout cid s s' next targetSlot)
      (fun _ s' ↦ Retired layout cid s s' next targetSlot) s

/-! ### Files -/

section Files

variable {A : Outcome → Prop} {s : FsState TxnRam} {fid : ℕ}
  {E : Exit Status → FsState TxnRam → Prop} {Q : Unit → FsState TxnRam → Prop}

theorem wp_fileDeleteDynamic (hok : Q () (s.setFile fid none))
    (hfail : A .fail → E (.code .execError) s)
    (hlate : A .late → E (.code .execError) (s.setFile fid none)) (hcut : A .cut → E .cut s) :
    wp A (fileDeleteDynamic fid) Q E s := by
  show wp A (fileDeleteNoCommit (fun _ ↦ false) fid) Q E s
  exact wp_fileDeleteNoCommit hok hfail hlate hcut

theorem wp_fileDeletePresent (hok : Q () (s.setFile fid none))
    (herr : ∀ e, A .fail ∨ A .late ∨ A .cut → ∀ c, c = s.files fid ∨ c = none →
      E e (s.setFile fid c)) :
    wp A (fileDeletePresent fid) Q E s := by
  have hstay (e : Exit Status) (h : A .fail ∨ A .late ∨ A .cut) : E e s := by
    simpa using herr e h _ (.inl rfl)
  refine wp_bind (wp_fileSearch ?_)
  rcases hf : s.files fid with - | c
  · rw [← hf, FsState.setFile_get] at hok
    exact wp_pure hok
  · refine wp_fileDeleteDynamic (by simpa using hok) (fun h ↦ hstay _ (.inl h)) (fun h ↦ ?_)
      fun h ↦ hstay _ (.inr (.inr h))
    simpa using herr _ (.inr (.inl h)) none (.inr rfl)

theorem wp_fileDeleteQuietly (hgone : Q () (s.setFile fid none)) (hstay : A .fail → Q () s)
    (hcut : A .cut → E .cut s) : wp A (fileDeleteQuietly fid) Q E s := by
  refine wp_bind (wp_fileSearch ?_)
  rcases hf : s.files fid with - | c
  · rw [← hf, FsState.setFile_get] at hgone
    exact wp_pure hgone
  · exact wp_onError (wp_fileDeleteDynamic hgone (fun h ↦ wp_pure (hstay h))
      (fun _ ↦ wp_pure hgone) hcut)

theorem wp_fileObjectContainerReplaceFile {data : Bytes} (hok : Q () (s.setFile fid (some data)))
    (herr : ∀ e, A .fail ∨ A .late ∨ A .cut → ∀ c, c = s.files fid ∨ c = none ∨ c = some [] ∨
      A .late ∧ c = some data → E e (s.setFile fid c)) :
    wp A (fileObjectContainerReplaceFile fid data) Q E s := by
  refine wp_bind (wp_fileDeletePresent ?_ fun e h c hc ↦ herr e h c (by tauto))
  refine wp_bind (wp_fileNew (fun c hc ↦ ?_) (fun _ ↦ ?_) (fun h _ ↦ ?_) (fun h _ ↦ ?_)
    fun h _ ↦ ?_)
  · simp at hc
  · refine wp_filePutData ?_ (fun h ↦ ?_) (fun h ↦ ?_) fun h ↦ ?_
    · simpa using hok
    · simpa using herr _ (.inl h) (some []) (by tauto)
    · simpa using herr _ (.inr (.inl h)) (some data) (by tauto)
    · simpa using herr _ (.inr (.inr h)) (some []) (by tauto)
  · exact herr _ (.inl h) none (by tauto)
  · simpa using herr _ (.inr (.inl h)) (some []) (by tauto)
  · exact herr _ (.inr (.inr h)) none (by tauto)

/-- A program repeated over a list keeps what each turn keeps. -/
theorem wp_forEach {α : Type} {f : α → FsProg TxnRam Unit} {l : List α} {I : FsState TxnRam → Prop}
    (hI : I s) (hstep : ∀ a ∈ l, ∀ s', I s' → wp A (f a) (fun _ ↦ I) E s') :
    wp A (forEach f l) (fun _ ↦ I) E s := by
  induction l generalizing s with
  | nil => exact wp_pure hI
  | cons a l ih =>
    refine wp_then (hstep a (mem_cons_self ..) s hI) fun _ s' hs' ↦ ?_
    exact ih hs' fun b hb ↦ hstep b (mem_cons_of_mem _ hb)

/-- A program repeated over a list does for each element what one turn does for its own, if no turn
undoes another. -/
theorem wp_forEach_all {α : Type} {f : α → FsProg TxnRam Unit} {l : List α}
    {I : FsState TxnRam → Prop} {R : α → FsState TxnRam → Prop} (hI : I s)
    (hstep : ∀ a ∈ l, ∀ s', I s' →
      wp A (f a) (fun _ s'' ↦ I s'' ∧ R a s'' ∧ ∀ b, R b s' → R b s'') E s') :
    wp A (forEach f l) (fun _ s' ↦ I s' ∧ (∀ b, R b s → R b s') ∧ ∀ a ∈ l, R a s') E s := by
  induction l generalizing s with
  | nil => exact wp_pure ⟨hI, fun _ h ↦ h, nofun⟩
  | cons a l ih =>
    refine wp_then (hstep a (mem_cons_self ..) s hI) ?_
    rintro - s₁ ⟨hs₁, ha, hothers⟩
    refine wp_mono (ih hs₁ fun b hb ↦ hstep b (mem_cons_of_mem _ hb)) ?_ fun _ _ h ↦ h
    rintro - s₂ ⟨hs₂, hkept, hall⟩
    refine ⟨hs₂, fun b hb ↦ hkept b (hothers b hb), fun b hb ↦ ?_⟩
    rcases mem_cons.mp hb with rfl | hb
    · exact hkept b ha
    · exact hall b hb

/-- Aborting returns the error it is given, and changes at most the record files it rolls back. -/
theorem wp_containerAbort {α : Type} {newRecordFids : List ℕ} {r : Status}
    {Q : α → FsState TxnRam → Prop} {I : FsState TxnRam → Prop} (hI : I s)
    (hstep : ∀ s', I s' → ∀ fid ∈ newRecordFids, I (s'.setFile fid none))
    (hcode : ∀ s', I s' → E (.code r) s') (hcut : A .cut → ∀ s', I s' → E .cut s') :
    wp A (containerAbort layout newRecordFids r : FsProg TxnRam α) Q E s := by
  unfold containerAbort
  split_ifs
  · refine wp_seq (wp_forEach (E := fun e s' ↦ e = .cut ∧ A .cut ∧ I s') hI
      fun fid hfid s' hs' ↦ wp_fileDeleteQuietly (hstep s' hs' fid hfid) (fun _ ↦ hs')
        fun h ↦ ⟨rfl, h, hs'⟩) (fun _ s' hs' ↦ wp_fail (hcode s' hs')) ?_
    · rintro e s' ⟨rfl, h, hs'⟩
      exact hcut h s' hs'
  · exact wp_fail (hcode s hI)

end Files

/-! ### The manifest under construction -/

section Place

variable {object : FileObjectDescriptor} {objects : List FileObjectDescriptor}

theorem map_key_placeObject :
    (placeObject object objects).map (·.key) =
      if object.key ∈ objects.map (·.key) then objects.map (·.key)
      else objects.map (·.key) ++ [object.key] := by
  induction objects with
  | nil => simp [placeObject]
  | cons found rest ih =>
    by_cases hkey : found.key = object.key
    · simp [placeObject, hkey]
    · have hne : object.key ≠ found.key := Ne.symm hkey
      simp only [placeObject, hkey, if_false, map_cons, ih, mem_cons, hne, false_or]
      split_ifs <;> simp

theorem length_placeObject : (placeObject object objects).length =
    if object.key ∈ objects.map (·.key) then objects.length else objects.length + 1 := by
  have hlen := congrArg List.length (@map_key_placeObject object objects)
  rw [length_map] at hlen
  rw [hlen]
  split_ifs <;> simp

theorem nodup_key_placeObject (h : (objects.map (·.key)).Nodup) :
    ((placeObject object objects).map (·.key)).Nodup := by
  rw [map_key_placeObject]
  split_ifs with hmem
  · exact h
  · exact nodup_append.mpr ⟨h, nodup_singleton _, by
      rintro a ha b hb rfl
      rw [mem_singleton] at hb
      exact hmem (hb ▸ ha)⟩

/-- An object that is placed replaces the one of its key. -/
theorem mem_placeObject (h : (objects.map (·.key)).Nodup) {o : FileObjectDescriptor} :
    o ∈ placeObject object objects ↔ o = object ∨ o ∈ objects ∧ o.key ≠ object.key := by
  induction objects with
  | nil => simp [placeObject]
  | cons found rest ih =>
    rw [map_cons, nodup_cons] at h
    by_cases hkey : found.key = object.key
    · -- the object found is the only one of its key
      have hrest : ∀ o ∈ rest, o.key ≠ object.key := by
        intro o ho hok
        exact h.1 (hkey ▸ hok ▸ mem_map_of_mem ho)
      simp only [placeObject, hkey, if_true, mem_cons]
      constructor
      · rintro (rfl | ho)
        · exact .inl rfl
        · exact .inr ⟨.inr ho, hrest o ho⟩
      · rintro (rfl | ⟨rfl | ho, hne⟩)
        · exact .inl rfl
        · exact absurd hkey hne
        · exact .inr ho
    · simp only [placeObject, hkey, if_false, mem_cons, ih h.2]
      constructor
      · rintro (rfl | rfl | ⟨ho, hne⟩)
        · exact .inr ⟨.inl rfl, hkey⟩
        · exact .inl rfl
        · exact .inr ⟨.inr ho, hne⟩
      · rintro (rfl | ⟨rfl | ho, hne⟩)
        · exact .inr (.inl rfl)
        · exact .inl rfl
        · exact .inr (.inr ⟨ho, hne⟩)

end Place

/-- The data of the objects after some writes. -/
def valAfter (val : UInt16 × UInt16 → Bytes) (writes : List FileObjectContainerWrite)
    (key : UInt16 × UInt16) : Bytes :=
  match writes.find? (·.key == key) with
  | some write => write.data
  | none => val key

theorem valAfter_append_of_ne {val : UInt16 × UInt16 → Bytes}
    {writes : List FileObjectContainerWrite} {write : FileObjectContainerWrite}
    {key : UInt16 × UInt16} (h : key ≠ write.key) :
    valAfter val (writes ++ [write]) key = valAfter val writes key := by
  have hne : (write.key == key) = false := by simpa using Ne.symm h
  simp only [valAfter, find?_append, find?_cons, hne, find?_nil, or_none]

theorem valAfter_append_self {val : UInt16 × UInt16 → Bytes}
    {writes : List FileObjectContainerWrite} {write : FileObjectContainerWrite}
    (h : ∀ earlier ∈ writes, earlier.key ≠ write.key) :
    valAfter val (writes ++ [write]) write.key = write.data := by
  have hnone : writes.find? (·.key == write.key) = none := by
    rw [find?_eq_none]
    intro earlier hmem
    simpa using h earlier hmem
  simp [valAfter, find?_append, hnone]

/-- The manifest under construction names intact records, and its keys are those there were and
those written. A record file that was not there at the start, in `start`, is one it names. -/
structure ManifestBuilding (layout : FileObjectContainerLayout) (cid : UInt32)
    (crypto : FileObjectContainerCrypto) (base : FileObjectManifest) (val : UInt16 × UInt16 → Bytes)
    (start : Files) (earlier : List FileObjectContainerWrite) (files : Files)
    (next : FileObjectManifest) : Prop where
  eq_base : next = { base with objects := next.objects }
  records : ∀ object ∈ next.objects,
    RecordHolds layout cid crypto files next object (valAfter val earlier object.key)
  keys : ∀ key, key ∈ next.objects.map (·.key) ↔
    key ∈ base.objects.map (·.key) ∨ ∃ write ∈ earlier, write.key = key
  nodup : (next.objects.map (·.key)).Nodup
  origin : ∀ object ∈ next.objects, object ∈ base.objects ∨
    object.extensionSize = 0 ∧ ∃ write ∈ earlier, write.key = object.key
  present : ∀ fid, ContainerFid layout cid fid → files fid ≠ none → start fid ≠ none ∨
    ∃ object ∈ next.objects, layout.recordFid cid object = .ok fid
  persists : ∀ fid, ContainerFid layout cid fid → start fid ≠ none → files fid ≠ none
  recordId_eq : ∀ object ∈ next.objects, object ∈ base.objects ∨
    ∀ object' fid, layout.descriptorValid cid object' = true →
      layout.recordFid cid object' = .ok fid →
      layout.recordFid cid object = .ok fid → start fid ≠ none →
        object'.recordId = object.recordId
  length_le : next.objects.length ≤ manifestMaxObjects

theorem RecordHolds.present {manifest : FileObjectManifest} {object : FileObjectDescriptor}
    {data : Bytes} {files : Files} (h : RecordHolds layout cid crypto files manifest object data)
    {fid : ℕ} (hfid : layout.recordFid cid object = .ok fid) : files fid ≠ none := by
  obtain ⟨policyHash, fid', -, hfid', hfile⟩ := h.stored
  rw [hfid] at hfid'
  cases hfid'
  simp [hfile]

/-- Nothing has been written yet. -/
theorem ManifestBuilding.start {base : FileObjectManifest} {val : UInt16 × UInt16 → Bytes}
    {files : Files} (hnodup : (base.objects.map (·.key)).Nodup)
    (hlen : base.objects.length ≤ manifestMaxObjects) (hrecords : ∀ object ∈ base.objects,
      RecordHolds layout cid crypto files base object (val object.key)) :
    ManifestBuilding layout cid crypto base val files [] files base where
  eq_base := rfl
  records := hrecords
  keys key := by simp
  nodup := hnodup
  origin object hobject := .inl hobject
  present fid _ hfile := .inl hfile
  persists fid _ hfile := hfile
  recordId_eq object hobject := .inl hobject
  length_le := hlen

/-! ### Writing the records -/

/-- Protected files are as they were. -/
def Kept (keep : ℕ → Prop) (s s' : FsState TxnRam) : Prop :=
  ∀ fid, keep fid → s'.files fid = s.files fid

theorem Kept.setFile {keep : ℕ → Prop} {s s' : FsState TxnRam} (h : Kept keep s s') {fid : ℕ}
    (hfid : ¬keep fid) (c : Option Bytes) : Kept keep s (s'.setFile fid c) := by
  intro f hf
  have hne : f ≠ fid := fun heq ↦ hfid (heq ▸ hf)
  rw [FsState.files_setFile, Files.set_of_ne _ _ hne]
  exact h f hf

section Records

variable {Allowed : FileObjectContainerWrite → Prop}
  (spec : ContainerLayoutSpec layout cid Allowed) {A : Outcome → Prop} {P : Prop}
  {keep : ℕ → Prop} (hkeep : ∀ fid, keep fid → ContainerFid layout cid fid)
  {targetSlot : Fin 2}

/-- What has to be known of the writes: the layout allocates no protected file for them, and where
one of them is refused, `P` is the case. -/
structure WritesOk (layout : FileObjectContainerLayout) (cid : UInt32)
    (crypto : FileObjectContainerCrypto) (Allowed : FileObjectContainerWrite → Prop)
    (A : Outcome → Prop) (P : Prop) (keep : ℕ → Prop) (targetSlot : Fin 2) (files : Files)
    (write : FileObjectContainerWrite) : Prop where
  allowed : Allowed write
  fresh : layout.writeValid write = true →
    ∀ s : FsState TxnRam, (∀ fid, keep fid → s.files fid = files fid) →
      ∀ os r, (layout.recordAllocate cid targetSlot write crypto.auth).result s os = .ok r →
      ¬keep r.2
  allocates : layout.writeValid write = true → ∀ s,
    wp A (layout.recordAllocate cid targetSlot write crypto.auth)
      (fun _ _ ↦ True) (fun _ _ ↦ Faulty A P) s
  policy : ∀ r, layout.policyHash write.policyId = .error r → P
  length : write.data.length > UINT32_MAX - recordHeaderSize - authTagSize → P
  core : ∀ generation recordId, generation ≠ 0 → recordId ≠ 0 →
    (write.descriptor generation recordId).coreValid = false → P
  valid : layout.writeValid write = false → P

/-- The record of a write has been written. -/
structure RecordWritten (layout : FileObjectContainerLayout) (cid : UInt32)
    (crypto : FileObjectContainerCrypto) (keep : ℕ → Prop) (write : FileObjectContainerWrite)
    (generation : UInt32) (next : FileObjectManifest) (s s' : FsState TxnRam)
    (r : FileObjectDescriptor × ℕ) : Prop where
  descriptor_eq : ∃ recordId, r.1 = write.descriptor generation recordId
  not_keep : ¬keep r.2
  recordFid_eq : layout.recordFid cid r.1 = .ok r.2
  holds : RecordHolds layout cid crypto s'.files next r.1 write.data
  frame : ∀ fid, ContainerFid layout cid fid → fid ≠ r.2 → s'.files fid = s.files fid
  disjoint : ∀ object fid, layout.descriptorValid cid object = true →
    RecordIdAllocated layout cid object → layout.recordFid cid object = .ok fid →
    s.files fid ≠ none → object.key ≠ write.key → fid ≠ r.2
  recordId_eq : ∀ object, layout.descriptorValid cid object = true →
    layout.recordFid cid object = .ok r.2 → s.files r.2 ≠ none →
      object.recordId = r.1.recordId

theorem RecordWritten.key_eq {write : FileObjectContainerWrite} {generation : UInt32}
    {next : FileObjectManifest} {s s' : FsState TxnRam} {r : FileObjectDescriptor × ℕ}
    (h : RecordWritten layout cid crypto keep write generation next s s' r) :
    r.1.key = write.key := by
  obtain ⟨recordId, hr⟩ := h.descriptor_eq
  rw [hr]
  rfl

theorem toNat_add_one {g : UInt32} (h : g ≠ 0xffffffff) : (g + 1).toNat = g.toNat + 1 := by
  have hlt := g.toNat_lt
  have hne : g.toNat ≠ 0xffffffff := fun heq ↦ h (UInt32.toNat_inj.mp heq)
  have hone : (1 : UInt32).toNat = 1 := rfl
  rw [UInt32.toNat_add]
  omega

include spec hkeep in
/-- **A record is written** to a file that need not be kept, and holds its data. -/
theorem wp_fileObjectContainerWriteRecord {write : FileObjectContainerWrite} {files : Files}
    (hwrite : WritesOk layout cid crypto Allowed A P keep targetSlot files write)
    (hvalid : layout.writeValid write = true) {generation : UInt32} (hgen : generation ≠ 0)
    {next : FileObjectManifest} {s : FsState TxnRam}
    (hs : ∀ fid, keep fid → s.files fid = files fid) :
    wp A (fileObjectContainerWriteRecord layout cid targetSlot write generation next crypto)
      (fun r s' ↦ RecordWritten layout cid crypto keep write generation next s s' r)
      (fun _ s' ↦ Kept keep s s' ∧ Faulty A P) s := by
  have halloc := wp_result (wp_and
    (spec.allocate A targetSlot write crypto.auth s hwrite.allowed hvalid) (hwrite.allocates hvalid s))
    (R := fun r ↦ ∃ os, (layout.recordAllocate cid targetSlot write crypto.auth).result s
      os = .ok r ∧ ¬keep r.2) fun os r hr ↦ ⟨os, hr, hwrite.fresh hvalid s hs os r hr⟩
  refine wp_seq halloc ?_ fun e s' h ↦ ⟨fun fid hfid ↦ h.1 fid (hkeep fid hfid), h.2⟩
  rintro ⟨recordId, recordFid⟩ s₁ ⟨⟨⟨huntouched, hallocated⟩, -⟩, os, hresult, hfresh⟩
  have hkept : Kept keep s s₁ := fun fid hfid ↦ huntouched fid (hkeep fid hfid)
  refine wp_lift (fun policyHash hpolicy ↦ ?_) fun r hr ↦ ⟨hkept, .of_prop (hwrite.policy r hr)⟩
  refine wp_ite (fun hlen ↦ wp_bind (wp_fail ⟨hkept, .of_prop (hwrite.length hlen)⟩)) fun hlen ↦ ?_
  have hsize : (UInt32.ofNat write.data.length).toNat = write.data.length := by
    rw [UInt32.toNat_ofNat']
    simp only [UINT32_MAX, recordHeaderSize, authTagSize] at hlen
    omega
  have hlogical : (write.descriptor generation recordId).logicalSize.toNat = write.data.length :=
    hsize
  refine wp_lift (fun record hrecord ↦ ?_) fun r hr ↦ ⟨hkept, .of_prop ?_⟩
  · rw [fileObjectRecordSeal_eq_ok] at hrecord
    obtain ⟨hlength, hstored, hcore, rfl⟩ := hrecord
    refine wp_bind (wp_fileObjectContainerReplaceFile (wp_pure ?_) fun e h c _ ↦ ⟨?_, ?_⟩)
    · refine ⟨⟨recordId, rfl⟩, hfresh, hallocated.recordFid_eq generation, ⟨hallocated.valid generation,
        ⟨targetSlot, write, crypto.auth, s, os, (recordId, recordFid), hvalid, rfl, hresult, rfl⟩,
          ⟨hcore, hlength, hstored⟩,
        policyHash, recordFid, hpolicy, hallocated.recordFid_eq generation, Files.set_self ..⟩,
        fun fid hfid hne ↦ ?_, hallocated.disjoint, hallocated.recordId_eq⟩
      rw [FsState.files_setFile, Files.set_of_ne _ _ hne]
      exact huntouched fid hfid
    · exact hkept.setFile hfresh c
    · rcases h with h | h | h
      · exact .of_fail h
      · exact .of_late h
      · exact .of_cut h
  · refine hwrite.core generation recordId hgen hallocated.recordId_ne ?_
    by_contra hcore
    rw [Bool.not_eq_false] at hcore
    have hok : fileObjectRecordSeal next (write.descriptor generation recordId) policyHash
        crypto.protector write.data = .ok _ :=
      fileObjectRecordSeal_eq_ok.mpr ⟨hlogical.symm, rfl, hcore, rfl⟩
    rw [hok] at hr
    cases hr

/-- Adding a written record to the manifest under construction. -/
theorem ManifestBuilding.place {base next : FileObjectManifest} {val : UInt16 × UInt16 → Bytes}
    {start : Files} {earlier : List FileObjectContainerWrite} {write : FileObjectContainerWrite}
    {s s' : FsState TxnRam} {generation : UInt32} {r : FileObjectDescriptor × ℕ}
    (hbase : ∀ object ∈ base.objects, ∀ fid, layout.recordFid cid object = .ok fid →
      start fid ≠ none)
    (hbuild : ManifestBuilding layout cid crypto base val start earlier s.files next)
    (hwritten : RecordWritten layout cid crypto keep write generation next s s' r)
    (hearlier : ∀ w ∈ earlier, w.key ≠ write.key)
    (hlen : (placeObject r.1 next.objects).length ≤ manifestMaxObjects) :
    ManifestBuilding layout cid crypto base val start (earlier ++ [write]) s'.files
      { next with objects := placeObject r.1 next.objects } := by
  have hkey := hwritten.key_eq
  refine ⟨?_, fun object hobject ↦ ?_, fun key ↦ ?_, nodup_key_placeObject hbuild.nodup,
    fun object hobject ↦ ?_, fun fid hfid hfile ↦ ?_, fun fid hfid hfile ↦ ?_,
    fun object hobject ↦ ?_, hlen⟩
  · conv_lhs => rw [hbuild.eq_base]
  · rcases (mem_placeObject hbuild.nodup).mp hobject with rfl | ⟨hmem, hne⟩
    · rw [hkey, valAfter_append_self hearlier]
      exact hwritten.holds.congr rfl rfl rfl fun _ _ ↦ rfl
    · -- the records of the other objects are other files
      rw [hkey] at hne
      rw [valAfter_append_of_ne hne]
      have hrecord := hbuild.records object hmem
      refine hrecord.congr rfl rfl rfl fun fid hfid ↦ ?_
      refine hwritten.frame fid (.inr ⟨object, hrecord.valid, hfid⟩) ?_
      exact hwritten.disjoint object fid hrecord.valid hrecord.allocated hfid
        (hrecord.present hfid) hne
  · have hkeys := hbuild.keys key
    rw [map_key_placeObject, hkey]
    split_ifs with hmem
    · rw [hkeys]
      constructor
      · rintro (h | ⟨w, hw, rfl⟩)
        · exact .inl h
        · exact .inr ⟨w, mem_append_left _ hw, rfl⟩
      · rintro (h | ⟨w, hw, rfl⟩)
        · exact .inl h
        · rcases mem_append.mp hw with hw | hw
          · exact .inr ⟨w, hw, rfl⟩
          · rw [mem_singleton] at hw
            subst hw
            exact (hbuild.keys w.key).mp hmem
    · rw [mem_append, hkeys, mem_singleton]
      constructor
      · rintro ((h | ⟨w, hw, rfl⟩) | rfl)
        · exact .inl h
        · exact .inr ⟨w, mem_append_left _ hw, rfl⟩
        · exact .inr ⟨write, by simp, rfl⟩
      · rintro (h | ⟨w, hw, rfl⟩)
        · exact .inl (.inl h)
        · rcases mem_append.mp hw with hw | hw
          · exact .inl (.inr ⟨w, hw, rfl⟩)
          · rw [mem_singleton] at hw
            exact .inr (by rw [hw])
  · rcases (mem_placeObject hbuild.nodup).mp hobject with rfl | ⟨hmem, -⟩
    · obtain ⟨recordId, hr⟩ := hwritten.descriptor_eq
      exact .inr ⟨by rw [hr]; rfl, write, by simp, hkey.symm⟩
    · rcases hbuild.origin object hmem with hbase | ⟨hext, w, hw, hwkey⟩
      · exact .inl hbase
      · exact .inr ⟨hext, w, mem_append_left _ hw, hwkey⟩
  · by_cases heq : fid = r.2
    · exact .inr ⟨r.1, (mem_placeObject hbuild.nodup).mpr (.inl rfl), heq ▸ hwritten.recordFid_eq⟩
    · rw [hwritten.frame fid hfid heq] at hfile
      rcases hbuild.present fid hfid hfile with hstart | ⟨object, hobject, hrecordFid⟩
      · exact .inl hstart
      · -- an object that is replaced is one there was at the start
        by_cases hreplaced : object.key = r.1.key
        · rcases hbuild.origin object hobject with hmem | ⟨-, w, hw, hwkey⟩
          · exact .inl (hbase object hmem fid hrecordFid)
          · exact absurd (hwkey.trans (hreplaced.trans hkey)) (hearlier w hw)
        · exact .inr ⟨object, (mem_placeObject hbuild.nodup).mpr (.inr ⟨hobject, hreplaced⟩),
            hrecordFid⟩
  · by_cases heq : fid = r.2
    · exact heq ▸ hwritten.holds.present hwritten.recordFid_eq
    · rw [hwritten.frame fid hfid heq]
      exact hbuild.persists fid hfid hfile
  · rcases (mem_placeObject hbuild.nodup).mp hobject with rfl | ⟨hmem, -⟩
    · refine .inr fun object' fid hvalid hfid' hfid hstart ↦ ?_
      rw [hwritten.recordFid_eq] at hfid
      cases hfid
      exact hwritten.recordId_eq object' hvalid hfid'
        (hbuild.persists _ (.inr ⟨object', hvalid, hfid'⟩) hstart)
    · exact hbuild.recordId_eq object hmem

/-- The writes as a whole: their own fields, their keys and the room in the manifest. Where one of
these is not in order, `P` is the case. -/
structure BatchOk (P : Prop) (objects : List FileObjectDescriptor)
    (writes : List FileObjectContainerWrite) : Prop where
  fields : ∀ write ∈ writes, (write.objectType == 0 || write.objectType == 0xffff ||
    (write.flags &&& flagInline) != 0) = true → P
  nodup : ¬(writes.map (·.key)).Nodup → P
  generation : ∀ object ∈ objects, (∃ write ∈ writes, write.key = object.key) →
    object.generation = 0xffffffff → P
  room : manifestMaxObjects < (objects.map (·.key) ++ writes.map (·.key)).dedup.length → P

include spec hkeep in
/-- **Writing all the records**, by induction on the writes that are left. Until the last one is
done nothing protected has changed, so that stopping anywhere leaves the protected files alone. -/
theorem wp_containerWriteRecords {base : FileObjectManifest} {val : UInt16 × UInt16 → Bytes}
    {start files : Files} (hbase : ∀ object ∈ base.objects, ∀ fid,
      layout.recordFid cid object = .ok fid → start fid ≠ none)
    (writes : List FileObjectContainerWrite) :
    ∀ {earlier : List FileObjectContainerWrite} {next : FileObjectManifest}
      {newRecordFids : List ℕ} {s : FsState TxnRam},
    (∀ write ∈ writes, WritesOk layout cid crypto Allowed A P keep targetSlot files write) →
    BatchOk P base.objects (earlier ++ writes) →
    ManifestBuilding layout cid crypto base val start earlier s.files next →
    (∀ fid, keep fid → s.files fid = files fid) → (∀ fid ∈ newRecordFids, ¬keep fid) →
    wp A (containerWriteRecords layout cid targetSlot crypto earlier writes next newRecordFids)
      (fun r s' ↦ ManifestBuilding layout cid crypto base val start (earlier ++ writes)
        s'.files r.1 ∧ (∀ fid, keep fid → s'.files fid = files fid) ∧ ∀ fid ∈ r.2, ¬keep fid)
      (fun _ s' ↦ (∀ fid, keep fid → s'.files fid = files fid) ∧ Faulty A P) s := by
  induction writes with
  | nil =>
    intro earlier next newRecordFids s _ _ hbuild hs hfids
    exact wp_pure ⟨by simpa using hbuild, hs, hfids⟩
  | cons write writes ih =>
    intro earlier next newRecordFids s hok hbatch hbuild hs hfids
    have habort {α : Type} {fids : List ℕ} {r : Status} {s' : FsState TxnRam}
        {Q : α → FsState TxnRam → Prop} (hs' : ∀ fid, keep fid → s'.files fid = files fid)
        (hfids : ∀ fid ∈ fids, ¬keep fid) (hfaulty : Faulty A P) :
        wp A (containerAbort layout fids r : FsProg TxnRam α) Q
          (fun _ s' ↦ (∀ fid, keep fid → s'.files fid = files fid) ∧ Faulty A P) s' := by
      refine wp_containerAbort (I := fun s' ↦ ∀ fid, keep fid → s'.files fid = files fid) hs'
        (fun s'' hs'' fid hfid f hf ↦ ?_) (fun _ h ↦ ⟨h, hfaulty⟩) fun _ _ h ↦ ⟨h, hfaulty⟩
      have hne : f ≠ fid := fun heq ↦ hfids fid hfid (heq ▸ hf)
      rw [FsState.files_setFile, Files.set_of_ne _ _ hne, hs'' f hf]
    have hwrite := hok write (mem_cons_self ..)
    have hearlier : (∀ w ∈ earlier, w.key ≠ write.key) ∨ P := by
      by_cases hnodup : ((earlier ++ write :: writes).map (·.key)).Nodup
      · left
        intro w hw heq
        rw [map_append, map_cons, nodup_append] at hnodup
        exact hnodup.2.2 w.key (mem_map_of_mem hw) write.key (mem_cons_self ..) heq
      · exact .inr (hbatch.nodup hnodup)
    refine wp_ite (fun hrefused ↦ wp_bind (habort hs hfids (.of_prop ?_))) fun hpassed ↦ ?_
    · -- a refused write
      rcases hearlier with hearlier | hP
      · rw [Bool.or_eq_true, containerWriteRefused, Bool.or_eq_true, Bool.or_eq_true] at hrefused
        rcases hrefused with ((hfields | hvalid) | hdup) | hmax
        · exact hbatch.fields write (by simp) hfields
        · exact hwrite.valid (by simpa using hvalid)
        · obtain ⟨w, hw, hkey⟩ := any_eq_true.mp hdup
          exact absurd (by simpa using hkey) (hearlier w hw)
        · obtain ⟨object, hobject, hgen⟩ := (any_eq_true _ _).mp hmax
          obtain ⟨hmem, hkey⟩ := mem_of_containerFind hobject
          rcases hbuild.origin object hmem with hbase | ⟨-, w, hw, hwkey⟩
          · exact hbatch.generation object hbase ⟨write, by simp, hkey.symm⟩ (by simpa using hgen)
          · exact absurd (hwkey.trans hkey) (hearlier w hw)
      · exact hP
    rw [Bool.or_eq_true, not_or, containerWriteRefused, Bool.or_eq_true, Bool.or_eq_true, not_or,
      not_or] at hpassed
    obtain ⟨⟨⟨-, hvalid⟩, hdup⟩, hmax⟩ := hpassed
    have hvalid : layout.writeValid write = true := by simpa using hvalid
    have hearlier : ∀ w ∈ earlier, w.key ≠ write.key := by
      intro w hw hkey
      exact hdup (any_eq_true.mpr ⟨w, hw, by simpa using hkey⟩)
    have hgen : nextObjectGeneration (fileObjectContainerFind next write.objectType
        write.objectTag) ≠ 0 := by
      rcases hfind : fileObjectContainerFind next write.objectType write.objectTag with - | object
      · decide
      · rw [hfind] at hmax
        intro hzero
        have hsum := @toNat_add_one object.generation fun h ↦ hmax (by simp [h])
        rw [show object.generation + 1 = 0 from hzero] at hsum
        simp at hsum
    refine wp_bind (wp_onError (wp_mono
      (wp_fileObjectContainerWriteRecord spec hkeep hwrite hvalid hgen hs) ?_ ?_))
    · rintro ⟨replacement, recordFid⟩ s₁ hwritten
      have hs₁ : ∀ fid, keep fid → s₁.files fid = files fid := by
        intro fid hfid
        have hne : fid ≠ recordFid := fun heq ↦ hwritten.not_keep (heq ▸ hfid)
        rw [hwritten.frame fid (hkeep fid hfid) hne, hs fid hfid]
      have hfids₁ : ∀ fid ∈ newRecordFids ++ [recordFid], ¬keep fid := by
        intro fid hfid
        rcases mem_append.mp hfid with h | h
        · exact hfids fid h
        · rw [mem_singleton] at h
          exact h ▸ hwritten.not_keep
      have hkey : replacement.key = write.key := hwritten.key_eq
      have hfound : (fileObjectContainerFind next write.objectType write.objectTag).isNone = true ↔
          replacement.key ∉ next.objects.map (·.key) := by
        rw [hkey, isNone_iff_eq_none, fileObjectContainerFind, find?_eq_none]
        simp [FileObjectContainerWrite.key]
      have hlen := hbuild.length_le
      refine wp_ite (fun hfull ↦ wp_bind (habort hs₁ hfids₁ (.of_prop (hbatch.room ?_))))
        fun hroom ↦ ?_
      · -- with this object there would be one too many
        rw [Bool.and_eq_true, decide_eq_true_eq, hfound, hkey] at hfull
        have hnew := hfull.1
        have hsub : next.objects.map (·.key) ++ [write.key] ⊆
            (base.objects.map (·.key) ++ (earlier ++ write :: writes).map (·.key)).dedup := by
          intro key hkey
          rw [mem_dedup, mem_append]
          rcases mem_append.mp hkey with h | h
          · rcases (hbuild.keys key).mp h with h | ⟨w, hw, rfl⟩
            · exact .inl h
            · exact .inr (mem_map_of_mem (mem_append_left _ hw))
          · rw [mem_singleton] at h
            exact .inr (mem_map.mpr ⟨write, by simp, h.symm⟩)
        have hnodup : (next.objects.map (·.key) ++ [write.key]).Nodup := by
          refine nodup_append.mpr ⟨hbuild.nodup, nodup_singleton _, ?_⟩
          rintro a ha b hb rfl
          rw [mem_singleton] at hb
          exact hnew (hb ▸ ha)
        have hlen := (subperm_of_subset hnodup hsub).length_le
        simp only [length_append, length_map, length_singleton] at hlen
        omega
      · have hbuild₁ := hbuild.place hbase hwritten hearlier (by
          rw [Bool.and_eq_true, decide_eq_true_eq, hfound] at hroom
          rw [length_placeObject]
          split_ifs with hmem
          · exact hlen
          · have hlt := not_and.mp hroom hmem
            omega)
        have hbatch₁ : BatchOk P base.objects ((earlier ++ [write]) ++ writes) := by simpa using hbatch
        have hrest := ih (fun w hw ↦ hok w (mem_cons_of_mem _ hw)) hbatch₁ hbuild₁ hs₁ hfids₁
        simpa using hrest
    · rintro (r | -) s₁ ⟨hkept, hfaulty⟩
      · exact habort (fun fid hfid ↦ (hkept fid hfid).trans (hs fid hfid)) hfids hfaulty
      · exact ⟨fun fid hfid ↦ (hkept fid hfid).trans (hs fid hfid), hfaulty⟩

end Records

end PicoAll
