import PicoAll.Fs.ObjectContainerUpdate

/-!
# What an update, a removal and a deletion leave behind

The commit of an update is the write of one file, the next manifest. Up to it, what the container
holds is what it held, as long as the record files of the current manifest are protected; from it
on, the container holds the next manifest, whatever becomes of the clean-up.
-/

namespace PicoAll

open FaultProgram BigEndian ContainerHolds List Bool

variable {layout : FileObjectContainerLayout} {cid : UInt32}
  {crypto : FileObjectContainerCrypto} {legacy : Option FileObjectContainerCrypto}

/-! ### Sorting -/

instance : Std.Total keyLe where
  total a b := by
    simp only [keyLe, keyLt, Bool.or_eq_false_iff, Bool.and_eq_false_iff, decide_eq_false_iff_not,
      beq_eq_false_iff_ne, UInt16.not_lt, ne_eq]
    rcases UInt16.le_total a.key.1 b.key.1 with h | h <;>
      rcases UInt16.le_total a.key.2 b.key.2 with h' | h' <;> grind

instance : IsTrans FileObjectDescriptor keyLe where
  trans a b c := by
    simp only [keyLe, keyLt, Bool.or_eq_false_iff, Bool.and_eq_false_iff, decide_eq_false_iff_not,
      beq_eq_false_iff_ne, UInt16.not_lt, ne_eq]
    grind

theorem keyLt_of_keyLe {a b : FileObjectDescriptor} (h : keyLe a b) (hne : a.key ≠ b.key) :
    keyLt a.key b.key = true := by
  simp only [keyLe, keyLt, or_eq_false_iff, and_eq_false_iff, decide_eq_false_iff_not,
    beq_eq_false_iff_ne, UInt16.not_lt, ne_eq] at h
  simp only [keyLt, or_eq_true, decide_eq_true_eq, and_eq_true, beq_iff_eq]
  by_cases h1 : a.key.1 = b.key.1
  · have h2 : a.key.2 ≠ b.key.2 := fun h2 ↦ hne (Prod.ext h1 h2)
    grind
  · grind

variable {objects : List FileObjectDescriptor} {base next : FileObjectManifest} {files' : Files}
  {keys : UInt16 × UInt16 → Prop}

/-- Sorting objects of different keys puts them in strict order. -/
theorem descriptorsSorted_insertionSort (hnodup : (objects.map (·.key)).Nodup) :
    descriptorsSorted (objects.insertionSort keyLe) = true := by
  have hperm := (perm_insertionSort keyLe objects).map (·.key)
  have hne := pairwise_map.mp (hperm.nodup_iff.mpr hnodup)
  rw [descriptorsSorted_iff_pairwise]
  exact List.Pairwise.imp₂ (fun _ _ hle hne ↦ keyLt_of_keyLe hle hne)
    (pairwise_insertionSort _ _) hne

/-- Sorted objects have different keys. -/
theorem nodup_key_of_sorted (h : descriptorsSorted objects = true) :
    (objects.map (·.key)).Nodup := by
  rw [descriptorsSorted_iff_pairwise] at h
  refine pairwise_map.mpr (h.imp fun {a b} hab heq ↦ ?_)
  rw [heq] at hab
  simp [keyLt] at hab

/-! ### Where an update starts -/

/-- What a container is at: nothing, or a manifest in a slot, with the data of its objects. -/
def ContainerIs (layout : FileObjectContainerLayout) (cid : UInt32)
    (crypto : FileObjectContainerCrypto) (files : Files) (val : UInt16 × UInt16 → Bytes) :
    Option (Fin 2 × FileObjectManifest) → Prop
  | none => ContainerAbsent layout cid files
  | some (slot, manifest) => ContainerHolds layout cid crypto files slot manifest val

/-- The objects of what a container is at. -/
def currentObjects : Option (Fin 2 × FileObjectManifest) → List FileObjectDescriptor
  | none => []
  | some (_, manifest) => manifest.objects

/-- The generation of what a container is at. -/
def currentGeneration : Option (Fin 2 × FileObjectManifest) → UInt32
  | none => 0
  | some (_, manifest) => manifest.generation

/-- The loaded state an update goes on from. -/
structure UpdateStart (layout : FileObjectContainerLayout) (cid : UInt32)
    (crypto : FileObjectContainerCrypto) (files : Files)
    (current : Option (Fin 2 × FileObjectManifest)) (state : Option FileObjectContainerState) :
    Prop where
  current_eq : state.map (·.current) = current
  crypto_eq : (state.map (·.crypto)).getD crypto = crypto
  candidate_eq : ∀ slot manifest, current = some (slot, manifest) →
    state.bind (·.candidates slot) = some manifest
  framed : ∀ slot manifest, state.bind (·.candidates slot) = some manifest →
    ∀ object ∈ manifest.objects, ObjectFramed layout cid files object

theorem eq_rev_of_ne : ∀ slot slot' : Fin 2, slot ≠ slot' → slot = slot'.rev := by
  decide

variable {files : Files} {val : UInt16 × UInt16 → Bytes}
  {current : Option (Fin 2 × FileObjectManifest)}

theorem ContainerIs.updateState (hlayout : fileObjectContainerLayoutValid layout = true)
    (h : ContainerIs layout cid crypto files val current) (validateRecords : Bool) :
    ∃ state, containerUpdateState layout cid files crypto legacy validateRecords =
      .ok state ∧ UpdateStart layout cid crypto files current state := by
  rcases current with - | ⟨slot, manifest⟩
  · refine ⟨none, ?_, rfl, rfl, nofun, nofun⟩
    rw [containerUpdateState, ContainerAbsent.load hlayout h]
  · obtain ⟨state, hload, hstate⟩ := @ContainerHolds.load _ _ _ legacy _ _ _ _ hlayout h
    refine ⟨some state, ?_, ?_, hstate.crypto_eq, ?_, hstate.framed⟩
    · rw [containerUpdateState, hload]
      cases validateRecords
      · rfl
      · simp [selectValid h hstate]
    · rw [Option.map_some, hstate.current_eq]
    · rintro _ _ ⟨⟩
      exact hstate.candidate_eq h

/-- The slot the next manifest goes to. -/
abbrev targetSlot (current : Option (Fin 2 × FileObjectManifest)) : Fin 2 :=
  containerTargetSlot (current.map (·.1))

section

variable {state : Option FileObjectContainerState}
  (h : UpdateStart layout cid crypto files current state)
include h

theorem UpdateStart.slot_eq :
    containerTargetSlot (state.map (·.current.1)) = targetSlot current := by
  rw [targetSlot, ← h.current_eq, Option.map_map]
  rfl

theorem UpdateStart.manifest_eq : state.map (·.current.2) = current.map (·.2) := by
  rw [← h.current_eq, Option.map_map]
  rfl

end

/-- The manifest an update starts from has the current objects and the next generation. -/
structure NextBase (layout : FileObjectContainerLayout) (cid : UInt32)
    (current : Option (Fin 2 × FileObjectManifest)) (base : FileObjectManifest) : Prop where
  objects_eq : base.objects = currentObjects current
  namespaceId_eq : base.namespaceId = layout.namespaceId
  containerKind_eq : base.containerKind = layout.containerKind
  containerId_eq : base.containerId = cid
  extensionSize_eq : base.extensionSize = 0
  generation_eq : base.generation.toNat = (currentGeneration current).toNat + 1
  previous_eq : base.previousGeneration = currentGeneration current

section

variable (h : ContainerIs layout cid crypto files val current)
include h

theorem ContainerIs.nextManifest :
    currentGeneration current = 0xffffffff ∨
      ∃ base, containerNextManifest layout cid (current.map (·.2)) = .ok base ∧
        NextBase layout cid current base := by
  rcases current with - | ⟨slot, manifest⟩
  · exact .inr ⟨_, rfl, rfl, rfl, rfl, rfl, rfl, rfl, rfl⟩
  · by_cases hgen : manifest.generation = 0xffffffff
    · exact .inl hgen
    · have hfile := manifestFile h
      have hext : (manifest.objects.any (·.extensionSize != 0)) = false := by
        rw [any_eq_false]
        intro object hobject
        simp [FileObjectDescriptor.extensionSize_of_valid (hfile.built.valid object hobject)]
      refine .inr ⟨{ manifest with
          previousGeneration := manifest.generation
          generation := manifest.generation + 1 }, ?_, rfl, hfile.namespaceId_eq,
        hfile.containerKind_eq, hfile.containerId_eq, hfile.extensionSize_eq, toNat_add_one hgen,
        rfl⟩
      simp [containerNextManifest, hgen, hfile.extensionSize_eq, hext]

theorem ContainerIs.nextBase
    (hbase : containerNextManifest layout cid (current.map (·.2)) = .ok base) :
    NextBase layout cid current base := by
  rcases h.nextManifest with hexhausted | ⟨base', hbase', hnext⟩
  · rcases current with - | ⟨slot, manifest⟩
    · exact absurd hexhausted (by decide)
    · simp [containerNextManifest, show manifest.generation = 0xffffffff from hexhausted] at hbase
  · cases hbase'.symm.trans hbase
    exact hnext

theorem ContainerIs.exhausted {r : Status}
    (hrefused : containerNextManifest layout cid (current.map (·.2)) = .error r) :
    currentGeneration current = 0xffffffff := by
  refine h.nextManifest.resolve_right fun ⟨base, hbase, _⟩ ↦ ?_
  cases hbase.symm.trans hrefused

theorem ContainerIs.nodup :
    ((currentObjects current).map (·.key)).Nodup := by
  rcases current with - | ⟨slot, manifest⟩
  · exact nodup_nil
  · exact nodup_key_of_sorted (manifestFile h).built.sorted

theorem ContainerIs.length_le :
    (currentObjects current).length ≤ manifestMaxObjects := by
  rcases current with - | ⟨slot, manifest⟩
  · exact Nat.zero_le _
  · exact (manifestFile h).built.length_le

theorem ContainerIs.records (hbase : NextBase layout cid current base) :
    ∀ object ∈ base.objects,
      RecordHolds layout cid crypto files base object (val object.key) := by
  intro object hobject
  rw [hbase.objects_eq] at hobject
  rcases current with - | ⟨slot, manifest⟩
  · cases hobject
  · have hfile := manifestFile h
    refine (records h object hobject).congr ?_ ?_ ?_ fun _ _ ↦ rfl
    · rw [hbase.namespaceId_eq, hfile.namespaceId_eq]
    · rw [hbase.containerKind_eq, hfile.containerKind_eq]
    · rw [hbase.containerId_eq, hfile.containerId_eq]

end

/-! ### Committing a manifest -/

/-- **An update took place**: the container holds the next manifest. -/
structure Updated (layout : FileObjectContainerLayout) (cid : UInt32)
    (crypto : FileObjectContainerCrypto) (current : Option (Fin 2 × FileObjectManifest))
    (keys : UInt16 × UInt16 → Prop) (val : UInt16 × UInt16 → Bytes) (files : Files)
    (next : FileObjectManifest) : Prop where
  holds : ContainerHolds layout cid crypto files (targetSlot current)
    next val
  generation_eq : next.generation.toNat = (currentGeneration current).toNat + 1
  previous_eq : next.previousGeneration = currentGeneration current
  keys : ∀ key, key ∈ next.objects.map (·.key) ↔ keys key

/-- The manifest about to be committed: everything about it but its file. -/
structure ReadyManifest (layout : FileObjectContainerLayout) (cid : UInt32)
    (crypto : FileObjectContainerCrypto) (current : Option (Fin 2 × FileObjectManifest))
    (keys : UInt16 × UInt16 → Prop) (val : UInt16 × UInt16 → Bytes) (files : Files)
    (next : FileObjectManifest) : Prop where
  base : NextBase layout cid current { next with objects := currentObjects current }
  objects_ne : next.objects ≠ []
  built : next.Built
  records : ∀ object ∈ next.objects,
    RecordHolds layout cid crypto files next object (val object.key)
  keys : ∀ key, key ∈ next.objects.map (·.key) ↔ keys key

theorem NextBase.generation_lt (h : NextBase layout cid current base) :
    currentGeneration current < base.generation := by
  rw [UInt32.lt_iff_toNat_lt, h.generation_eq]
  omega

/-- The other slot, seen from the target slot, is the current one. -/
theorem ContainerIs.other {generation : UInt32}
    (h : ContainerIs layout cid crypto files val current)
    (hlt : currentGeneration current < generation)
    (hfile : files' (layout.manifestFid cid (targetSlot current).rev) =
      files (layout.manifestFid cid (targetSlot current).rev)) :
    SlotEmpty layout cid files' (targetSlot current).rev ∨
      ∃ older, ManifestFile layout cid crypto files'
          (targetSlot current).rev older ∧
        older.generation < generation := by
  rcases current with - | ⟨slot, manifest⟩
  · exact .inl ((h _).congr hfile)
  · refine .inr ⟨manifest, ?_, hlt⟩
    have hrev : (containerTargetSlot ((some (slot, manifest)).map (·.1))).rev = slot := by
      simp [containerTargetSlot]
    rw [hrev] at hfile ⊢
    exact (manifestFile h).congr hfile

/-- **The commit**: with its file in the target slot, and the other slot as it was, the next manifest
is what the container holds. -/
theorem ReadyManifest.commit {val' : UInt16 × UInt16 → Bytes}
    (hmanifest : ∀ object fid slot, layout.descriptorValid cid object = true →
      layout.recordFid cid object = .ok fid → fid ≠ layout.manifestFid cid slot)
    (hne : ∀ slot : Fin 2, layout.manifestFid cid slot.rev ≠ layout.manifestFid cid slot)
    (hcurrent : ContainerIs layout cid crypto files val current)
    (hready : ReadyManifest layout cid crypto current keys val' files' next)
    (hother : files' (layout.manifestFid cid (targetSlot current).rev)
      = files (layout.manifestFid cid (targetSlot current).rev)) :
    Updated layout cid crypto current keys val'
      (files'.set (layout.manifestFid cid (targetSlot current))
        (some (next.bytes crypto.auth))) next where
  holds :=
    { manifestFile :=
        { file := Files.set_self ..
          built := hready.built
          extensionSize_eq := hready.base.extensionSize_eq
          namespaceId_eq := hready.base.namespaceId_eq
          containerKind_eq := hready.base.containerKind_eq
          containerId_eq := hready.base.containerId_eq
          objects_ne := hready.objects_ne
          placed := fun object hobject ↦ by
            have hrecord := hready.records object hobject
            obtain ⟨-, fid, -, hfid, -⟩ := hrecord.stored
            exact ⟨hrecord.valid, fid, hfid⟩ }
      records := fun object hobject ↦ by
        have hrecord := hready.records object hobject
        refine hrecord.congr rfl rfl rfl fun fid hfid ↦ ?_
        exact Files.set_of_ne _ _ (hmanifest object fid _ hrecord.valid hfid)
      other := by
        refine hcurrent.other hready.base.generation_lt ?_
        rw [Files.set_of_ne _ _ (hne _), hother] }
  generation_eq := hready.base.generation_eq
  previous_eq := hready.base.previous_eq
  keys := hready.keys

/-- After the commit, clean-ups do no harm. -/
theorem Updated.congr (h : Updated layout cid crypto current keys val files next)
    (hmanifest : files' (layout.manifestFid cid (targetSlot current)) =
      files (layout.manifestFid cid (targetSlot current)))
    (hrecords : ∀ object ∈ next.objects, ∀ fid, layout.recordFid cid object = .ok fid →
      files' fid = files fid)
    (hother : files' (layout.manifestFid cid (targetSlot current).rev)
      = files (layout.manifestFid cid (targetSlot current).rev) ∨
      files' (layout.manifestFid cid (targetSlot current).rev) = none)
      :
    Updated layout cid crypto current keys val files' next := by
  refine ⟨⟨h.holds.manifestFile.congr hmanifest, fun object hobject ↦ ?_, ?_⟩, h.generation_eq,
    h.previous_eq, h.keys⟩
  · exact (h.holds.records object hobject).congr rfl rfl rfl (hrecords object hobject)
  · rcases hother with hsame | hnone
    · rcases h.holds.other with hempty | ⟨older, hfile, hlt⟩
      · exact .inl (hempty.congr hsame)
      · exact .inr ⟨older, hfile.congr hsame, hlt⟩
    · exact .inl (by rw [SlotEmpty, hnone]; rfl)

/-! ### The manifest that has been built up -/

section Ready

variable {base unsorted : FileObjectManifest} {val : UInt16 × UInt16 → Bytes}
  {start files : Files} {writes : List FileObjectContainerWrite}

/-- The sorted manifest is ready. -/
theorem ManifestBuilding.ready {current : Option (Fin 2 × FileObjectManifest)} {start₀ : Files}
    {val₀ : UInt16 × UInt16 → Bytes} (hcurrent : ContainerIs layout cid crypto start₀ val₀ current)
    (hbase : NextBase layout cid current base) (hwrites : writes ≠ [])
    (hbuild : ManifestBuilding layout cid crypto base val start writes files unsorted) :
    ReadyManifest layout cid crypto current
      (fun key ↦ key ∈ (currentObjects current).map (·.key) ∨ ∃ write ∈ writes, write.key = key)
      (valAfter val writes) files
      { unsorted with objects := unsorted.objects.insertionSort keyLe } := by
  have heq := hbuild.eq_base
  have hmem {object : FileObjectDescriptor} :
      object ∈ unsorted.objects.insertionSort keyLe ↔ object ∈ unsorted.objects :=
    mem_insertionSort _
  have hkeys : ∀ key, key ∈ (unsorted.objects.insertionSort keyLe).map (·.key) ↔
      key ∈ (currentObjects current).map (·.key) ∨ ∃ write ∈ writes, write.key = key := by
    intro key
    rw [← hbase.objects_eq, ← hbuild.keys key, mem_map, mem_map]
    simp only [hmem]
  refine ⟨?_, ?_, ⟨?_, ?_, ?_, ?_, ?_⟩, fun object hobject ↦ ?_, hkeys⟩
  · rw [heq, ← hbase.objects_eq]
    exact hbase
  · -- there is at least one write
    obtain ⟨write, rest, rfl⟩ := exists_cons_of_ne_nil hwrites
    intro hnil
    have hwrite := (hkeys write.key).mpr (.inr ⟨write, by simp, rfl⟩)
    rw [show unsorted.objects.insertionSort keyLe = [] from hnil] at hwrite
    cases hwrite
  · rw [length_insertionSort]
    exact hbuild.length_le
  · rw [heq]
    intro hzero
    have hgen := hbase.generation_eq
    rw [show base.generation = 0 from hzero] at hgen
    simp at hgen
  · rw [heq, show base.previousGeneration = _ from hbase.previous_eq]
    exact hbase.generation_lt
  · intro object hobject
    have hcore := (hbuild.records object (hmem.mp hobject)).sizes.coreValid
    have hext : object.extensionSize = 0 := by
      rcases hbuild.origin object (hmem.mp hobject) with h | ⟨h, -⟩
      · rw [hbase.objects_eq] at h
        rcases current with - | ⟨slot, manifest⟩
        · cases h
        · have hfile := manifestFile hcurrent
          exact FileObjectDescriptor.extensionSize_of_valid (hfile.built.valid object h)
      · exact h
    simp [FileObjectDescriptor.valid, hcore, hext]
  · exact descriptorsSorted_insertionSort hbuild.nodup
  · exact (hbuild.records object (hmem.mp hobject)).congr rfl rfl rfl fun _ _ ↦ rfl

end Ready

end PicoAll
