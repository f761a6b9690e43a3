import PicoAll.Fs.DynamicIndex

/-!
# The index is a map

The slots are the cells of a table with open addressing, and the operations keep that table
well-formed, with the files that have been made and not deleted since (`IndexIs`). A search is that
of the table, but for the id 0xffff, which is also that of a slot whose file has been deleted.
-/

namespace PicoAll

open OpenAddressing DynamicFile Function Nat Option List

variable {hasEntry : FileId → Bool} {registered : UInt16 → Bool} {live : Set FileId}
  {s s' : DynamicIndex} {fid : UInt16} {slot : Fin dynamicFileSlots}

/-! ### Slots as cells -/

/-- What a slot says. -/
def DynamicFile.cell (file : DynamicFile) : Cell FileId :=
  if file.fid = dynamicFidEmpty then .empty
  else if file.fid = dynamicFidDeleted then .deleted
  else .live (file.namespaceId, file.fid)

def DynamicIndex.table (s : DynamicIndex) (slot : Fin dynamicFileSlots) : Cell FileId :=
  (s.dynamicFile slot).cell

variable {file : DynamicFile}

theorem DynamicFile.cell_eq_empty :
    file.cell = .empty ↔ file.fid = dynamicFidEmpty := by
  rw [cell]
  split_ifs with h₀ h₁
  · exact ⟨fun _ ↦ h₀, fun _ ↦ rfl⟩
  · exact ⟨nofun, fun h ↦ absurd h h₀⟩
  · exact ⟨nofun, fun h ↦ absurd h h₀⟩

theorem DynamicFile.cell_eq_live {id : FileId} :
    file.cell = .live id ↔ file.isFile = true ∧ (file.namespaceId, file.fid) = id := by
  rw [cell, isFile]
  split_ifs with h₀ h₁
  · exact ⟨nofun, fun ⟨h, _⟩ ↦ by simp [h₀] at h⟩
  · exact ⟨nofun, fun ⟨h, _⟩ ↦ by simp [h₁] at h⟩
  · rw [Cell.live.injEq]
    exact ⟨fun h ↦ ⟨by simpa using ⟨h₀, h₁⟩, h⟩, fun h ↦ h.2⟩

theorem DynamicFile.cell_isLive : file.cell.isLive = file.isFile := by
  rw [cell, isFile]
  split_ifs with h₀ h₁
  · simp [h₀, Cell.isLive]
  · simp [h₁, Cell.isLive]
  · simp [h₀, h₁, Cell.isLive]

theorem DynamicFile.eq_mk {ns : UInt16} :
    file = ⟨fid, ns⟩ ↔ file.fid = fid ∧ file.namespaceId = ns := by
  cases file
  rw [mk.injEq]

theorem DynamicIndex.table_setSlot (s : DynamicIndex) (slot : Fin dynamicFileSlots)
    (file : DynamicFile) : (s.setSlot slot file).table = Function.update s.table slot file.cell := by
  funext slot'
  show (Function.update s.dynamicFile slot file slot').cell = _
  rw [update_apply, update_apply]
  split_ifs <;> rfl

/-- Every slot is probed for every id. -/
theorem exists_probe (id : FileId) (slot : Fin dynamicFileSlots) :
    ∃ j < dynamicFileSlots, (dynamicNext id)^[j] (dynamicHash id) = slot := by
  have hprime : Nat.Prime dynamicFileSlots := by norm_num
  have hstep : dynamicHashStep id.2 < dynamicFileSlots := by
    have hlt : id.2.toNat * 97 % (dynamicFileSlots - 1) < dynamicFileSlots - 1 :=
      mod_lt _ (by decide)
    rw [dynamicHashStep]
    omega
  have hpos : 0 < dynamicHashStep id.2 := Nat.lt_add_right _ Nat.one_pos
  exact exists_iterate_advance
    (hprime.coprime_iff_not_dvd.mpr (Nat.not_dvd_of_pos_of_lt hpos hstep)) _ _

/-! ### What the index has -/

/-- **The index of some files**: its table is well-formed and has them, and they are counted. -/
structure IndexIs (live : Set FileId) (s : DynamicIndex) : Prop where
  wf : Wf dynamicHash dynamicNext s.table
  mem_iff : ∀ id, id ∈ live ↔ ∃ slot, s.table slot = .live id
  count : s.dynamicFiles.toNat = liveCount s.table
  count_le : liveCount s.table ≤ maxDynamicFiles

/-- A search for an id that is no sentinel is that of the table. -/
theorem IndexIs.search_eq_some_iff (h : IndexIs live s) (hempty : fid ≠ dynamicFidEmpty)
    (hdeleted : fid ≠ dynamicFidDeleted) :
    searchDynamicFile s fid = some slot ↔ s.table slot = .live (s.activeNamespace, fid) := by
  rw [← h.wf.search_eq_some_iff, searchDynamicFile]
  have hisEmpty : (fun slot ↦ (s.dynamicFile slot).fid == dynamicFidEmpty) =
      fun slot ↦ decide (s.table slot = .empty) := by
    funext slot
    rw [Bool.eq_iff_iff, beq_iff_eq, decide_eq_true_iff]
    exact cell_eq_empty.symm
  have hisHit : (fun slot ↦ (s.dynamicFile slot).fid == fid &&
      (s.dynamicFile slot).namespaceId == s.activeNamespace) =
        fun slot ↦ decide (s.table slot = .live (s.activeNamespace, fid)) := by
    funext slot
    rw [Bool.eq_iff_iff, Bool.and_eq_true, beq_iff_eq, beq_iff_eq, decide_eq_true_iff,
      DynamicIndex.table, cell_eq_live, Prod.mk.injEq]
    constructor
    · rintro ⟨hfid, hns⟩
      refine ⟨?_, hns, hfid⟩
      rw [isFile, hfid]
      simpa using ⟨hempty, hdeleted⟩
    · rintro ⟨-, hns, hfid⟩
      exact ⟨hfid, hns⟩
  rw [hisEmpty, hisHit]

/-- A search for the id of an empty slot finds nothing. -/
theorem searchDynamicFile_empty : searchDynamicFile s dynamicFidEmpty = none := by
  rw [eq_none_iff_forall_ne_some]
  intro slot hsome
  obtain ⟨j, -, rfl, hhit, hne, -⟩ := search_eq_some.mp hsome
  rw [Bool.and_eq_true] at hhit
  have hempty := hne j le_rfl
  rw [hhit.1] at hempty
  cases hempty

theorem IndexIs.search_eq_none (h : IndexIs live s) (hnone : searchDynamicFile s fid = none)
    (hempty : fid ≠ dynamicFidEmpty) (hdeleted : fid ≠ dynamicFidDeleted)
    (slot : Fin dynamicFileSlots) : s.table slot ≠ .live (s.activeNamespace, fid) := by
  intro hlive
  rw [← h.search_eq_some_iff hempty hdeleted, hnone] at hlive
  cases hlive

/-! ### The operations -/

theorem IndexIs.select (h : IndexIs live s) (id : UInt16) :
    IndexIs live (fileNamespaceSelect registered s id) := by
  rw [fileNamespaceSelect]
  split_ifs
  · exact h
  · exact ⟨h.wf, h.mem_iff, h.count, h.count_le⟩

theorem IndexIs.clear (s : DynamicIndex) : IndexIs ∅ (clearIndex s) := by
  have htable : (clearIndex s).table = fun _ ↦ .empty := rfl
  refine ⟨htable ▸ .of_empty, fun id ↦ ?_, ?_, ?_⟩
  · exact ⟨nofun, fun ⟨slot, hslot⟩ ↦ by cases hslot⟩
  · rw [htable, liveCount_empty]
    rfl
  · rw [htable, liveCount_empty]
    exact zero_le _

/-- A slot is found for a new file, as long as there are fewer than the index takes. -/
theorem IndexIs.findDynamicSlot_isSome (h : IndexIs live s) (fid : UInt16) :
    (findDynamicSlot s fid).isSome = true := by
  have hle : liveCount s.table < dynamicFileSlots := by
    have hmax := h.count_le
    simp only [maxDynamicFiles] at hmax
    simp only [dynamicFileSlots]
    omega
  obtain ⟨slot, hslot⟩ := exists_not_live hle
  obtain ⟨j, hj, hprobe⟩ := exists_probe (s.activeNamespace, fid) slot
  refine findSlot_isSome (.inr ⟨j, hj, ?_⟩)
  rw [hprobe, beq_iff_eq, beq_iff_eq]
  rw [DynamicIndex.table, cell_isLive, isFile] at hslot
  by_contra! hne
  simp [hne] at hslot

/-- **A file that is made** has a slot from then on. -/
theorem IndexIs.insert (h : IndexIs live s) (hempty : fid ≠ dynamicFidEmpty)
    (hdeleted : fid ≠ dynamicFidDeleted) (hroom : s.dynamicFiles.toNat < maxDynamicFiles)
    (hnone : searchDynamicFile s fid = none) (hslot : findDynamicSlot s fid = some slot) :
    IndexIs (insert (s.activeNamespace, fid) live)
      { s.setSlot slot ⟨fid, s.activeNamespace⟩ with dynamicFiles := s.dynamicFiles + 1 } := by
  have hcell : cell ⟨fid, s.activeNamespace⟩ = .live (s.activeNamespace, fid) := by
    rw [cell, if_neg hempty, if_neg hdeleted]
  have htable : DynamicIndex.table
      { s.setSlot slot ⟨fid, s.activeNamespace⟩ with dynamicFiles := s.dynamicFiles + 1 } =
        Function.update s.table slot (.live (s.activeNamespace, fid)) := by
    rw [← hcell, ← s.table_setSlot]
    rfl
  have hnew := h.search_eq_none hnone hempty hdeleted
  obtain ⟨j, hj, hprobe, hhad, hne⟩ :=
    (findSlot_eq_some hslot).resolve_left (nofun : (none : Option (Fin dynamicFileSlots)) ≠ some slot)
  have hfree : (s.table slot).isLive = false := by
    rw [DynamicIndex.table, cell_isLive, isFile]
    rw [beq_iff_eq, beq_iff_eq] at hhad
    rcases hhad with h | h <;> simp [h]
  have hcount := @liveCount_insert FileId _ s.table slot (s.activeNamespace, fid) hfree
  refine ⟨?_, fun id ↦ ?_, ?_, ?_⟩
  · rw [htable]
    refine h.wf.insert hnew ⟨j, hj, hprobe, fun j' hj' hcellEmpty ↦ ?_⟩
    have hfid := hne j' hj'
    rw [cell_eq_empty.mp hcellEmpty] at hfid
    cases hfid
  · rw [htable, Set.mem_insert_iff, h.mem_iff]
    constructor
    · rintro (rfl | ⟨slot', hslot'⟩)
      · exact ⟨slot, update_self ..⟩
      · refine ⟨slot', ?_⟩
        rw [update_of_ne, hslot']
        rintro rfl
        rw [hslot'] at hfree
        cases hfree
    · rintro ⟨slot', hslot'⟩
      rcases eq_or_ne slot' slot with rfl | hne'
      · rw [update_self] at hslot'
        cases hslot'
        exact .inl rfl
      · rw [update_of_ne hne'] at hslot'
        exact .inr ⟨slot', hslot'⟩
  · rw [htable, hcount, ← h.count]
    rw [UInt16.toNat_add]
    simp only [maxDynamicFiles] at hroom
    exact mod_eq_of_lt (by show _ + 1 < 65536; omega)
  · rw [htable, hcount, ← h.count]
    exact hroom

/-- **`file_new`** makes the file, or finds it, or leaves the index as it is. -/
theorem IndexIs.new (h : IndexIs live s) (hasEntry : FileId → Bool) (fid : UInt16) :
    ((dynamicFileNew hasEntry s fid).2 = s ∧
        ∀ slot, (dynamicFileNew hasEntry s fid).1 = some (.dynamic slot) →
          searchDynamicFile s fid = some slot) ∨
      fid ≠ dynamicFidEmpty ∧ fid ≠ dynamicFidDeleted ∧
        (∃ slot, (dynamicFileNew hasEntry s fid).1 = some (.dynamic slot)) ∧
        IndexIs (Insert.insert (s.activeNamespace, fid) live) (dynamicFileNew hasEntry s fid).2 := by
  rw [dynamicFileNew]
  rcases hsearch : dynamicFileSearch hasEntry s fid with - | file
  · have hnone : searchDynamicFile s fid = none := by
      rw [dynamicFileSearch] at hsearch
      split_ifs at hsearch
      exact map_eq_none_iff.mp hsearch
    split_ifs with hrefused
    · exact .inl ⟨rfl, nofun⟩
    · rw [not_or, not_or, not_le] at hrefused
      obtain ⟨slot, hslot⟩ := isSome_iff_exists.mp (h.findDynamicSlot_isSome fid)
      rw [hslot]
      exact .inr ⟨hrefused.1, hrefused.2.1, ⟨slot, rfl⟩,
        h.insert hrefused.1 hrefused.2.1 hrefused.2.2 hnone hslot⟩
  · refine .inl ⟨rfl, fun slot hslot ↦ ?_⟩
    obtain rfl : file = .dynamic slot := Option.some.inj hslot
    rw [dynamicFileSearch] at hsearch
    split_ifs at hsearch
    · cases hsearch
    · obtain ⟨slot', hslot', heq⟩ := map_eq_some_iff.mp hsearch
      cases heq
      exact hslot'

/-- **A file that is deleted** has no slot any more. -/
theorem IndexIs.delete (h : IndexIs live s) (hfile : (s.dynamicFile slot).isFile = true) :
    IndexIs (live \ {((s.dynamicFile slot).namespaceId, (s.dynamicFile slot).fid)})
      { s.setSlot slot { s.dynamicFile slot with fid := dynamicFidDeleted } with
        dynamicFiles := s.dynamicFiles - 1 } := by
  have htable : DynamicIndex.table
      { s.setSlot slot { s.dynamicFile slot with fid := dynamicFidDeleted } with
        dynamicFiles := s.dynamicFiles - 1 } = Function.update s.table slot .deleted := by
    show (s.setSlot slot { s.dynamicFile slot with fid := dynamicFidDeleted }).table = _
    rw [s.table_setSlot]
    rfl
  have hlive : s.table slot = .live ((s.dynamicFile slot).namespaceId, (s.dynamicFile slot).fid) :=
    cell_eq_live.mpr ⟨hfile, rfl⟩
  have hisLive : (s.table slot).isLive = true := by rw [hlive]; rfl
  have hcount := liveCount_delete hisLive
  refine ⟨?_, fun id ↦ ?_, ?_, ?_⟩
  · rw [htable]
    exact h.wf.delete slot
  · rw [htable, Set.mem_sdiff, h.mem_iff, Set.mem_singleton_iff]
    constructor
    · rintro ⟨⟨slot', hslot'⟩, hne⟩
      refine ⟨slot', ?_⟩
      rw [update_of_ne, hslot']
      rintro rfl
      rw [hlive] at hslot'
      cases hslot'
      exact hne rfl
    · rintro ⟨slot', hslot'⟩
      rcases eq_or_ne slot' slot with rfl | hne
      · rw [update_self] at hslot'
        cases hslot'
      · rw [update_of_ne hne] at hslot'
        refine ⟨⟨slot', hslot'⟩, ?_⟩
        rintro rfl
        exact hne (h.wf.unique _ _ _ hslot' hlive)
  · rw [htable]
    rw [UInt16.toNat_sub_of_le _ _ (by
      rw [UInt16.le_iff_toNat_le, h.count, ← hcount]
      exact Nat.le_add_left ..), h.count, ← hcount, show (1 : UInt16).toNat = 1 from rfl,
      Nat.add_sub_cancel]
  · rw [htable]
    have hle := h.count_le
    rw [← hcount] at hle
    exact le_of_succ_le hle

/-! ### Runs -/

/-- A step of the index, with the files there are running along. -/
inductive DynamicStep (hasEntry : FileId → Bool) (registered : UInt16 → Bool) :
    Set FileId × DynamicIndex → Set FileId × DynamicIndex → Prop
  /-- `file_new` returns a slot, for an id other than that of a deleted file. -/
  | made {live : Set FileId} {s : DynamicIndex} (fid : UInt16) (slot : Fin dynamicFileSlots)
      (hmade : (dynamicFileNew hasEntry s fid).1 = some (.dynamic slot))
      (hfid : fid ≠ dynamicFidDeleted) :
      DynamicStep hasEntry registered (live, s)
        (insert (s.activeNamespace, fid) live, (dynamicFileNew hasEntry s fid).2)
  /-- `file_new` returns an entry of a table, or nothing, or is called for the id of a deleted
  file. -/
  | notMade {live : Set FileId} {s : DynamicIndex} (fid : UInt16)
      (hnot : (∀ slot, (dynamicFileNew hasEntry s fid).1 ≠ some (.dynamic slot)) ∨
        fid = dynamicFidDeleted) :
      DynamicStep hasEntry registered (live, s) (live, (dynamicFileNew hasEntry s fid).2)
  /-- `file_delete` of a slot. -/
  | deleted {live : Set FileId} {s : DynamicIndex} (cleared : Bool)
      (slot : Fin dynamicFileSlots) :
      DynamicStep hasEntry registered (live, s)
        (if cleared then live \ {((s.dynamicFile slot).namespaceId, (s.dynamicFile slot).fid)}
          else live, dynamicFileDelete s cleared slot)
  /-- `file_namespace_select`. -/
  | selected {live : Set FileId} {s : DynamicIndex} (id : UInt16) :
      DynamicStep hasEntry registered (live, s) (live, fileNamespaceSelect registered s id)
  /-- The start of `file_scan_flash`. -/
  | cleared {live : Set FileId} {s : DynamicIndex} :
      DynamicStep hasEntry registered (live, s) (∅, clearIndex s)
  /-- `file_initialize_flash`. -/
  | initialized {live : Set FileId} {s : DynamicIndex} :
      DynamicStep hasEntry registered (live, s)
        ({id | id ∈ live ∧ id.1 ≠ s.activeNamespace}, fileInitializeFlash s true)

/-- The states that runs lead to, from when the device is switched on. -/
def DynamicReachable (hasEntry : FileId → Bool) (registered : UInt16 → Bool) (live : Set FileId)
    (s : DynamicIndex) : Prop :=
  ∃ s₀ : DynamicIndex,
    Relation.ReflTransGen (DynamicStep hasEntry registered) (∅, clearIndex s₀) (live, s)

theorem IndexIs.congr {live' : Set FileId} (h : IndexIs live s)
    (hlive : ∀ id, id ∈ live ↔ id ∈ live') : IndexIs live' s := by
  obtain rfl := Set.ext hlive
  exact h

/-- The slots of the namespace that is selected are deleted one after the other. -/
theorem IndexIs.initializeSlots (slots : List (Fin dynamicFileSlots)) {live : Set FileId}
    {s : DynamicIndex} (h : IndexIs live s) :
    IndexIs {id | id ∈ live ∧ (id.1 ≠ s.activeNamespace ∨ ∀ slot ∈ slots, s.table slot ≠ .live id)}
      (slots.foldl initializeSlot s) := by
  induction slots generalizing live s with
  | nil => exact h.congr fun id ↦ ⟨fun hid ↦ ⟨hid, .inr nofun⟩, fun hid ↦ hid.1⟩
  | cons slot slots ih =>
    rw [foldl_cons]
    by_cases hfile : ((s.dynamicFile slot).namespaceId == s.activeNamespace &&
        (s.dynamicFile slot).isFile) = true
    · have hpair : (s.dynamicFile slot).namespaceId = s.activeNamespace ∧
          (s.dynamicFile slot).isFile = true := by simpa using hfile
      obtain ⟨hns, hisFile⟩ := hpair
      have hlive : s.table slot =
          .live ((s.dynamicFile slot).namespaceId, (s.dynamicFile slot).fid) :=
        cell_eq_live.mpr ⟨hisFile, rfl⟩
      have hpos : s.dynamicFiles ≠ 0 := by
        intro hzero
        have hcount := liveCount_delete (show (s.table slot).isLive = true by rw [hlive]; rfl)
        rw [← h.count, hzero] at hcount
        exact succ_ne_zero _ hcount
      have hslot : initializeSlot s slot =
          { s.setSlot slot { s.dynamicFile slot with fid := dynamicFidDeleted } with
            dynamicFiles := s.dynamicFiles - 1 } := by
        rw [initializeSlot]
        rw [if_pos hfile, if_pos hpos]
      have htable : (initializeSlot s slot).table = Function.update s.table slot .deleted := by
        rw [hslot]
        show (s.setSlot slot { s.dynamicFile slot with fid := dynamicFidDeleted }).table = _
        rw [s.table_setSlot]
        rfl
      have hactive : (initializeSlot s slot).activeNamespace = s.activeNamespace := by
        rw [hslot]
        rfl
      have hnext := ih (hslot ▸ h.delete hisFile)
      refine hnext.congr fun id ↦ ?_
      rw [Set.mem_ofPred_eq, Set.mem_ofPred_eq, Set.mem_sdiff, Set.mem_singleton_iff, htable, hactive]
      constructor
      · rintro ⟨⟨hid, hne⟩, hrest⟩
        refine ⟨hid, hrest.imp_right fun hrest slot' hmem ↦ ?_⟩
        rcases eq_or_ne slot' slot with rfl | hne'
        · rw [hlive]
          rintro ⟨⟩
          exact hne rfl
        · have hlater := hrest slot' ((mem_cons.mp hmem).resolve_left hne')
          rwa [update_of_ne hne'] at hlater
      · rintro ⟨hid, hrest⟩
        refine ⟨⟨hid, ?_⟩, hrest.imp_right fun hrest slot' hmem ↦ ?_⟩
        · rintro rfl
          rcases hrest with hne | hrest
          · exact hne hns
          · exact hrest slot (mem_cons_self ..) hlive
        · rw [update_apply]
          split_ifs
          · exact nofun
          · exact hrest slot' (mem_cons_of_mem _ hmem)
    · have hslot : initializeSlot s slot = s := if_neg hfile
      rw [hslot]
      -- a slot that is skipped has no file of the namespace
      have hother (id : FileId) (hns : id.1 = s.activeNamespace) : s.table slot ≠ .live id := by
        intro hlive
        obtain ⟨hisFile, rfl⟩ := cell_eq_live.mp hlive
        exact hfile (by rw [hisFile, Bool.and_true, beq_iff_eq]; exact hns)
      refine (ih h).congr fun id ↦ and_congr_right fun _ ↦ ?_
      constructor
      · intro hrest
        by_cases hns : id.1 = s.activeNamespace
        · refine .inr fun slot' hmem ↦ ?_
          rcases mem_cons.mp hmem with rfl | hmem
          · exact hother id hns
          · exact hrest.resolve_left (not_not.mpr hns) slot' hmem
        · exact .inl hns
      · exact fun hrest ↦ hrest.imp_right fun hrest slot' hmem ↦
          hrest slot' (mem_cons_of_mem _ hmem)

theorem IndexIs.initialize (h : IndexIs live s) :
    IndexIs {id | id ∈ live ∧ id.1 ≠ s.activeNamespace} (fileInitializeFlash s true) := by
  refine (h.initializeSlots (List.finRange dynamicFileSlots)).congr fun id ↦
    and_congr_right fun hid ↦ ?_
  obtain ⟨slot, hslot⟩ := (h.mem_iff id).mp hid
  exact ⟨fun hrest ↦ hrest.resolve_right fun hall ↦ hall slot (mem_finRange slot) hslot, .inl⟩

theorem DynamicStep.indexIs {live' : Set FileId}
    (hstep : DynamicStep hasEntry registered (live, s) (live', s')) (h : IndexIs live s) :
    IndexIs live' s' := by
  cases hstep with
  | made fid slot hmade hfid =>
    rcases h.new hasEntry fid with ⟨hsame, hfound⟩ | ⟨-, -, -, hnew⟩
    · have hempty : fid ≠ dynamicFidEmpty := by
        rintro rfl
        have hnone := hfound slot hmade
        rw [searchDynamicFile_empty] at hnone
        cases hnone
      have hmem : (s.activeNamespace, fid) ∈ live :=
        (h.mem_iff _).mpr ⟨slot, (h.search_eq_some_iff hempty hfid).mp (hfound slot hmade)⟩
      rw [hsame, Set.insert_eq_of_mem hmem]
      exact h
    · exact hnew
  | notMade fid hnot =>
    rcases h.new hasEntry fid with ⟨hsame, -⟩ | ⟨-, hdeleted, ⟨slot, hslot⟩, -⟩
    · rw [hsame]
      exact h
    · rcases hnot with hnot | hnot
      · exact absurd hslot (hnot slot)
      · exact absurd hnot hdeleted
  | deleted cleared slot =>
    rcases cleared with - | -
    · exact h
    · show IndexIs (live \ _) (deleteDynamicFile s slot).2
      rw [deleteDynamicFile]
      rcases hfile : (s.dynamicFile slot).isFile with - | -
      · -- a slot without a file is left as it is, and its id is that of no file
        refine h.congr fun id ↦ ⟨fun hid ↦ ⟨hid, ?_⟩, fun hid ↦ hid.1⟩
        rintro rfl
        obtain ⟨slot', hslot'⟩ := (h.mem_iff _).mp hid
        obtain ⟨hfile', heq⟩ := cell_eq_live.mp hslot'
        rw [Prod.mk.injEq] at heq
        rw [isFile, heq.2, ← isFile, hfile] at hfile'
        cases hfile'
      · exact h.delete hfile
  | selected id => exact h.select id
  | cleared => exact .clear _
  | initialized => exact h.initialize

theorem DynamicReachable.indexIs (h : DynamicReachable hasEntry registered live s) :
    IndexIs live s := by
  obtain ⟨s₀, hrun⟩ := h
  have hrun' {b : Set FileId × DynamicIndex} (hb : Relation.ReflTransGen
      (DynamicStep hasEntry registered) (∅, clearIndex s₀) b) : IndexIs b.1 b.2 := by
    induction hb with
    | refl => exact .clear s₀
    | tail _ hstep ih => exact hstep.indexIs ih
  exact hrun' hrun

/-! ### Scans -/

theorem exists_step_new (hasEntry : FileId → Bool) (registered : UInt16 → Bool) (live : Set FileId)
    (s : DynamicIndex) (fid : UInt16) :
    ∃ live', DynamicStep hasEntry registered (live, s) (live', (dynamicFileNew hasEntry s fid).2) := by
  by_cases hmade : (∃ slot, (dynamicFileNew hasEntry s fid).1 = some (.dynamic slot)) ∧
      fid ≠ dynamicFidDeleted
  · obtain ⟨⟨slot, hslot⟩, hfid⟩ := hmade
    exact ⟨_, .made fid slot hslot hfid⟩
  · refine ⟨live, .notMade fid ?_⟩
    by_cases hfid : fid = dynamicFidDeleted
    · exact .inr hfid
    · exact .inl fun slot hslot ↦ hmade ⟨⟨slot, hslot⟩, hfid⟩

/-- The records of a region are found one after the other. -/
theorem exists_steps_scanRecords (ids : List FileId) (live : Set FileId) (s : DynamicIndex) :
    ∃ live', Relation.ReflTransGen (DynamicStep hasEntry registered) (live, s)
      (live', scanRecords hasEntry registered ids s) := by
  induction ids generalizing live s with
  | nil => exact ⟨live, .refl⟩
  | cons id ids ih =>
    rw [scanRecords]
    rcases hrecord : scanRecord hasEntry registered s id with - | s'
    · exact ⟨live, .refl⟩
    · rw [scanRecord] at hrecord
      split_ifs at hrecord with hstop
      cases hrecord
      obtain ⟨selected, hselected⟩ : ∃ selected, selected = fileNamespaceSelect registered s id.1 :=
        ⟨_, rfl⟩
      have hselect : DynamicStep hasEntry registered (live, s) (live, selected) :=
        hselected ▸ .selected id.1
      obtain ⟨live₁, hfound⟩ : ∃ live₁, Relation.ReflTransGen (DynamicStep hasEntry registered)
          (live, selected) (live₁, if hasEntry (selected.activeNamespace, id.2) then selected
            else (dynamicFileNew hasEntry selected id.2).2) := by
        split_ifs
        · exact ⟨live, .refl⟩
        · obtain ⟨live₁, hnew⟩ := exists_step_new hasEntry registered live selected id.2
          exact ⟨live₁, .single hnew⟩
      rw [← hselected]
      obtain ⟨live₂, hrest⟩ := ih live₁ (fileNamespaceSelect registered
        (if hasEntry (selected.activeNamespace, id.2) then selected
          else (dynamicFileNew hasEntry selected id.2).2) s.activeNamespace)
      exact ⟨live₂, .head hselect (hfound.trans (.head (.selected s.activeNamespace) hrest))⟩

/-- A scan of the flash is a run. -/
theorem DynamicReachable.scan (h : DynamicReachable hasEntry registered live s)
    (regions : List (List FileId)) :
    ∃ live', DynamicReachable hasEntry registered live'
      (fileScanFlash hasEntry registered s regions) := by
  obtain ⟨s₀, hrun⟩ := h
  have hregions (live : Set FileId) (s : DynamicIndex) :
      ∃ live', Relation.ReflTransGen (DynamicStep hasEntry registered) (live, s)
        (live', regions.foldl (fun s ids ↦ scanRecords hasEntry registered ids s) s) := by
    induction regions generalizing live s with
    | nil => exact ⟨live, .refl⟩
    | cons ids regions ih =>
      obtain ⟨live₁, hids⟩ := exists_steps_scanRecords ids live s
      obtain ⟨live₂, hrest⟩ := ih live₁ (scanRecords hasEntry registered ids s)
      exact ⟨live₂, hids.trans hrest⟩
  obtain ⟨live', hscan⟩ := hregions ∅ (clearIndex s)
  exact ⟨live', s₀, (hrun.tail .cleared).trans hscan⟩

/-! ### What holds of the index at any time -/

/-- A search does what it is for: it finds an id exactly if its file has been made and not deleted
since, and then its slot. -/
def SearchIsRight (live : Set FileId) (s : DynamicIndex) (fid : UInt16) : Prop :=
  ((searchDynamicFile s fid).isSome = true ↔ (s.activeNamespace, fid) ∈ live) ∧
    ∀ slot, searchDynamicFile s fid = some slot →
      (s.dynamicFile slot).isFile = true ∧
        s.dynamicFile slot = ⟨fid, s.activeNamespace⟩

/-- A slot the file of which has been deleted from the namespace that is selected, and that is probed
for the id of a deleted file before an empty one is. -/
def DeletedOnPath (s : DynamicIndex) : Prop :=
  ∃ j < dynamicFileSlots, ∃ slot, (dynamicNext (s.activeNamespace, dynamicFidDeleted))^[j]
      (dynamicHash (s.activeNamespace, dynamicFidDeleted)) = slot ∧
    s.dynamicFile slot = ⟨dynamicFidDeleted, s.activeNamespace⟩ ∧
    ∀ j' ≤ j, (s.dynamicFile ((dynamicNext (s.activeNamespace, dynamicFidDeleted))^[j']
      (dynamicHash (s.activeNamespace, dynamicFidDeleted)))).fid ≠ dynamicFidEmpty

/-- A search for the id of a deleted file finds the slot of one. -/
theorem searchDynamicFile_deleted :
    (searchDynamicFile s dynamicFidDeleted).isSome = true ↔ DeletedOnPath s := by
  rw [searchDynamicFile, search_isSome]
  constructor
  · rintro ⟨j, hj, hhit, hne⟩
    rw [Bool.and_eq_true, beq_iff_eq, beq_iff_eq] at hhit
    exact ⟨j, hj, _, rfl, eq_mk.mpr hhit, fun j' hj' ↦ by simpa using hne j' hj'⟩
  · rintro ⟨j, hj, slot, rfl, hslot, hne⟩
    refine ⟨j, hj, ?_, fun j' hj' ↦ by simpa using hne j' hj'⟩
    rw [hslot]
    simp

/-- **The index is a map.** In every state that is reached, and so after every scan: a search does
what it is for if and only if it is not for the id of a deleted file, or no slot of one is probed for
it; every file has one slot, and different files have different ones; and the files are counted. -/
theorem dynamic_index_is_map (h : DynamicReachable hasEntry registered live s) :
    (∀ fid, SearchIsRight live s fid ↔ fid ≠ dynamicFidDeleted ∨ ¬ DeletedOnPath s) ∧
      (∀ id, id ∈ live ↔ ∃! slot, (s.dynamicFile slot).isFile = true ∧
        s.dynamicFile slot = ⟨id.2, id.1⟩) ∧
      s.dynamicFiles.toNat =
        (Finset.univ.filter fun slot ↦ (s.dynamicFile slot).isFile = true).card ∧
      s.dynamicFiles.toNat ≤ maxDynamicFiles ∧
      ∀ regions, ∃ live', DynamicReachable hasEntry registered live'
        (fileScanFlash hasEntry registered s regions) := by
  have hindex := h.indexIs
  have hcell {slot : Fin dynamicFileSlots} {id : FileId} : s.table slot = .live id ↔
      (s.dynamicFile slot).isFile = true ∧ s.dynamicFile slot = ⟨id.2, id.1⟩ := by
    rw [DynamicIndex.table, cell_eq_live]
    refine and_congr_right fun _ ↦ ?_
    constructor
    · rintro rfl
      rfl
    · intro heq
      rw [heq]
  refine ⟨fun fid ↦ ?_, fun id ↦ ?_, ?_, ?_, h.scan⟩
  · by_cases hdeleted : fid = dynamicFidDeleted
    · subst hdeleted
      have hnot : (s.activeNamespace, dynamicFidDeleted) ∉ live := by
        rw [hindex.mem_iff]
        rintro ⟨slot, hslot⟩
        obtain ⟨hfile, heq⟩ := hcell.mp hslot
        rw [heq] at hfile
        cases hfile
      constructor
      · intro hright
        exact .inr fun hpath ↦ hnot (hright.1.mp (searchDynamicFile_deleted.mpr hpath))
      · intro hcond
        have hnone : searchDynamicFile s dynamicFidDeleted = none := by
          rw [← not_isSome_iff_eq_none, searchDynamicFile_deleted]
          exact hcond.resolve_left (not_not.mpr rfl)
        refine ⟨⟨fun hsome ↦ ?_, fun hmem ↦ absurd hmem hnot⟩, fun slot hslot ↦ ?_⟩
        · rw [hnone] at hsome
          cases hsome
        · rw [hnone] at hslot
          cases hslot
    · refine ⟨fun _ ↦ .inl hdeleted, fun _ ↦ ?_⟩
      by_cases hempty : fid = dynamicFidEmpty
      · subst hempty
        have hnot : (s.activeNamespace, dynamicFidEmpty) ∉ live := by
          rw [hindex.mem_iff]
          rintro ⟨slot, hslot⟩
          obtain ⟨hfile, heq⟩ := hcell.mp hslot
          rw [heq] at hfile
          cases hfile
        rw [SearchIsRight, searchDynamicFile_empty]
        exact ⟨⟨nofun, fun hmem ↦ absurd hmem hnot⟩, nofun⟩
      · refine ⟨?_, fun slot hslot ↦ ?_⟩
        · rw [hindex.mem_iff, isSome_iff_exists]
          exact exists_congr fun slot ↦ hindex.search_eq_some_iff hempty hdeleted
        · exact hcell.mp ((hindex.search_eq_some_iff hempty hdeleted).mp hslot)
  · rw [hindex.mem_iff]
    constructor
    · rintro ⟨slot, hslot⟩
      exact ⟨slot, hcell.mp hslot, fun slot' hslot' ↦
        hindex.wf.unique _ _ _ (hcell.mpr hslot') hslot⟩
    · rintro ⟨slot, hslot, -⟩
      exact ⟨slot, hcell.mpr hslot⟩
  · rw [hindex.count, liveCount]
    refine congrArg Finset.card (Finset.filter_congr fun slot _ ↦ ?_)
    rw [DynamicIndex.table, cell_isLive]
  · rw [hindex.count]
    exact hindex.count_le

/-- No application has entries in its table. -/
def noEntries (_ : FileId) : Bool :=
  false

/-- There are all namespaces. -/
def allRegistered (_ : UInt16) : Bool :=
  true

/-- An index without files. -/
def dynamicToyIndex : DynamicIndex :=
  clearIndex ⟨3, 0, fun _ ↦ ⟨0, 0⟩⟩

/-- The index with one file. -/
def dynamicToyMade : DynamicIndex :=
  (dynamicFileNew noEntries dynamicToyIndex 0x13a7).2

/-- The index after the file has been deleted. -/
def dynamicToyDeleted : DynamicIndex :=
  dynamicFileDelete dynamicToyMade true 1914

theorem dynamicToyMade_reachable :
    DynamicReachable noEntries allRegistered {(3, 0x13a7)} dynamicToyMade := by
  have hstep := @DynamicStep.made noEntries allRegistered ∅ dynamicToyIndex 0x13a7 1914
    (by decide +kernel) (by decide)
  rw [insert_empty_eq] at hstep
  exact ⟨_, .single hstep⟩

/-- Once a file has been deleted, a search for the id 0xffff finds its slot. -/
theorem dynamic_search_finds_deleted :
    (∃ live, DynamicReachable noEntries allRegistered live dynamicToyDeleted ∧
      ¬ SearchIsRight live dynamicToyDeleted 0xffff) ∧
      searchDynamicFile dynamicToyDeleted 0xffff = some 1914 ∧
      (dynamicToyDeleted.dynamicFile 1914).isFile = false := by
  have hsearch : searchDynamicFile dynamicToyDeleted 0xffff = some 1914 := by decide +kernel
  have hfile : (dynamicToyDeleted.dynamicFile 1914).isFile = false := by decide +kernel
  obtain ⟨s₀, hrun⟩ := dynamicToyMade_reachable
  refine ⟨⟨_, ⟨s₀, hrun.tail (.deleted true 1914)⟩, fun hright ↦ ?_⟩, hsearch, hfile⟩
  obtain ⟨hisFile, -⟩ := hright.2 1914 hsearch
  cases hisFile

/-- Of two files that have been made and one that is then deleted, the other one is found. -/
theorem dynamic_index_is_map_deleted :
    let made := (dynamicFileNew noEntries dynamicToyMade 0x1234).2
    let s := dynamicFileDelete made true 1914
    SearchIsRight {(3, 0x1234)} s 0x1234 ∧ SearchIsRight {(3, 0x1234)} s 0x13a7 := by
  intro made s
  have hfile : ((made.dynamicFile 1914).namespaceId, (made.dynamicFile 1914).fid) = (3, 0x13a7) := by
    decide +kernel
  have hlive : insert (3, 0x1234) {(3, 0x13a7)} \
      {((made.dynamicFile 1914).namespaceId, (made.dynamicFile 1914).fid)} =
        ({(3, 0x1234)} : Set FileId) := by
    ext id
    aesop
  obtain ⟨s₀, hrun⟩ := dynamicToyMade_reachable
  have hmade := hrun.tail (.made 0x1234 2273 (by decide +kernel) (by decide))
  have hreach : DynamicReachable noEntries allRegistered {(3, 0x1234)} s :=
    ⟨s₀, hlive ▸ hmade.tail (.deleted true 1914)⟩
  obtain ⟨hsearch, -⟩ := dynamic_index_is_map hreach
  exact ⟨(hsearch 0x1234).mpr (.inl (by decide)), (hsearch 0x13a7).mpr (.inl (by decide))⟩

end PicoAll
