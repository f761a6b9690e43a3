import PicoAll.Apps.ContainerInterrupted
import PicoAll.Fido.ResidentStatus

/-!
# The state of a resident credential

What the calls on a container do to the object that has the status (`SlotHolds`), whatever happens to
the flash on the way: it has been written, it is as it was, or the container is lost, which no call
brings back.
-/

namespace PicoAll

open FaultProgram BigEndian UInt8 List

/-- The key of the object with the status. -/
abbrev residentStateKey : UInt16 × UInt16 :=
  (residentObjectState, 0)

/-- A container of resident credentials, with its older manifest. -/
abbrev ResidentLinked (sha256 : Bytes → Bytes) (crypto : FileObjectContainerCrypto) (slot : UInt8)
    (files : Files) (val : UInt16 × UInt16 → Bytes)
    (current : Option (Fin 2 × FileObjectManifest)) : Prop :=
  ContainerLinked (residentContainerLayout sha256) slot.toUInt32 crypto (residentNumber slot) files
    val current

/-- **What is known of the state** of a slot: it is as `P` says, or the container is lost. -/
def SlotHolds (sha256 : Bytes → Bytes) (crypto : FileObjectContainerCrypto) (slot : UInt8)
    (P : Option Bytes → Prop) (files : Files) : Prop :=
  ContainerDead (residentContainerLayout sha256) slot.toUInt32 crypto files ∨
    ∃ val current, ResidentLinked sha256 crypto slot files val current ∧
      P (currentData current val residentStateKey)

section Files

variable {sha256 : Bytes → Bytes} {slot slot' : UInt8} {fid : ℕ}

/-! ### The files of a slot -/

theorem residentContainerIsMarker_iff {file : Option Bytes} :
    residentContainerIsMarker slot file = true ↔
      file = some (containerMarker [0x50, 0x4b, 0x46, 0x31] slot) := by
  rcases file with - | data
  · simp [residentContainerIsMarker]
  constructor
  · intro h
    simp only [residentContainerIsMarker, Bool.and_eq_true, beq_iff_eq] at h
    obtain ⟨⟨⟨⟨⟨⟨-, hlength⟩, hmagic⟩, hversion⟩, hslot⟩, hzero⟩, hzero'⟩ := h
    match data, hlength with
    | [_, _, _, _, _, _, _, _], _ =>
      simp only [getD_cons_succ, getD_cons_zero] at hversion hslot hzero hzero'
      obtain ⟨rfl, rfl, rfl, rfl⟩ := hmagic
      rw [hversion, hslot, hzero, hzero']
      rfl
  · rintro ⟨⟩
    simp [residentContainerIsMarker, containerMarker, fileHasData]

theorem fileHasData_marker {file : Option Bytes} (h : residentContainerIsMarker slot file = true) :
    fileHasData file = true := by
  rw [residentContainerIsMarker_iff.mp h]
  rfl

theorem containerFid_mem_residentFids
    (h : ContainerFid (residentContainerLayout sha256) slot.toUInt32 fid) :
    fid ∈ residentFids slot := by
  rcases h with ⟨manifestSlot, rfl⟩ | ⟨object, -, hfid⟩
  · show residentManifestFid slot.toUInt32.toUInt8 manifestSlot ∈ _
    rw [toUInt8_toUInt32]
    exact manifest_mem_residentFids manifestSlot
  · obtain ⟨hvalid, rfl⟩ := (resident_recordFid_eq_ok slot).mp hfid
    exact mem_residentFids_of_valid hvalid

theorem marker_not_containerFid :
    ¬ContainerFid (residentContainerLayout sha256) slot.toUInt32 (residentMarkerFid slot) := by
  intro h
  have hne := resident_marker_ne slot h
  rw [toUInt8_toUInt32] at hne
  exact hne rfl

theorem recordFid_ne_marker {manifestSlot : Fin 2} {objectType : UInt16}
    (htype : objectType ∈ residentTypes) :
    residentRecordFid slot manifestSlot objectType ≠ residentMarkerFid slot := by
  have hrange := (residentRecordFid_range objectType htype manifestSlot).1.1
  rw [residentRecordFid_eq, residentMarkerFid, prefixedFid]
  omega

theorem marker_not_mem_retireFids {next : FileObjectManifest} {targetSlot : Fin 2} :
    residentMarkerFid slot ∉ retireFids ((residentContainerLayout sha256).manifestFid slot.toUInt32)
      (residentRecordFids slot) next targetSlot := by
  intro hmem
  rcases mem_retireFids.mp hmem with heq | ⟨manifestSlot, hrecord, -⟩
  · exact marker_not_containerFid (.inl ⟨_, heq⟩)
  · obtain ⟨objectType, htype, heq⟩ := mem_map.mp hrecord
    exact recordFid_ne_marker htype heq

variable {key : UInt16 × UInt16}

theorem residentNumber_mem (manifestSlot : Fin 2) (hkey : residentObjectTypeValid key.1 = true) :
    residentNumber slot manifestSlot key ∈ residentFids slot :=
  recordFids_subset_residentFids (mem_map_of_mem (mem_residentTypes hkey))

/-- The two files of an object are different ones. -/
theorem residentNumber_rev_ne (manifestSlot : Fin 2)
    (hkey : residentObjectTypeValid key.1 = true ∧ key.2 = 0) :
    residentNumber slot manifestSlot key ≠ residentNumber slot manifestSlot.rev key := by
  have hne : ∀ objectType ∈ residentTypes, ∀ i : Fin 2,
      residentRecordFid 0 i objectType ≠ residentRecordFid 0 i.rev objectType := by decide
  rw [residentNumber, residentNumber, residentRecordFid_eq slot, residentRecordFid_eq slot]
  have h := hne key.1 (mem_residentTypes hkey.1) manifestSlot
  omega

/-- A clean-up only deletes. -/
theorem keeps_residentRetire (I : FsState TxnRam → Prop)
    (hI : ∀ s fid, I s → I (s.setFile fid none)) (candidates : Fin 2 → Option FileObjectManifest)
    (next : FileObjectManifest) (currentSlot : Option (Fin 2)) (targetSlot : Fin 2) :
    Preserves I ((residentContainerLayout sha256).retire slot.toUInt32 candidates next
      currentSlot targetSlot) := by
  rw [resident_retire_eq]
  refine keeps_forEach fun fid _ A s hs ↦ ?_
  exact wp_fileDeleteQuietly ⟨hI s fid hs, trivial⟩ (fun _ ↦ ⟨hs, trivial⟩) fun _ ↦ hs

/-- A layout's callbacks stay in the slot. -/
theorem residentLayoutConfined :
    LayoutConfined (residentContainerLayout sha256) slot.toUInt32 (· ∈ residentFids slot) where
  manifest manifestSlot := containerFid_mem_residentFids (.inl ⟨manifestSlot, rfl⟩)
  allocate manifestSlot write auth := by
    show ConfinedReturns _ _ (residentLayoutRecordAllocate slot.toUInt32 manifestSlot write auth)
    rw [residentLayoutRecordAllocate, toUInt8_toUInt32]
    split_ifs with h
    · exact .fail _
    · rw [not_or, Bool.not_eq_true', Bool.not_eq_false] at h
      have hmem : residentNumber slot manifestSlot (write.objectType, 0) ∈ residentFids slot :=
        residentNumber_mem manifestSlot h.2
      exact .pure hmem
  activate := by
    show Confined _ (residentLayoutActivate slot.toUInt32)
    rw [residentLayoutActivate, toUInt8_toUInt32]
    exact confined_markerActivate marker_mem_residentFids _
  retire candidates next currentSlot targetSlot := by
    rw [resident_retire_eq]
    refine confined_forEach fun fid hfid ↦ .fileDeleteQuietly ?_
    rcases mem_retireFids.mp hfid with rfl | ⟨manifestSlot, hmem, -⟩
    · exact containerFid_mem_residentFids (.inl ⟨_, rfl⟩)
    · exact recordFids_subset_residentFids hmem

end Files

section Calls

variable {sha256 : Bytes → Bytes} {crypto : FileObjectContainerCrypto}
  {primary legacy : Option FileObjectContainerCrypto} {slot : UInt8} {A : Outcome → Prop}
  {s : FsState TxnRam} {P : Option Bytes → Prop}

/-! ### Updates -/

theorem residentContainerUpdate_confined (writes : List FileObjectContainerWrite) :
    Confined (· ∈ residentFids slot) (residentContainerUpdate sha256 primary legacy slot writes) := by
  rcases primary with - | crypto
  · exact .fail _
  · exact .bind .getState fun _ ↦ .ite (.fail _) (residentLayoutConfined.update writes false)

theorem residentContainerDelete_confined :
    Confined (· ∈ residentFids slot) (residentContainerDelete sha256 primary legacy slot) := by
  refine .bind (.fileSearch _) fun _ ↦ .ite (.fail _) ?_
  rcases primary with - | crypto
  · exact .fail _
  intro A s
  have hpresent (fid : ℕ) (hfid : fid ∈ residentFids slot) :
      Preserves (fun s' : FsState TxnRam ↦ ∀ f, f ∉ residentFids slot → s'.files f = s.files f)
        (fileDeletePresent fid) :=
    (ConfinedReturns.of_confined (Confined.fileDeletePresent hfid)).keeps s.files
  have hkeeps := @keeps_containerDelete _ (residentContainerLayout sha256) slot.toUInt32
    (fun s' ↦ ∀ f, f ∉ residentFids slot → s'.files f = s.files f) crypto legacy
    (fun object fid hfid ↦ hpresent fid (((resident_recordFid_eq_ok slot).mp hfid).2 ▸
      mem_residentFids_of_valid ((resident_recordFid_eq_ok slot).mp hfid).1))
    (fun manifestSlot ↦ hpresent _ (containerFid_mem_residentFids (.inl ⟨manifestSlot, rfl⟩))) ?_
  · exact wp_mono (hkeeps A s fun _ _ ↦ rfl) (fun _ _ h ↦ h.1) fun _ _ h ↦ h
  · show Keeps _ _ (residentLayoutDeactivate slot.toUInt32)
    rw [residentLayoutDeactivate, toUInt8_toUInt32]
    refine (ConfinedReturns.of_confined (.bind (confined_forEach fun fid hfid ↦
      .fileDeleteQuietly ?_) fun _ ↦ .fileDeletePresent marker_mem_residentFids)).keeps s.files
    exact (mem_append.mp hfid).elim recordFids_subset_residentFids
      recordFids_subset_residentFids

/-- What is known of a slot depends on its files. -/
theorem SlotHolds.congr {files files' : Files} (h : SlotHolds sha256 crypto slot P files)
    (hsame : ∀ fid, ContainerFid (residentContainerLayout sha256) slot.toUInt32 fid →
      files' fid = files fid) : SlotHolds sha256 crypto slot P files' := by
  rcases h with hdead | ⟨val, current, hlinked, hP⟩
  · exact .inl (hdead.congr hsame)
  · refine .inr ⟨val, current, ⟨hlinked.is.congr (fun manifestSlot ↦ hsame _ (.inl ⟨_, rfl⟩))
      fun fid hfid ↦ hsame fid (hlinked.is.containerFid hfid), ?_⟩, hP⟩
    intro manifestSlot manifest older hcurrent holder
    exact hlinked.linked manifestSlot manifest older hcurrent
      (holder.congr (hsame _ (.inl ⟨_, rfl⟩)).symm)

/-- The keys of a slot are at hand, or they are not. -/
abbrev KeysAre (crypto : FileObjectContainerCrypto) (primary : Option FileObjectContainerCrypto) :
    Prop :=
  primary = none ∨ primary = some crypto

variable {val : UInt16 × UInt16 → Bytes} {current : Option (Fin 2 × FileObjectManifest)}
  {writes : List FileObjectContainerWrite}

/-- **An update of a container** takes place, leaves it as it was, or takes it with it. -/
theorem wp_residentContainerUpdate_linked (hkeys : KeysAre crypto primary)
    (h : ResidentLinked sha256 crypto slot s.files val current)
    (writes : List FileObjectContainerWrite) :
    wp A (residentContainerUpdate sha256 primary legacy slot writes)
      (fun _ s' ↦ LinkedCommit (residentContainerLayout sha256) slot.toUInt32 crypto
        (residentNumber slot) current val (.update writes false) s'.files)
      (fun _ s' ↦ ¬A .late → ResidentLinked sha256 crypto slot s'.files val current ∨
        ContainerDead (residentContainerLayout sha256) slot.toUInt32 crypto s'.files ∨
        LinkedCommit (residentContainerLayout sha256) slot.toUInt32 crypto (residentNumber slot)
          current val (.update writes false) s'.files) s := by
  rcases hkeys with rfl | rfl
  · exact wp_fail fun _ ↦ .inl h
  · refine wp_get (wp_ite (fun _ ↦ wp_fail fun _ ↦ .inl h) fun _ ↦ ?_)
    exact wp_update_linked (residentNumbering slot).toSlotNumbering (residentLayoutSpec slot)
      (fun manifestSlot _ hkey ↦ residentNumber_rev_ne manifestSlot hkey) keeps_residentRetire h
      (fun _ _ ↦ trivial) false

theorem wp_residentContainerUpdate_dead (hkeys : KeysAre crypto primary)
    (h : ContainerDead (residentContainerLayout sha256) slot.toUInt32 crypto s.files)
    (writes : List FileObjectContainerWrite) :
    wp A (residentContainerUpdate sha256 primary legacy slot writes)
      (fun _ _ ↦ False) (fun _ s' ↦ s' = s) s := by
  rcases hkeys with rfl | rfl
  · exact wp_fail rfl
  · refine wp_get (wp_refuse rfl fun _ ↦ ?_)
    exact h.wp_update (residentLayoutSpec slot).valid writes false

/-- The state after some writes. -/
def stateAfter (writes : List FileObjectContainerWrite) (state : Option Bytes) : Option Bytes :=
  match writes.find? (·.key == residentStateKey) with
  | some write => some write.data
  | none => state

theorem LinkedCommit.slotHolds {files : Files}
    (h : LinkedCommit (residentContainerLayout sha256) slot.toUInt32 crypto (residentNumber slot)
      current val (.update writes false) files)
    (hP : P (stateAfter writes (currentData current val residentStateKey))) :
    SlotHolds sha256 crypto slot P files := by
  obtain ⟨val', next, hcommitted, hlinked⟩ := h
  refine .inr ⟨val', _, hlinked, ?_⟩
  rw [hcommitted.data_eq]
  exact hP

/-- **An update keeps** what is known of the state, if its writes do. -/
theorem wp_residentContainerUpdate_holds (hkeys : KeysAre crypto primary)
    (h : SlotHolds sha256 crypto slot P s.files)
    (hwrites : ∀ state, P state → P (stateAfter writes state)) :
    wp A (residentContainerUpdate sha256 primary legacy slot writes)
      (fun _ s' ↦ SlotHolds sha256 crypto slot P s'.files)
      (fun _ s' ↦ ¬A .late → SlotHolds sha256 crypto slot P s'.files) s := by
  rcases h with hdead | ⟨val, current, hlinked, hP⟩
  · exact wp_mono (wp_residentContainerUpdate_dead hkeys hdead writes) (fun _ _ h ↦ h.elim)
      fun _ _ h _ ↦ .inl (h ▸ hdead)
  · refine wp_mono (wp_residentContainerUpdate_linked hkeys hlinked writes)
      (fun _ _ h ↦ h.slotHolds (hwrites _ hP)) fun _ _ h hlate ↦ ?_
    rcases h hlate with hstay | hdead | hcommit
    · exact .inr ⟨val, current, hstay, hP⟩
    · exact .inl hdead
    · exact hcommit.slotHolds (hwrites _ hP)

/-- A marker that is there is not written. -/
theorem wp_residentContainerUpdate_marker
    (hmarker : residentContainerIsMarker slot (residentEntry s.files slot) = true)
    (writes : List FileObjectContainerWrite) :
    wp A (residentContainerUpdate sha256 primary legacy slot writes)
      (fun _ s' ↦ residentEntry s'.files slot = residentEntry s.files slot)
      (fun _ s' ↦ residentEntry s'.files slot = residentEntry s.files slot) s := by
  have hcontent := residentContainerIsMarker_iff.mp hmarker
  have hset (fid : ℕ) (hfid : fid ≠ residentMarkerFid slot) (s' : FsState TxnRam)
      (c : Option Bytes) (hs' : residentEntry s'.files slot = residentEntry s.files slot) :
      residentEntry (s'.setFile fid c).files slot = residentEntry s.files slot := by
    rw [residentEntry, FsState.files_setFile, Files.set_of_ne _ _ hfid.symm]
    exact hs'
  have hkeeps : UpdateKeeps (residentContainerLayout sha256) slot.toUInt32
      (fun s' ↦ residentEntry s'.files slot = residentEntry s.files slot)
      (· ≠ residentMarkerFid slot) (fun _ ↦ True) writes :=
    { delete := fun fid hfid ↦ .perform fun s' ↦ hset fid hfid s' none
      set := hset
      manifest := fun manifestSlot heq ↦ marker_not_containerFid (.inl ⟨manifestSlot, heq.symm⟩)
      allocate := fun manifestSlot _ write _ auth ↦ by
        show Keeps _ _ (residentLayoutRecordAllocate slot.toUInt32 manifestSlot write auth)
        rw [residentLayoutRecordAllocate, toUInt8_toUInt32]
        refine .ite (fun _ ↦ .fail _) fun hvalid ↦ .pure ?_
        rw [not_or, Bool.not_eq_true', Bool.not_eq_false] at hvalid
        exact recordFid_ne_marker (mem_residentTypes hvalid.2)
      activate := fun A s' hs' ↦ by
        show wp A (residentLayoutActivate slot.toUInt32) _ _ s'
        rw [residentLayoutActivate, toUInt8_toUInt32]
        refine wp_bind (wp_fileSearch (wp_return ⟨hs', trivial⟩ fun hne ↦ ?_))
        exact absurd (hs'.trans hcontent) hne
      retire := fun candidates next currentSlot targetSlot ↦ by
        rw [resident_retire_eq]
        refine keeps_forEach fun fid hfid A s' hs' ↦ ?_
        have hne : fid ≠ residentMarkerFid slot := by
          rintro rfl
          exact marker_not_mem_retireFids hfid
        exact wp_fileDeleteQuietly ⟨hset fid hne s' none hs', trivial⟩ (fun _ ↦ ⟨hs', trivial⟩)
          fun _ ↦ hs' }
  rcases primary with - | crypto
  · exact wp_fail rfl
  · exact wp_get (wp_refuse rfl fun _ ↦ hkeeps.update false rfl fun _ _ ↦ trivial)

end Calls

end PicoAll
