import PicoAll.Vault.KvaultHolds

/-!
# The calls on the vault

One rule for each call of `vault_container.c`: what the files hold if it succeeds, whatever happens
to the flash on the way, and what they hold if it is refused although nothing goes wrong with the
flash. The last key takes the container with it, and with it the label.
-/

namespace PicoAll

open FaultProgram List Option Function UInt8

section Calls

variable {V : VaultState} {current : Option (Fin 2 × FileObjectManifest)}
  {val : UInt16 × UInt16 → Bytes} {s : FsState TxnRam} {contents : VaultContents}
  {files : Files} {A : Outcome → Prop}

theorem length_vaultWrap (draw : ℕ) (encryptionKey kvault : VaultKey) :
    (vaultWrap V draw encryptionKey kvault).length = vaultRecordSize := by
  rw [vaultWrap, length_cons, V.aead.length_encryptWithAad, vaultRecordSize]

/-- What is wrapped is unwrapped with the same key. -/
theorem vaultUnwrap_vaultWrap (draw : ℕ) (encryptionKey kvault : VaultKey) :
    vaultUnwrap V encryptionKey (vaultWrap V draw encryptionKey kvault) = .ok kvault := by
  simp [vaultUnwrap, vaultWrap, V.aead.decryptWithAad_encryptWithAad]

namespace VaultIs

section

variable (h : VaultIs V contents s.files val current)
include h

theorem wp_setKvault (draw : ℕ) (kvault encryptionKey : VaultKey) (appId : UInt8) :
    wp A (picokeysVaultSetKvault V draw kvault encryptionKey appId)
      (fun _ s' ↦ VaultHolds V
        (contents.withKey appId (vaultWrap V draw encryptionKey kvault)) s'.files)
      (fun _ s' ↦ Undisturbed A → VaultHolds V contents s'.files ∧
        VaultRefuses V s.files (vaultObjectWrap, appId.toUInt16)) s := by
  have hlength := @length_vaultWrap V draw encryptionKey kvault
  refine wp_mono (wp_undisturbed (wp_vaultUpdate h.is (by simp) A)
    (h.wp_refused (.wrap appId _ hlength))) (fun _ _ hupdated ↦ h.wrapped hlength hupdated) ?_
  exact fun _ _ hrefused hA ↦ ⟨⟨_, _, (hrefused hA).1⟩, (hrefused hA).2⟩

theorem wp_setLabel (label : Bytes) :
    wp A (picokeysVaultSetLabel V label)
      (fun _ s' ↦ VaultHolds V (contents.withLabel label) s'.files)
      (fun _ s' ↦ Undisturbed A → VaultHolds V contents s'.files ∧
        (label.length ≤ vaultLabelMax → VaultRefuses V s.files (vaultObjectLabel, 0))) s := by
  refine wp_ite (fun hlong ↦ wp_fail fun _ ↦ ⟨⟨_, _, h⟩, fun hle ↦ absurd hlong (not_lt.mpr hle)⟩)
    fun hlength ↦ ?_
  rw [not_lt] at hlength
  refine wp_mono (wp_undisturbed (wp_vaultUpdate h.is (by simp) A)
    (h.wp_refused (.label label hlength))) (fun _ _ hupdated ↦ h.labelled hlength hupdated) ?_
  exact fun _ _ hrefused hA ↦ ⟨⟨_, _, (hrefused hA).1⟩, fun _ ↦ (hrefused hA).2⟩

/-- The label is read into a buffer that has room for it. -/
theorem wp_getLabel {capacity : ℕ}
    (hcap : vaultLabelMax ≤ capacity) {E : Exit Status → FsState TxnRam → Prop} :
    wp A (picokeysVaultGetLabel V capacity) (fun label _ ↦ label = contents.label.getD []) E s := by
  have hroom : ∀ data, currentData current val (vaultObjectLabel, 0) = some data →
      data.length ≤ capacity := fun data hdata ↦
    (h.length_label data (by rw [← h.label_eq, hdata])).trans hcap
  refine wp_get ?_
  have hread := h.read_eq (vaultObjectLabel, 0) hroom
  rw [h.label_eq] at hread
  rw [hread]
  rcases hlabel : contents.label with - | label
  · exact wp_pure rfl
  · exact wp_pure rfl

end

/-- What the earlier firmware left is valid. -/
theorem legacy_file (h : VaultIs V contents files val current) {record label : Bytes}
    (hlegacy : contents.legacy = some (record, label)) :
    record.length = vaultRecordSize ∧ label = vaultLegacyLabel V files ∧
      ∀ file ∈ V.legacyFile, vaultLegacyRecord (files file) = some record := by
  rw [← h.legacy_eq, vaultLegacyVault, bind_eq_some_iff] at hlegacy
  obtain ⟨file, hfile, hlegacy⟩ := hlegacy
  obtain ⟨record', hrecord, hpair⟩ := map_eq_some_iff.mp hlegacy
  cases hpair
  refine ⟨?_, rfl, fun file' hfile' ↦ ?_⟩
  · have hvalid := (filter_eq_some_iff.mp hrecord).2
    rw [vaultRecordValid, Bool.and_eq_true, beq_iff_eq] at hvalid
    exact hvalid.1
  · cases mem_unique hfile hfile'
    exact hrecord

/-- Clearing the label file changes nothing any more. -/
theorem wp_clearLabelFile (h : VaultHolds V contents s.files) (hlegacy : contents.legacy = none) :
    wp A (vaultClearLabelFile V) (fun _ s' ↦ VaultHolds V contents s'.files)
      (fun _ _ ↦ ¬Undisturbed A) s := by
  rw [vaultClearLabelFile]
  rcases hfile : V.legacyLabelFile with - | file
  · exact wp_pure h
  obtain ⟨val, current, h⟩ := h
  have hnot {o : Outcome} (ho : A o) (hne : o ≠ .ok) : ¬Undisturbed A := fun hA ↦ hne (hA o ho)
  refine wp_perform ⟨val, current, h.of_outside (fun fid hfid ↦ ?_) ?_⟩ (fun h ↦ hnot h (by simp))
    (fun h ↦ hnot h (by simp)) fun h ↦ hnot h (by simp)
  · exact Files.set_of_ne _ _ fun heq ↦ file.not_range (heq ▸ hfid)
  · rw [h.legacy_eq, hlegacy, vaultLegacyVault_eq_none]
    intro legacyFile hlegacyFile
    have hne : (legacyFile : ℕ) ≠ file := fun heq ↦
      V.files_ne legacyFile hlegacyFile file hfile (Subtype.ext heq)
    rw [FsState.files_setFile, Files.set_of_ne _ _ hne]
    exact vaultLegacyVault_eq_none.mp (h.legacy_eq.trans hlegacy) legacyFile hlegacyFile

/-- **The migration.** -/
theorem wp_migrateLegacy (h : VaultIs V contents s.files val current)
    (hkey : contents.keys 0 = none) (hfile : V.legacyFile.isSome = true) :
    wp A (vaultMigrateLegacy V)
      (fun _ s' ↦ VaultHolds V contents.migrated s'.files ∧ contents.migrated.keys 0 ≠ none)
      (fun e s' ↦ Undisturbed A → s' = s ∧ contents.migrated = contents ∧
        e = .code (if contents.legacy.isSome then .wrongLength else .fileNotFound)) s := by
  obtain ⟨file, hfile⟩ := isSome_iff_exists.mp hfile
  rw [vaultMigrateLegacy, hfile]
  refine wp_get ?_
  simp only [h.getWrapRecord, hkey, readResult]
  rcases hlegacy : contents.legacy with - | ⟨record, label⟩
  · rw [vaultLegacyVault_eq_none.mp (h.legacy_eq.trans hlegacy) file hfile]
    exact wp_fail fun _ ↦ ⟨rfl, VaultContents.migrated_of_none hlegacy, by simp⟩
  have hcurrent := h.absent (by simp [hlegacy])
  subst hcurrent
  obtain ⟨hlength, hlabel, hrecord⟩ := h.legacy_file hlegacy
  rw [hrecord file hfile, ← hlabel]
  refine wp_ite (fun hlong ↦ wp_fail fun _ ↦ ⟨rfl, ?_, by simp⟩) fun hshort ↦ ?_
  · rw [VaultContents.migrated, hlegacy]
    exact if_neg (not_le.mpr hlong)
  rw [not_lt] at hshort
  have hwrites : ∀ write ∈ vaultMigrationWrites record label, VaultWrite write := by
    intro write hwrite
    rcases mem_cons.mp hwrite with rfl | hwrite
    · exact .wrap 0 record hlength
    · cases mem_singleton.mp hwrite
      exact .label label hshort
  have hne : vaultMigrationWrites record label ≠ [] := by simp [vaultMigrationWrites]
  have hok : UpdateOk V.layout 0 V.primary (fun _ ↦ True) (· = .ok) False (fun _ ↦ False) none
      s.files (vaultMigrationWrites record label) := by
    have htwo : 2 ≤ manifestMaxObjects := by decide
    refine vaultUpdateOk hwrites hne htwo ?_ (by simp [currentObjects]) (fun hlong ↦ ?_) (by decide)
    · have hkeys : (vaultWrapWrite 0 record).key ≠ (vaultLabelWrite label).key :=
        vaultWrapWrite_key_ne
      simpa [vaultMigrationWrites] using hkeys
    · have hle := (dedup_sublist ((currentObjects none).map (·.key) ++
        (vaultMigrationWrites record label).map (·.key))).length_le
      simp only [currentObjects, vaultMigrationWrites, map_nil, nil_append, map_cons,
        length_cons, length_nil, manifestMaxObjects] at hle hlong
      omega
  have hupdate := wp_undisturbed (wp_vaultUpdate h.is hne A)
    (wp_vaultUpdate_undisturbed h.is hne hok)
  refine wp_seq hupdate ?_ fun _ _ h hA ↦ (h hA).elim
  rintro - s₁ hupdated
  obtain ⟨hmigrated, hholds⟩ := h.migrated hlegacy hlength hshort hupdated
  have hlegacy' : contents.migrated.legacy = none := by
    rw [VaultContents.migrated, hlegacy]
    simp [hshort]
  exact wp_mono (wp_clearLabelFile hholds hlegacy') (fun _ _ h ↦ ⟨h, by simp [hmigrated]⟩)
    fun _ _ h hA ↦ absurd hA h

/-- Unwrapping what has been read. -/
theorem wp_unwrap {record : Bytes} {encryptionKey : VaultKey} {P : FsState TxnRam → Prop}
    (h : P s) :
    wp A (liftExcept (vaultUnwrap V encryptionKey record))
      (fun key s' ↦ P s' ∧ vaultUnwrap V encryptionKey record = .ok key)
      (fun e s' ↦ Undisturbed A → P s' ∧ ∃ r, e = .code r ∧
        vaultUnwrap V encryptionKey record = .error r) s :=
  wp_liftExcept (fun _ hkey ↦ ⟨h, hkey⟩) fun r hr _ ↦ ⟨h, r, rfl, hr⟩

variable {appId : UInt8} {manifest : FileObjectManifest}

theorem legacy_none_of_key (h : VaultIs V contents files val current)
    (hkey : contents.keys appId ≠ none) : contents.legacy = none := by
  by_contra hpending
  cases h.absent hpending
  exact hkey (h.keys_none appId)

/-- **Reading a key** gives what the map has, with the earlier firmware's vault migrated. -/
theorem wp_getKvault (h : VaultIs V contents s.files val current) (appId : UInt8)
    (encryptionKey : VaultKey) :
    wp A (picokeysVaultGetKvault V appId encryptionKey)
      (fun key s' ↦ VaultHolds V (contents.read appId) s'.files ∧
        contents.keyAnswer V appId encryptionKey = .ok key)
      (fun e s' ↦ Undisturbed A → VaultHolds V (contents.read appId) s'.files ∧
        ∃ r, e = .code r ∧ contents.keyAnswer V appId encryptionKey = .error r) s := by
  refine wp_get ?_
  simp only [h.getWrapRecord]
  refine wp_ite (fun ⟨hread, happ, hfile⟩ ↦ ?_) fun hnot ↦ ?_
  · -- there is no key of application 0, and perhaps one of the earlier firmware
    subst happ
    have hkey : contents.keys 0 = none := by
      rcases hkey : contents.keys 0 with - | record
      · rfl
      · rw [hkey] at hread
        cases hread
    refine wp_seq (h.wp_migrateLegacy hkey hfile) ?_ ?_
    · rintro - s₁ ⟨⟨val', current', hmigrated⟩, hsome⟩
      obtain ⟨record, hrecord⟩ := ne_none_iff_exists'.mp hsome
      refine wp_get ?_
      rw [hmigrated.getWrapRecord, hrecord]
      have hanswer : contents.keyAnswer V 0 encryptionKey = vaultUnwrap V encryptionKey record := by
        rw [VaultContents.keyAnswer, VaultContents.read, if_pos rfl, hrecord]
      rw [hanswer]
      exact wp_bind (wp_pure (wp_unwrap ⟨val', current', hmigrated⟩))
    · intro e s' herr hA
      obtain ⟨rfl, hsame, rfl⟩ := herr hA
      have hread : contents.read 0 = contents := by rw [VaultContents.read, if_pos rfl, hsame]
      refine ⟨⟨val, current, ?_⟩, _, rfl, by simp [VaultContents.keyAnswer, hread, hkey]⟩
      rw [hread]
      exact h
  · -- the key is read as it is
    have hlegacy : appId = 0 → contents.legacy = none := by
      intro happ
      by_contra hpending
      cases h.absent hpending
      refine hnot ⟨by rw [h.keys_none]; rfl, happ, ?_⟩
      rw [← h.legacy_eq, vaultLegacyVault] at hpending
      rcases hfile : V.legacyFile with - | file
      · simp [hfile] at hpending
      · rfl
    have hsame : contents.read appId = contents := by
      rw [VaultContents.read]
      split_ifs with happ
      · exact VaultContents.migrated_of_none (hlegacy happ)
      · rfl
    rw [hsame]
    have hholds : VaultHolds V contents s.files := ⟨val, current, h⟩
    rcases hkey : contents.keys appId with - | record
    · refine wp_bind (wp_fail fun _ ↦ ⟨hholds, _, rfl, ?_⟩)
      have hnone : ¬(appId = 0 ∧ contents.legacy.isSome = true) := fun h ↦ by simp [hlegacy h.1] at h
      rw [VaultContents.keyAnswer, hsame, hkey, if_neg hnone]
    · have hanswer : contents.keyAnswer V appId encryptionKey =
          vaultUnwrap V encryptionKey record := by
        rw [VaultContents.keyAnswer, hsame, hkey]
      rw [hanswer]
      exact wp_bind (wp_pure (wp_unwrap hholds))

theorem mem_keys (h : VaultIs V contents files val current) :
    contents.keys appId ≠ none ↔
      (vaultObjectWrap, appId.toUInt16) ∈ (currentObjects current).map (·.key) := by
  rw [← h.keys_eq, currentData]
  split_ifs with hmem <;> simp [hmem]

/-- A wrapped key is that of some application. -/
theorem wrap_key {slot : Fin 2} (h : VaultIs V contents files val (some (slot, manifest)))
    {object : FileObjectDescriptor} (hobject : object ∈ manifest.objects)
    (htype : object.objectType = vaultObjectWrap) :
    ∃ appId : UInt8, object.key = (vaultObjectWrap, appId.toUInt16) ∧ contents.keys appId ≠ none := by
  have hvalid : vaultDescriptorValid 0 object = true :=
    (ContainerHolds.records h.is object hobject).valid
  simp only [vaultDescriptorValid, Bool.and_eq_true, decide_eq_true_eq] at hvalid
  have htag : object.objectTag.toUInt8.toUInt16 = object.objectTag :=
    toUInt8_inj (appId_le _) hvalid.1.1.1.2 (toUInt8_toUInt16 _)
  have hkey : object.key = (vaultObjectWrap, object.objectTag.toUInt8.toUInt16) := by
    rw [htag, ← htype]
    rfl
  exact ⟨_, hkey, h.mem_keys.mpr (mem_map.mpr ⟨object, hobject, hkey⟩)⟩

/-- `wrap_count` is one where no other application has a key. -/
theorem wrapCount_eq_one {slot : Fin 2} (h : VaultIs V contents files val (some (slot, manifest)))
    (hkey : contents.keys appId ≠ none) :
    vaultWrapCount manifest = 1 ↔ ∀ other, other ≠ appId → contents.keys other = none := by
  have hnodup := nodup_key_of_sorted (ContainerHolds.manifestFile h.is).built.sorted
  obtain ⟨object, hobject, hobjectKey⟩ := mem_map.mp (h.mem_keys.mp hkey)
  have hwrap {o : FileObjectDescriptor} {app : UInt8} (ho : o ∈ manifest.objects)
      (hkey : o.key = (vaultObjectWrap, app.toUInt16)) :
      o ∈ manifest.objects.filter (·.objectType == vaultObjectWrap) :=
    mem_filter.mpr ⟨ho, beq_iff_eq.mpr (congrArg Prod.fst hkey)⟩
  rw [vaultWrapCount, countP_eq_length_filter]
  constructor
  · intro hone other hother
    by_contra hpresent
    obtain ⟨o, ho, hoKey⟩ := mem_map.mp (h.mem_keys.mp hpresent)
    obtain ⟨only, honly⟩ := length_eq_one_iff.mp hone
    have h₁ := hwrap hobject hobjectKey
    have h₂ := hwrap ho hoKey
    rw [honly, mem_singleton] at h₁ h₂
    rw [h₂, ← h₁, hobjectKey] at hoKey
    exact hother (toUInt16_inj.mp (congrArg Prod.snd hoKey)).symm
  · intro hothers
    have hsub : manifest.objects.filter (·.objectType == vaultObjectWrap) ⊆ [object] := by
      intro o ho
      obtain ⟨ho, htype⟩ := mem_filter.mp ho
      obtain ⟨app, hoKey, happ⟩ := h.wrap_key ho (by simpa using htype)
      have heq : app = appId := by
        by_contra hne
        exact happ (hothers app hne)
      rw [heq, ← hobjectKey] at hoKey
      exact mem_singleton.mpr (inj_on_of_nodup_map hnodup ho hobject hoKey)
    have hle := (subperm_of_subset ((hnodup.of_map _).filter _) hsub).length_le
    have hpos := length_pos_of_mem (hwrap hobject hobjectKey)
    rw [length_singleton] at hle
    omega

end VaultIs

/-- Deleting the container does not bring the earlier vault back. -/
theorem vaultDelete_keepsSettled :
    Preserves (fun s ↦ vaultLegacyVault V s.files = none)
      (fileObjectContainerDelete V.layout 0 V.primary V.legacy) := by
  refine keeps_containerDelete (fun object fid hfid ↦ ?_) (fun slot ↦ ?_) ?_
  · obtain ⟨hvalid, rfl⟩ := (@vault_recordFid_eq_ok V.sha256 _ object fid).mp hfid
    have hrange := vaultRecordIdValid_range hvalid
    exact Confined.keepsSettled (.fileDeletePresent ⟨Nat.le_trans (by decide) hrange.1, hrange.2⟩)
  · exact Confined.keepsSettled (.fileDeletePresent (vaultRange_manifest slot))
  · show Keeps _ _ (vaultLayoutDeactivate (V.legacyFile.map (·.1)) 0)
    rcases hfile : V.legacyFile with - | file
    · exact .pure trivial
    · have hempty : vaultRecordValid [] = false := rfl
      exact .ite (fun _ ↦ .pure trivial) fun _ ↦
        .perform fun s _ ↦ vaultLegacyVault_clear hfile hempty

/-- An undisturbed deletion of the container finishes. -/
theorem wp_vaultDelete_undisturbed {slot : Fin 2} {manifest : FileObjectManifest}
    (hcurrent : ContainerIs V.layout 0 V.primary s.files val (some (slot, manifest))) :
    wp (· = .ok) (fileObjectContainerDelete V.layout 0 V.primary V.legacy) (fun _ _ ↦ True)
      (fun _ _ ↦ False) s := by
  obtain ⟨state, hload, hstate⟩ := @ContainerHolds.load _ _ _ V.legacy _ _ _ _ vaultSpec.valid hcurrent
  have hpresent (fid : ℕ) (s : FsState TxnRam) :
      wp (· = .ok) (fileDeletePresent fid) (fun _ _ ↦ True) (fun _ _ ↦ False) s :=
    wp_fileDeletePresent trivial (by simp)
  have hslot (i : Fin 2) (s : FsState TxnRam) :
      wp (· = .ok) (containerDeleteSlot V.layout 0 state i) (fun _ _ ↦ True) (fun _ _ ↦ False) s := by
    rw [containerDeleteSlot]
    rcases hcandidate : state.candidates i with - | m
    · exact hpresent _ s
    refine wp_then (wp_forEach (I := fun _ ↦ True) trivial fun object hobject s' _ ↦ ?_)
      fun _ s₁ _ ↦ hpresent _ s₁
    obtain ⟨fid, -, hfid, -⟩ := (hstate.framed i m hcandidate object hobject).framed
    rw [hfid]
    exact wp_bind (wp_pure (hpresent fid s'))
  unfold fileObjectContainerDelete
  refine wp_ite (fun hlayout ↦ by simp [vaultSpec.valid] at hlayout) fun _ ↦ wp_get ?_
  rw [hload]
  refine wp_bind (wp_pure (wp_then (hslot 0 s) fun _ s₁ _ ↦ ?_))
  refine wp_then (hslot 1 s₁) fun _ s₂ _ ↦ ?_
  show wp (· = .ok) (vaultLayoutDeactivate (V.legacyFile.map (·.1)) 0) (fun _ _ ↦ True)
    (fun _ _ ↦ False) s₂
  rcases V.legacyFile with - | file
  · exact wp_pure trivial
  · have hclear : wp (· = .ok) (flashClearFile file : FsProg TxnRam Unit) (fun _ _ ↦ True)
        (fun _ _ ↦ False) s₂ :=
        wp_perform trivial (by simp) (by simp) (by simp)
    exact wp_return trivial fun _ ↦ hclear

namespace VaultIs

/-- Deleting a key of a vault that has no container. -/
theorem wp_delete_absent (h : VaultIs V contents s.files val none) (appId : UInt8) :
    wp A (picokeysVaultDeleteKvault V appId)
      (fun _ s' ↦ VaultHolds V (contents.deleted appId) s'.files) (fun _ _ ↦ ¬Undisturbed A) s := by
  have hnot {o : Outcome} (ho : A o) (hne : o ≠ .ok) : ¬Undisturbed A := fun hA ↦ hne (hA o ho)
  have hkeys (app : UInt8) : Function.update contents.keys appId none app = none := by
    rw [update_apply, h.keys_none]
    exact ite_self none
  have hempty : contents.deleted appId =
      ⟨fun _ ↦ none, none, if appId = 0 then none else contents.legacy⟩ := by
    simp only [VaultContents.deleted, funext hkeys, ne_eq, not_true_eq_false, exists_false, if_false]
  have hholds {s' : FsState TxnRam} {legacy : Option (Bytes × Bytes)}
      (hsame : ∀ fid, VaultRange fid → s'.files fid = s.files fid)
      (hlegacy : vaultLegacyVault V s'.files = legacy) :
      VaultHolds V ⟨fun _ ↦ none, none, legacy⟩ s'.files := by
    refine ⟨val, none, h.is.congr (fun slot ↦ hsame _ (vaultRange_manifest slot)) fun _ hfid ↦
      hsame _ (vault_containerFid (h.is.containerFid hfid)), fun _ ↦ rfl, rfl, hlegacy, fun _ ↦ rfl,
      nofun, nofun⟩
  rw [hempty]
  refine wp_get ?_
  simp only [ContainerAbsent.load vaultSpec.valid h.is]
  refine wp_ite (fun happ ↦ ?_) fun happ ↦ ?_
  · rw [if_pos happ]
    -- the earlier vault goes first
    have hlabel {s₁ : FsState TxnRam} (hsame : ∀ fid, VaultRange fid → s₁.files fid = s.files fid)
        (hsettled : vaultLegacyVault V s₁.files = none) :
        wp A (vaultClearLabelFile V)
          (fun _ s' ↦ VaultHolds V ⟨fun _ ↦ none, none, none⟩ s'.files)
          (fun _ _ ↦ ¬Undisturbed A) s₁ :=
      wp_clearLabelFile (hholds hsame hsettled) rfl
    rcases hfile : V.legacyFile with - | file
    · exact wp_ite (by simp) fun _ ↦
        hlabel (fun _ _ ↦ rfl) (vaultLegacyVault_eq_none.mpr (by simp [hfile]))
    refine wp_ite (fun hrecord ↦ wp_bind ?_) fun hnone ↦ hlabel (fun _ _ ↦ rfl) ?_
    · have hsome : (vaultLegacyRecord (s.files file)).isSome = true := by simpa using hrecord
      have hdata : fileHasData (s.files file) = true := by
        obtain ⟨record, hrecord⟩ := isSome_iff_exists.mp hsome
        obtain ⟨hcontent, hvalid⟩ := filter_eq_some_iff.mp hrecord
        rw [hcontent, fileHasData_some]
        rintro rfl
        cases hvalid
      rw [vaultClearLegacyRecord, hfile]
      refine wp_bind (wp_fileSearch (wp_ite (fun hempty ↦ by simp [hdata] at hempty) fun _ ↦
        wp_ite (fun hnone ↦ by simp [isNone_iff_eq_none.mp hnone] at hsome) fun _ ↦ ?_))
      refine wp_perform (hlabel (fun fid hfid ↦ ?_) (vaultLegacyVault_clear hfile rfl))
        (fun h ↦ hnot h (by simp)) (fun h ↦ hnot h (by simp)) fun h ↦ hnot h (by simp)
      exact Files.set_of_ne _ _ fun heq ↦ file.not_range (heq ▸ hfid)
    · rw [vaultLegacyVault_eq_none, hfile]
      rintro _ ⟨⟩
      simpa using hnone
  · rw [if_neg happ]
    exact wp_pure (hholds (fun _ _ ↦ rfl) h.legacy_eq)

variable {manifest : FileObjectManifest} {slot : Fin 2} {appId : UInt8}

/-- The deletion goes by the current manifest. -/
theorem deleteManifest (h : VaultIs V contents files val (some (slot, manifest)))
    {state : FileObjectContainerState}
    (hstate : LoadedState V.layout 0 V.primary files slot manifest state) :
    vaultDeleteManifest V files state = .ok manifest := by
  have hvalidate := ContainerHolds.validate h.is
  rw [vaultDeleteManifest, hstate.current_eq, hstate.crypto_eq, hvalidate]

/-- The last key takes the container with it. -/
theorem wp_delete_last (h : VaultIs V contents s.files val (some (slot, manifest)))
    (hothers : ∀ other, other ≠ appId → contents.keys other = none) :
    wp A (fileObjectContainerDelete V.layout 0 V.primary V.legacy)
      (fun _ s' ↦ VaultHolds V (contents.deleted appId) s'.files) (fun _ _ ↦ ¬Undisturbed A) s := by
  have hsettled : vaultLegacyVault V s.files = none := by
    rw [h.legacy_eq]
    by_contra hpending
    cases h.absent hpending
  have hkeys (app : UInt8) : Function.update contents.keys appId none app = none := by
    rw [update_apply]
    split_ifs with happ
    · rfl
    · exact hothers app happ
  have hempty : contents.deleted appId = ⟨fun _ ↦ none, none, none⟩ := by
    have hlegacy : contents.legacy = none := h.legacy_eq.symm.trans hsettled
    simp only [VaultContents.deleted, funext hkeys, ne_eq, not_true_eq_false, exists_false, if_false,
      hlegacy, ite_self]
  have hdelete := wp_undisturbed (wp_mono (wp_and (wp_fileObjectContainerDelete vaultSpec h.is)
    (vaultDelete_keepsSettled A s hsettled)) (fun _ _ h ↦ h) fun _ _ _ ↦ trivial)
    (wp_vaultDelete_undisturbed h.is)
  rw [hempty]
  refine wp_mono hdelete ?_ fun _ _ h hA ↦ h hA
  rintro - s' ⟨hdeleted, hsettled', -⟩
  exact ⟨fun _ ↦ [], none, hdeleted.absent, fun _ ↦ rfl, rfl, hsettled', fun _ ↦ rfl, nofun, nofun⟩

/-- Another application's key stays, and so does the label. -/
theorem wp_delete_one (h : VaultIs V contents s.files val (some (slot, manifest))) {other : UInt8}
    (hkey : contents.keys appId ≠ none) (hother : other ≠ appId)
    (hkept : contents.keys other ≠ none) :
    wp A (fileObjectContainerRemove V.layout 0 vaultObjectWrap appId.toUInt16 V.primary V.legacy)
      (fun _ s' ↦ VaultHolds V (contents.deleted appId) s'.files)
      (fun _ s' ↦ Undisturbed A → VaultHolds V contents s'.files ∧ manifest.generation = 0xffffffff)
      s := by
  have hlegacy := h.legacy_none_of_key hkey
  have hsettled := h.legacy_eq.trans hlegacy
  have hkeeps := (@vaultRemove_confined V vaultObjectWrap appId.toUInt16).keepsSettled (V := V)
  have hcall := @wp_containerCall _ _ V.primary V.legacy val _ _ vaultSpec A (fun _ ↦ False) s _
    (fun _ ↦ False.elim) h.is (.remove vaultObjectWrap appId.toUInt16) (by simp
      [ContainerCall.writes]) (by simp [CallFresh, ContainerCall.writes]) vaultSpec.cleanupOk
  have hok : RemoveOk (manifest.generation = 0xffffffff) (some (slot, manifest))
      (vaultObjectWrap, appId.toUInt16) := by
    refine ⟨fun hnot ↦ absurd (h.mem_keys.mp hkey) hnot, fun hone ↦ ?_, id⟩
    -- there are two keys
    have hsub : [(vaultObjectWrap, appId.toUInt16), (vaultObjectWrap, other.toUInt16)] ⊆
        manifest.objects.map (·.key) := by
      intro key hmem
      rcases mem_cons.mp hmem with rfl | hmem
      · exact h.mem_keys.mp hkey
      · cases mem_singleton.mp hmem
        exact h.mem_keys.mp hkept
    have hnodup : [(vaultObjectWrap, appId.toUInt16), (vaultObjectWrap, other.toUInt16)].Nodup := by
      simpa [toUInt16_inj] using Ne.symm hother
    have hle := (subperm_of_subset hnodup hsub).length_le
    rw [length_map] at hle
    exact absurd (hle.trans hone) (by simp)
  have hremove := @wp_fileObjectContainerRemove _ _ _ V.legacy _ vaultSpec (· = .ok) _
    (CurrentRecord V.layout 0 (some (slot, manifest))) _ _ _ _ _ _ h.is hok vault_cleanupOk
  refine wp_mono (wp_undisturbed (wp_mono (wp_and hcall (hkeeps A s hsettled)) (fun _ _ h ↦ h)
    fun _ _ _ ↦ trivial) (wp_mono (wp_and hremove (hkeeps _ s hsettled)) (fun _ _ _ ↦ trivial)
    fun _ _ h ↦ h)) ?_ ?_
  · rintro - s' ⟨⟨val', next, hcommitted, -⟩, hsettled', -⟩
    have hlabel : (contents.deleted appId).label = contents.label := by
      refine if_pos ⟨other, ?_⟩
      rw [update_of_ne hother]
      exact hkept
    refine ⟨val', _, hcommitted.holds, fun app ↦ ?_, ?_, ?_, fun hpending ↦ ?_, fun app record hr ↦ ?_,
      fun label hl ↦ ?_⟩
    · rw [hcommitted.data_eq, ContainerCall.effect, h.keys_eq]
      simp only [VaultContents.deleted, update_apply, Prod.mk.injEq, true_and,
        toUInt16_inj]
    · have hne : (vaultObjectLabel, (0 : UInt16)) ≠ (vaultObjectWrap, appId.toUInt16) :=
        fun heq ↦ absurd (congrArg Prod.fst heq) (by decide : vaultObjectLabel ≠ vaultObjectWrap)
      rw [hcommitted.data_eq, ContainerCall.effect, if_neg hne, h.label_eq, hlabel]
    · rw [hsettled']
      simp [VaultContents.deleted, hlegacy]
    · simp [VaultContents.deleted, hlegacy] at hpending
    · simp only [VaultContents.deleted, update_apply] at hr
      split_ifs at hr
      exact h.length_key app record hr
    · rw [hlabel] at hl
      exact h.length_label label hl
  · rintro e s' herr hA
    obtain ⟨⟨hstopped, hfaulty⟩, hsettled'⟩ := herr hA
    have hgeneration : manifest.generation = 0xffffffff := by
      rcases hfaulty with h | h | h | h
      · cases h
      · cases h
      · cases h
      · exact h
    refine ⟨?_, hgeneration⟩
    rcases hstopped (by simp) with hstopped | ⟨next, hupdated⟩
    · exact ⟨val, _, h.congr (hstopped.containerIs vaultSpec h.is) (hsettled'.trans hsettled.symm)⟩
    · -- there is no generation after the last one
      have hnext := hupdated.generation_eq
      rw [show currentGeneration (some (slot, manifest)) = 0xffffffff from hgeneration] at hnext
      have hlt := next.generation.toNat_lt
      have hmax : (0xffffffff : UInt32).toNat = 0xffffffff := rfl
      omega

theorem find_isNone (h : VaultIs V contents files val (some (slot, manifest))) :
    (fileObjectContainerFind manifest vaultObjectWrap appId.toUInt16).isNone = true ↔
      contents.keys appId = none := by
  rw [isNone_iff_eq_none, fileObjectContainerFind, find?_eq_none, ← not_iff_not, ← ne_eq,
    h.mem_keys]
  simp [currentObjects]

/-- **Deleting a key.** -/
theorem wp_deleteKvault (h : VaultIs V contents s.files val current) (appId : UInt8) :
    wp A (picokeysVaultDeleteKvault V appId)
      (fun _ s' ↦ VaultHolds V (contents.deleted appId) s'.files)
      (fun _ s' ↦ Undisturbed A → VaultHolds V contents s'.files ∧ (contents.keys appId = none ∨
        ∃ slot manifest, containerManifest V.layout 0 V.primary V.legacy s.files =
          some (slot, manifest) ∧ manifest.generation = 0xffffffff)) s := by
  rcases current with - | ⟨slot, manifest⟩
  · exact wp_mono (h.wp_delete_absent appId) (fun _ _ h ↦ h) fun _ _ h hA ↦ absurd hA h
  obtain ⟨state, hload, hstate⟩ := @ContainerHolds.load _ _ _ V.legacy _ _ _ _ vaultSpec.valid h.is
  refine wp_get ?_
  simp only [hload, h.deleteManifest hstate]
  refine wp_bind (wp_pure ?_)
  refine wp_ite (fun hnone ↦ wp_fail fun _ ↦ ⟨⟨val, _, h⟩, .inl (h.find_isNone.mp hnone)⟩)
    fun hsome ↦ ?_
  have hkey : contents.keys appId ≠ none := fun hnone ↦ hsome (h.find_isNone.mpr hnone)
  refine wp_ite (fun hcount ↦ ?_) fun hcount ↦ ?_
  · exact wp_mono (h.wp_delete_last ((h.wrapCount_eq_one hkey).mp hcount)) (fun _ _ h ↦ h)
      fun _ _ h hA ↦ absurd hA h
  · rw [h.wrapCount_eq_one hkey] at hcount
    push Not at hcount
    obtain ⟨other, hother, hkept⟩ := hcount
    refine wp_mono (h.wp_delete_one hkey hother hkept) (fun _ _ h ↦ h) fun _ _ herr hA ↦ ?_
    exact ⟨(herr hA).1, .inr ⟨slot, manifest, h.is.manifest_eq V.legacy vaultSpec.valid,
      (herr hA).2⟩⟩

/-- **A call** does to the files what it does to the map. -/
theorem wp_call (h : VaultIs V contents s.files val current) (call : VaultCall) :
    wp A (call.run V) (fun _ s' ↦ VaultHolds V (contents.after V call true) s'.files)
      (fun _ s' ↦ Undisturbed A → VaultHolds V (contents.after V call false) s'.files) s := by
  cases call with
  | setKvault draw kvault encryptionKey appId =>
    exact wp_mono (h.wp_setKvault draw kvault encryptionKey appId) (fun _ _ h ↦ h)
      fun _ _ h hA ↦ (h hA).1
  | getKvault appId encryptionKey =>
    exact wp_mono (h.wp_getKvault appId encryptionKey) (fun _ _ h ↦ h.1) fun _ _ h hA ↦ (h hA).1
  | setLabel label =>
    exact wp_mono (h.wp_setLabel label) (fun _ _ h ↦ h) fun _ _ h hA ↦ (h hA).1
  | getLabel capacity =>
    have hholds : VaultHolds V contents s.files := ⟨val, current, h⟩
    refine wp_get ?_
    split
    · exact wp_pure hholds
    · exact wp_pure hholds
    · exact wp_fail fun _ ↦ hholds
  | deleteKvault appId =>
    exact wp_mono (h.wp_deleteKvault appId) (fun _ _ h ↦ h) fun _ _ h hA ↦ (h hA).1

end VaultIs

end Calls

end PicoAll
