import PicoAll.Vault.KvaultContainer

/-!
# What the vault holds

What the vault is for (`VaultContents`): it maps application ids to wrapped keys, and has one label.
Next to that there may be a vault of an earlier firmware. It becomes part of the map when the key of
application 0 is read, whole and only once; until then the label is that of an empty map.

The files hold the vault (`VaultIs`) if the container has the keys and the label, and the files of the
earlier firmware have what is still to be migrated, which is the case only as long as there is no
container.
-/

namespace PicoAll

open FaultProgram List Function

/-! ### The map -/

/-- What a vault holds. -/
structure VaultContents where
  /-- The wrapped keys. -/
  keys : UInt8 → Option Bytes
  label : Option Bytes
  /-- The wrapped key and the label of an earlier firmware, not migrated yet. -/
  legacy : Option (Bytes × Bytes)

namespace VaultContents

variable (contents : VaultContents)

/-- The contents after a migration. A label that is too long stands in its way. -/
def migrated : VaultContents :=
  match contents.legacy with
  | none => contents
  | some (record, label) =>
    if label.length ≤ vaultLabelMax then
      { contents with
        keys := Function.update contents.keys 0 (some record)
        label := some label
        legacy := none }
    else
      contents

/-- The contents after a key is read: that of application 0 may have to be migrated. -/
def read (appId : UInt8) : VaultContents :=
  if appId = 0 then contents.migrated else contents

theorem migrated_of_none {contents : VaultContents} (h : contents.legacy = none) :
    contents.migrated = contents := by
  rw [migrated, h]

/-- The contents with another key. -/
def withKey (appId : UInt8) (record : Bytes) : VaultContents where
  keys := Function.update contents.keys appId (some record)
  label := contents.label
  legacy := none

/-- The contents with another label. -/
def withLabel (label : Bytes) : VaultContents where
  keys := contents.keys
  label := some label
  legacy := none

open Classical in
/-- The contents without a key: the last one takes the label with it, that of application 0 what the
earlier firmware left. -/
noncomputable def deleted (appId : UInt8) : VaultContents :=
  let keys := Function.update contents.keys appId none
  { contents with
    keys := keys
    label := if ∃ appId, keys appId ≠ none then contents.label else none
    legacy := if appId = 0 then none else contents.legacy }

/-- What a call makes of the contents. -/
noncomputable def effect (V : VaultState) (contents : VaultContents) : VaultCall → VaultContents
  | .setKvault draw kvault encryptionKey appId =>
    contents.withKey appId (vaultWrap V draw encryptionKey kvault)
  | .setLabel label => contents.withLabel label
  | .getKvault appId _ => contents.read appId
  | .getLabel _ => contents
  | .deleteKvault appId => contents.deleted appId

/-- The contents after a call: one that changes the vault does so if it succeeds, and a key that is
read may have been migrated even if it cannot be unwrapped. -/
noncomputable def after (V : VaultState) (contents : VaultContents) (call : VaultCall)
    (succeeded : Bool) : VaultContents :=
  match call, succeeded with
  | .getKvault .., _ => contents.effect V call
  | _, true => contents.effect V call
  | _, false => contents

/-- What is returned for a key. -/
def keyAnswer (V : VaultState) (contents : VaultContents) (appId : UInt8)
    (encryptionKey : VaultKey) : Except Status VaultKey :=
  match (contents.read appId).keys appId with
  | some record => vaultUnwrap V encryptionKey record
  | none => .error (if appId = 0 ∧ contents.legacy.isSome then .wrongLength else .fileNotFound)

end VaultContents
/-- The container refuses a write of a key: a generation is used up, or there is no room. -/
def VaultRefuses (V : VaultState) (files : Files) (key : UInt16 × UInt16) : Prop :=
  ∃ slot manifest, containerManifest V.layout 0 V.primary V.legacy files = some (slot, manifest) ∧
    (manifest.generation = 0xffffffff ∨
      (∃ object ∈ manifest.objects, object.key = key ∧ object.generation = 0xffffffff) ∨
      manifestMaxObjects ≤ manifest.objects.length ∧ ∀ object ∈ manifest.objects, object.key ≠ key)

section Holds

variable {V : VaultState} {current : Option (Fin 2 × FileObjectManifest)}
  {val : UInt16 × UInt16 → Bytes} {s : FsState TxnRam}

/-! ### What the files hold -/

/-- **The files hold the vault.** -/
structure VaultIs (V : VaultState) (contents : VaultContents) (files : Files)
    (val : UInt16 × UInt16 → Bytes) (current : Option (Fin 2 × FileObjectManifest)) : Prop where
  is : ContainerIs V.layout 0 V.primary files val current
  keys_eq : ∀ appId : UInt8,
    currentData current val (vaultObjectWrap, appId.toUInt16) = contents.keys appId
  label_eq : currentData current val (vaultObjectLabel, 0) = contents.label
  legacy_eq : vaultLegacyVault V files = contents.legacy
  absent : contents.legacy ≠ none → current = none
  length_key : ∀ appId record, contents.keys appId = some record → record.length = vaultRecordSize
  length_label : ∀ label, contents.label = some label → label.length ≤ vaultLabelMax

namespace VaultIs

variable {contents : VaultContents} {files : Files}

/-- The container reads what the map has. -/
theorem read_eq (h : VaultIs V contents files val current) (key : UInt16 × UInt16) {capacity : ℕ}
    (hcap : ∀ data, currentData current val key = some data → data.length ≤ capacity) :
    fileObjectContainerRead V.layout 0 files key.1 key.2 V.primary V.legacy capacity =
      readResult (currentData current val key) :=
  h.is.read_eq V.legacy vaultSpec.valid key hcap

theorem getWrapRecord (h : VaultIs V contents files val current) (appId : UInt8) :
    vaultGetWrapRecord V files appId = readResult (contents.keys appId) := by
  have hcap : ∀ data, currentData current val (vaultObjectWrap, appId.toUInt16) = some data →
      data.length ≤ vaultRecordSize := fun data hdata ↦
    (h.length_key appId data (by rw [← h.keys_eq, hdata])).le
  have hread := h.read_eq (vaultObjectWrap, appId.toUInt16) hcap
  rw [vaultGetWrapRecord, hread, h.keys_eq]
  rcases hkey : contents.keys appId with - | record
  · rfl
  · simp [readResult, h.length_key appId record hkey]

theorem congr {s' : FsState TxnRam} (h : VaultIs V contents s.files val current)
    (his : ContainerIs V.layout 0 V.primary s'.files val current)
    (hlegacy : vaultLegacyVault V s'.files = vaultLegacyVault V s.files) :
    VaultIs V contents s'.files val current :=
  { h with
    is := his
    legacy_eq := hlegacy.trans h.legacy_eq }

variable {write : FileObjectContainerWrite}

/-- A record of the current manifest has a file that no other key's record gets. -/
theorem number_ne (h : VaultIs V contents files val current) (hwrite : VaultWrite write)
    (hnew : ∀ object ∈ currentObjects current, object.key ≠ write.key) (slot : Fin 2) :
    ¬CurrentRecord V.layout 0 current (vaultNumber slot write.key) := by
  have hnumbering := @vaultNumbering V.sha256 (V.legacyFile.map (·.1))
  rintro ⟨object, hobject, hfid⟩
  rcases current with - | ⟨slot', manifest⟩
  · cases hobject
  have hrecord := ContainerHolds.records h.is object hobject
  obtain ⟨hkey, slot'', hnumber⟩ := hnumbering.recordId_of_allocated hrecord.allocated
  have hfid' := hnumbering.recordFid object _ hrecord.valid hfid
  exact hnew object hobject (hnumbering.number_inj slot'' slot _ _ hkey
    (hnumbering.key_of_writeValid write hwrite.valid) (hnumber.symm.trans hfid'.symm))

section

variable (h : VaultIs V contents s.files val current)
include h

/-- A write that finds no room leaves the vault as it was. -/
theorem wp_full (hwrite : VaultWrite write)
    (hfull : manifestMaxObjects ≤ (currentObjects current).length)
    (hnew : ∀ object ∈ currentObjects current, object.key ≠ write.key) :
    wp (· = .ok) (vaultUpdate V [write]) (fun _ _ ↦ True)
      (fun _ s' ↦ VaultIs V contents s'.files val current) s := by
  have hsettled : vaultLegacyVault V s.files = none := by
    rw [h.legacy_eq]
    by_contra hpending
    rw [h.absent hpending] at hfull
    exact absurd hfull (by decide)
  have hkeeps : wp (· = .ok) (fileObjectContainerUpdateInternal V.layout 0 [write] V.primary V.legacy
      false) (fun _ s' ↦ vaultLegacyVault V s'.files = none)
      (fun _ s' ↦ vaultLegacyVault V s'.files = none) s :=
    (vaultUpdateKeeps [write]).update false hsettled fun _ _ ↦ trivial
  have hcall := @wp_containerCall _ _ V.primary V.legacy val current _ vaultSpec (· = .ok)
    (CurrentRecord V.layout 0 current) s _ (fun fid ↦ h.is.containerFid) h.is
    (.update [write] false) (fun _ _ ↦ trivial)
    (vaultNumbering.callFresh fun w hw _ ↦ by
      cases mem_singleton.mp hw
      exact h.number_ne hwrite hnew _) vaultSpec.cleanupOk
  refine wp_ite (by simp) fun _ ↦ wp_mono (wp_and hcall hkeeps) (fun _ _ _ ↦ trivial) ?_
  rintro e s' ⟨hstopped, hsettled'⟩
  rcases hstopped (by simp) with hstopped | ⟨val', next, hcommitted⟩
  · exact h.congr (hstopped.containerIs vaultSpec h.is) (hsettled'.trans hsettled.symm)
  -- with the write the manifest would have too many objects
  have hsub : (currentObjects current).map (·.key) ++ [write.key] ⊆ next.objects.map (·.key) := by
    intro key hkey
    have hdata := hcommitted.data_eq key
    rw [effect_update_one] at hdata
    suffices hsome : currentData (some (targetSlot current, next)) val' key ≠ none from
      mem_keys_of_data hsome
    rw [hdata]
    split_ifs with heq
    · exact Option.some_ne_none _
    · rcases mem_append.mp hkey with hold | hnew
      · rw [currentData, if_pos hold]
        exact Option.some_ne_none _
      · exact absurd (mem_singleton.mp hnew).symm heq
  have hnodup : ((currentObjects current).map (·.key) ++ [write.key]).Nodup := by
    refine nodup_append.mpr ⟨h.is.nodup, nodup_singleton _, ?_⟩
    rintro key hold key' hkey' rfl
    obtain ⟨object, hobject, hkey⟩ := mem_map.mp hold
    exact hnew object hobject (hkey.trans (mem_singleton.mp hkey'))
  have hlength := (subperm_of_subset hnodup hsub).length_le
  have hle := (ContainerHolds.manifestFile hcommitted.holds).built.length_le
  simp only [length_append, length_map, length_singleton] at hlength
  omega

/-- An undisturbed write that the container refuses leaves the vault as it was. -/
theorem wp_refused (hwrite : VaultWrite write) :
    wp (· = .ok) (vaultUpdate V [write]) (fun _ _ ↦ True) (fun _ s' ↦
      VaultIs V contents s'.files val current ∧ VaultRefuses V s.files write.key) s := by
  have hrefuses {m : Fin 2 × FileObjectManifest} (hm : current = some m)
      (hcase : m.2.generation = 0xffffffff ∨
        (∃ object ∈ m.2.objects, object.key = write.key ∧ object.generation = 0xffffffff) ∨
        manifestMaxObjects ≤ m.2.objects.length ∧ ∀ object ∈ m.2.objects, object.key ≠ write.key) :
      VaultRefuses V s.files write.key :=
    ⟨m.1, m.2, (h.is.manifest_eq V.legacy vaultSpec.valid).trans hm, hcase⟩
  by_cases hexhausted : currentGeneration current = 0xffffffff ∨ ∃ object ∈ currentObjects current,
      object.key = write.key ∧ object.generation = 0xffffffff
  · refine wp_mono (wp_vaultUpdate_exhausted h.is hexhausted _) (fun _ _ h ↦ h.elim) ?_
    rintro - s' rfl
    refine ⟨h, ?_⟩
    rcases current with - | m
    · rcases hexhausted with hgeneration | ⟨object, hobject, -⟩
      · cases hgeneration
      · cases hobject
    · exact hrefuses rfl (hexhausted.imp_right .inl)
  rw [not_or] at hexhausted
  by_cases hfull : manifestMaxObjects ≤ (currentObjects current).length ∧
      ∀ object ∈ currentObjects current, object.key ≠ write.key
  · refine wp_mono (h.wp_full hwrite hfull.1 hfull.2) (fun _ _ h ↦ h) fun _ s' hs' ↦ ⟨hs', ?_⟩
    rcases current with - | m
    · exact absurd hfull.1 (by decide)
    · exact hrefuses rfl (.inr (.inr hfull))
  have hok : UpdateOk V.layout 0 V.primary (fun _ ↦ True) (· = .ok) False (fun _ ↦ False) current
      s.files [write] := by
    refine vaultUpdateOk (by simpa using hwrite) (by simp) (by simp) (by simp) ?_ (fun hlong ↦ ?_)
      hexhausted.1
    · rintro object hobject ⟨w, hw, hkey⟩ hgeneration
      cases mem_singleton.mp hw
      exact hexhausted.2 ⟨object, hobject, hkey.symm, hgeneration⟩
    · have hle := h.is.length_le
      by_cases hold : write.key ∈ (currentObjects current).map (·.key)
      · have hsub : ((currentObjects current).map (·.key) ++ [write.key]).dedup ⊆
            (currentObjects current).map (·.key) := by
          intro key hkey
          rcases mem_append.mp (mem_dedup.mp hkey) with hkey | hkey
          · exact hkey
          · exact mem_singleton.mp hkey ▸ hold
        have hlength := (subperm_of_subset (nodup_dedup _) hsub).length_le
        rw [length_map] at hlength
        exact absurd (hlong.trans_le hlength) (not_lt.mpr hle)
      · have hroom : ¬manifestMaxObjects ≤ (currentObjects current).length := fun hlength ↦
          hfull ⟨hlength, fun object hobject hkey ↦ hold (mem_map.mpr ⟨object, hobject, hkey⟩)⟩
        have hlength := (dedup_sublist ((currentObjects current).map (·.key) ++
          [write.key])).length_le
        simp only [map_cons, map_nil, length_append, length_map, length_singleton] at hlong hlength
        omega
  exact wp_mono (wp_vaultUpdate_undisturbed h.is (by simp) hok) (fun _ _ h ↦ h) fun _ _ h ↦ h.elim

/-- Nothing depends on other files than those of the container and the earlier firmware. -/
theorem of_outside {s' : FsState TxnRam}
    (hsame : ∀ fid, VaultRange fid → s'.files fid = s.files fid)
    (hlegacy : vaultLegacyVault V s'.files = vaultLegacyVault V s.files) :
    VaultIs V contents s'.files val current :=
  h.congr (h.is.congr (fun slot ↦ hsame _ (vaultRange_manifest slot)) fun _ hfid ↦
    hsame _ (vault_containerFid (h.is.containerFid hfid))) hlegacy

end

theorem keys_none (h : VaultIs V contents files val none) (appId : UInt8) :
    contents.keys appId = none := by
  rw [← h.keys_eq]
  rfl

theorem label_none (h : VaultIs V contents files val none) : contents.label = none := by
  rw [← h.label_eq]
  rfl

/-- A key has been wrapped. -/
theorem wrapped (h : VaultIs V contents s.files val current) {appId : UInt8} {record : Bytes}
    (hlength : record.length = vaultRecordSize)
    (hupdated : VaultUpdated V current val [vaultWrapWrite appId.toUInt16 record] files) :
    ∃ val' current', VaultIs V (contents.withKey appId record) files val' current' := by
  obtain ⟨⟨val', next, hcommitted⟩, hsettled⟩ := hupdated
  have hdata := hcommitted.data_eq
  simp only [effect_update_one] at hdata
  refine ⟨val', _, hcommitted.holds, fun app ↦ ?_, ?_, hsettled, fun h ↦ absurd rfl h,
    fun app r hr ↦ ?_, h.length_label⟩
  · rw [hdata, h.keys_eq]
    simp only [VaultContents.withKey, update_apply, vaultWrapWrite_key]
    rfl
  · rw [hdata, if_neg vaultWrapWrite_key_ne, h.label_eq]
    rfl
  · simp only [VaultContents.withKey, update_apply] at hr
    split_ifs at hr with happ
    · cases hr
      exact hlength
    · exact h.length_key app r hr

/-- A label has been set. -/
theorem labelled (h : VaultIs V contents s.files val current) {label : Bytes}
    (hlength : label.length ≤ vaultLabelMax)
    (hupdated : VaultUpdated V current val [vaultLabelWrite label] files) :
    ∃ val' current', VaultIs V (contents.withLabel label) files val' current' := by
  obtain ⟨⟨val', next, hcommitted⟩, hsettled⟩ := hupdated
  have hdata := hcommitted.data_eq
  simp only [effect_update_one] at hdata
  refine ⟨val', _, hcommitted.holds, fun app ↦ ?_, ?_, hsettled, fun h ↦ absurd rfl h,
    h.length_key, ?_⟩
  · rw [hdata, if_neg vaultLabelWrite_key_ne, h.keys_eq]
    rfl
  · rw [hdata]
    rfl
  · rintro _ ⟨⟩
    exact hlength

/-- What was migrated is in the container. -/
theorem migrated (h : VaultIs V contents s.files val none) {record label : Bytes}
    (hlegacy : contents.legacy = some (record, label)) (hlength : record.length = vaultRecordSize)
    (hlabel : label.length ≤ vaultLabelMax)
    (hupdated : VaultUpdated V none val (vaultMigrationWrites record label) files) :
    contents.migrated.keys 0 = some record ∧
      ∃ val' current', VaultIs V contents.migrated files val' current' := by
  obtain ⟨⟨val', next, hcommitted⟩, hsettled⟩ := hupdated
  have hmigrated : contents.migrated = { contents with
      keys := Function.update contents.keys 0 (some record), label := some label, legacy := none } := by
    rw [VaultContents.migrated, hlegacy]
    exact if_pos hlabel
  rw [hmigrated]
  refine ⟨by simp, val', _, hcommitted.holds, fun app ↦ ?_, ?_, hsettled,
    fun h ↦ absurd rfl h, fun app r hr ↦ ?_, ?_⟩
  · rw [hcommitted.data_eq]
    simp only [update_apply, h.keys_none]
    split_ifs with happ
    · rw [happ]
      rfl
    · have hkey : (vaultWrapWrite 0 record).key ≠ (vaultObjectWrap, app.toUInt16) :=
        fun heq ↦ happ ((@vaultWrapWrite_key 0 app record).mp heq)
      have hkey' := @vaultLabelWrite_key_ne app.toUInt16 label
      simp [ContainerCall.effect, vaultMigrationWrites, hkey, hkey', currentData, currentObjects]
  · rw [hcommitted.data_eq]
    rfl
  · simp only [update_apply, h.keys_none] at hr
    split_ifs at hr with happ
    cases hr
    exact hlength
  · rintro _ ⟨⟩
    exact hlabel

end VaultIs

/-- The files hold the vault, with some manifest. -/
def VaultHolds (V : VaultState) (contents : VaultContents) (files : Files) : Prop :=
  ∃ val current, VaultIs V contents files val current

end Holds

end PicoAll
