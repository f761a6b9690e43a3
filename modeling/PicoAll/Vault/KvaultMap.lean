import PicoAll.Vault.KvaultCalls

/-!
# The vault is a map

The calls of `vault_container.c` do to the files what they do to the map, whatever happens to the
flash in the calls that report success (`vault_refines_map`). Two things are not as one might think.
The label belongs to no application, and goes with the last key (`vault_label_not_kept`). And a key
or label that is set before the migration takes the place of the earlier vault.
-/

namespace PicoAll

open FaultProgram List

/-- The files of the vault: its container's and those of the earlier firmware. -/
def VaultFid (V : VaultState) (fid : ℕ) : Prop :=
  0xc400 ≤ fid ∧ fid < 0xca00 ∨ (∃ file ∈ V.legacyFile, fid = file) ∨
    ∃ file ∈ V.legacyLabelFile, fid = file

/-- The histories of a vault. It starts without a container, with whatever an earlier firmware left;
its calls succeed, or are not disturbed by the flash; and the rest of the system leaves its files
alone. -/
inductive VaultHistory (V : VaultState) : VaultContents → FsState TxnRam → Prop
  | fresh {s : FsState TxnRam} (h : ∀ fid, 0xc400 ≤ fid → fid < 0xca00 → s.files fid = none) :
      VaultHistory V ⟨fun _ ↦ none, none, vaultLegacyVault V s.files⟩ s
  | call {contents : VaultContents} {s : FsState TxnRam} (h : VaultHistory V contents s)
      (call : VaultCall) (os : List Outcome)
      (hdone : ((call.run V).result s os).isOk = true ∨ ∀ o ∈ os, o = .ok) :
      VaultHistory V (contents.after V call ((call.run V).result s os).isOk)
        ((call.run V).final s os)
  | other {contents : VaultContents} {s s' : FsState TxnRam} (h : VaultHistory V contents s)
      (hsame : ∀ fid, VaultFid V fid → s'.files fid = s.files fid) :
      VaultHistory V contents s'

section History

variable {V : VaultState} {contents : VaultContents} {s : FsState TxnRam}

/-- **The invariant along every history.** -/
theorem VaultHistory.holds (h : VaultHistory V contents s) : VaultHolds V contents s.files := by
  induction h with
  | @fresh s h =>
    refine ⟨fun _ ↦ [], none, ⟨fun slot ↦ ?_, fun _ ↦ rfl, rfl, rfl, fun _ ↦ rfl, nofun, nofun⟩⟩
    have hrange := vaultRange_manifest slot
    rw [SlotEmpty, show V.layout.manifestFid 0 slot = vaultManifestFid slot from rfl,
      h _ hrange.1 hrange.2]
    rfl
  | @call contents s h call os hdone ih =>
    obtain ⟨val, current, his⟩ := ih
    rcases hdone with hok | hundisturbed
    · rcases hresult : (call.run V).result s os with e | a
      · rw [hresult] at hok
        cases hok
      · exact final_of_result_ok (his.wp_call call) hresult
    · rcases run_of_wp (his.wp_call call) hundisturbed with ⟨a, hresult, hpost⟩ | ⟨e, hresult, hpost⟩
      · rw [hresult]
        exact hpost
      · rw [hresult]
        exact hpost fun _ h ↦ h
  | other h hsame ih =>
    obtain ⟨val, current, his⟩ := ih
    refine ⟨val, current, his.of_outside (fun fid hfid ↦ hsame fid (.inl hfid))
      (vaultLegacyVault_congr (fun file hfile ↦ ?_) fun file hfile ↦ ?_)⟩
    · exact hsame _ (.inr (.inl ⟨file, hfile, rfl⟩))
    · exact hsame _ (.inr (.inr ⟨file, hfile, rfl⟩))

/-- **The vault is a map** from application ids to keys, with a label. After any history whose calls
succeed or are not disturbed by the flash, reading a key unwraps what was set last and not deleted
since, or what was migrated; so does reading the label. A key or a label is set unless the container
has no room for it or has used up a generation, and a key that is there is deleted unless the latter
is the case. The earlier firmware's vault is migrated only as a whole and into an empty map. -/
theorem vault_refines_map (h : VaultHistory V contents s) :
    (∀ appId encryptionKey,
      (picokeysVaultGetKvault V appId encryptionKey).result s [] =
        (contents.keyAnswer V appId encryptionKey).mapError .code) ∧
    (∀ capacity, vaultLabelMax ≤ capacity →
      (picokeysVaultGetLabel V capacity).result s [] = .ok (contents.label.getD [])) ∧
    (∀ draw kvault encryptionKey appId os,
      (picokeysVaultSetKvault V draw kvault encryptionKey appId).result s os = .ok () →
      (picokeysVaultGetKvault V appId encryptionKey).result
        ((picokeysVaultSetKvault V draw kvault encryptionKey appId).final s os) [] = .ok kvault) ∧
    (∀ draw kvault encryptionKey appId,
      (picokeysVaultSetKvault V draw kvault encryptionKey appId).result s [] = .ok () ∨
        VaultRefuses V s.files (vaultObjectWrap, appId.toUInt16)) ∧
    (∀ label, label.length ≤ vaultLabelMax →
      (picokeysVaultSetLabel V label).result s [] = .ok () ∨
        VaultRefuses V s.files (vaultObjectLabel, 0)) ∧
    (∀ appId, contents.keys appId ≠ none →
      (picokeysVaultDeleteKvault V appId).result s [] = .ok () ∨
        ∃ slot manifest, containerManifest V.layout 0 V.primary V.legacy s.files =
          some (slot, manifest) ∧ manifest.generation = 0xffffffff) ∧
    (contents.legacy ≠ none → (∀ appId, contents.keys appId = none) ∧ contents.label = none) := by
  have hget {contents : VaultContents} {s : FsState TxnRam} (h : VaultHolds V contents s.files)
      (appId : UInt8) (encryptionKey : VaultKey) :
      (picokeysVaultGetKvault V appId encryptionKey).result s [] =
        (contents.keyAnswer V appId encryptionKey).mapError .code := by
    obtain ⟨val, current, his⟩ := h
    exact result_of_undisturbed (his.wp_getKvault appId encryptionKey) (fun _ _ h ↦ h.2)
      fun _ _ h ↦ h.2
  obtain ⟨val, current, his⟩ := h.holds
  refine ⟨hget h.holds, fun capacity hcap ↦ ?_,
    fun draw kvault encryptionKey appId os hok ↦ ?_, fun draw kvault encryptionKey appId ↦ ?_,
    fun label hlength ↦ ?_, fun appId hkey ↦ ?_, fun hpending ↦ ?_⟩
  · obtain ⟨label, hlabel⟩ : ∃ label : Except Status Bytes, label = .ok (contents.label.getD []) :=
      ⟨_, rfl⟩
    have hread : wp (· = .ok) (picokeysVaultGetLabel V capacity) (fun a _ ↦ label = .ok a)
        (fun e _ ↦ ∃ r, e = .code r ∧ label = .error r) s :=
      wp_mono (his.wp_getLabel hcap) (fun a _ h ↦ by rw [hlabel, h]) fun _ _ h ↦ h
    rw [result_of_wp hread, hlabel]
    rfl
  · have hset := final_of_result_ok (his.wp_setKvault draw kvault encryptionKey appId) hok
    have hkey : ((contents.withKey appId (vaultWrap V draw encryptionKey kvault)).read appId).keys
        appId = some (vaultWrap V draw encryptionKey kvault) := by
      rw [VaultContents.read]
      split_ifs <;> simp [VaultContents.migrated, VaultContents.withKey]
    rw [hget hset, VaultContents.keyAnswer, hkey]
    simp only [vaultUnwrap_vaultWrap]
    rfl
  · exact result_ok_or (his.wp_setKvault draw kvault encryptionKey appId) fun _ _ h ↦ h.2
  · exact result_ok_or (his.wp_setLabel label) fun _ _ h ↦ h.2 hlength
  · exact result_ok_or (his.wp_deleteKvault appId) fun _ _ h ↦ h.2.resolve_left hkey
  · cases his.absent hpending
    exact ⟨his.keys_none, his.label_none⟩

end History

/-! ### Runs -/

/-- A stand-in for the cipher: the key is written next to the plaintext. -/
def exampleVaultDecrypt (encryptionKey : VaultKey) (data : Bytes) : Except Status VaultKey :=
  if h : (data.drop 28).length = picokeysVaultKeySize then
    if data.take 28 = encryptionKey.1.take 28 then .ok ⟨data.drop 28, h⟩ else .error .wrongData
  else
    .error .wrongLength

theorem length_take_vaultKey (key : VaultKey) : (key.1.take 28).length = 28 := by
  rw [length_take, key.2]
  rfl

theorem exampleVault_length (_draw : ℕ) (encryptionKey kvault : VaultKey) :
    (encryptionKey.1.take 28 ++ kvault.1).length = vaultRecordSize - 1 := by
  rw [length_append, length_take_vaultKey, kvault.2]
  rfl

theorem exampleVault_decrypt (_draw : ℕ) (encryptionKey kvault : VaultKey) :
    exampleVaultDecrypt encryptionKey (encryptionKey.1.take 28 ++ kvault.1) = .ok kvault := by
  have hlength := length_take_vaultKey encryptionKey
  simp [exampleVaultDecrypt, drop_left' hlength, take_left' hlength, kvault.2]

@[inherit_doc exampleVaultDecrypt]
def exampleVaultSeal : VaultSeal where
  encryptWithAad _ encryptionKey kvault := encryptionKey.1.take 28 ++ kvault.1
  decryptWithAad := exampleVaultDecrypt
  length_encryptWithAad := exampleVault_length
  decryptWithAad_encryptWithAad := exampleVault_decrypt

theorem exampleLegacyFile_outside : (0x1000 : ℕ) < 0xc400 ∨ 0xca00 ≤ 0x1000 := by
  decide

/-- The key file of an earlier firmware. -/
def exampleLegacyFile : OutsideVault :=
  ⟨0x1000, exampleLegacyFile_outside⟩

theorem exampleLegacyLabelFile_outside : (0x1001 : ℕ) < 0xc400 ∨ 0xca00 ≤ 0x1001 := by
  decide

/-- The label file of an earlier firmware. -/
def exampleLegacyLabelFile : OutsideVault :=
  ⟨0x1001, exampleLegacyLabelFile_outside⟩

theorem exampleVault_files_ne (file : OutsideVault) (hfile : file ∈ some exampleLegacyFile)
    (labelFile : OutsideVault) (hlabelFile : labelFile ∈ some exampleLegacyLabelFile) :
    file ≠ labelFile := by
  cases hfile
  cases hlabelFile
  decide

/-- A vault with files of an earlier firmware. -/
def exampleVault : VaultState where
  sha256 := exampleSha256
  aead := exampleVaultSeal
  primary := exampleCrypto
  legacy := none
  legacyFile := some exampleLegacyFile
  legacyLabelFile := some exampleLegacyLabelFile
  files_ne := exampleVault_files_ne

theorem length_exampleVaultKey : (List.replicate 32 (7 : UInt8)).length = picokeysVaultKeySize :=
  rfl

def exampleVaultKey : VaultKey :=
  ⟨List.replicate 32 7, length_exampleVaultKey⟩

/-- The files of an earlier firmware: a key, wrapped under itself, and a label. -/
def exampleLegacyFiles : Files := fun fid ↦
  if fid = 0x1000 then some (2 :: List.replicate 60 7) else if fid = 0x1001 then some [65] else none

/-- The vault of an earlier firmware is read, and its label after that. -/
theorem vault_refines_map_migrated :
    let s : FsState TxnRam := ⟨exampleLegacyFiles, .boot⟩
    let get := picokeysVaultGetKvault exampleVault 0 exampleVaultKey
    get.result s [] = .ok exampleVaultKey ∧
      (picokeysVaultGetLabel exampleVault 64).result (get.final s []) [] = .ok [65] := by
  intro s get
  have hfresh : VaultHistory exampleVault _ s := .fresh fun fid hlow hhigh ↦ by
    have hne : fid ≠ 0x1000 ∧ fid ≠ 0x1001 := by omega
    simp [s, exampleLegacyFiles, hne]
  have hread := (vault_refines_map hfresh).1 0 exampleVaultKey
  have hlabel := (vault_refines_map (hfresh.call (.getKvault 0 exampleVaultKey) [] (.inr nofun))).2.1
    64 le_rfl
  exact ⟨hread, hlabel⟩

/-- The label is set, then a key is set and deleted: the label is gone. -/
theorem vault_label_not_kept :
    let run (call : VaultCall) (s : FsState TxnRam) := (call.run exampleVault).final s []
    let s₁ := run (.setLabel [65]) ⟨fun _ ↦ none, .boot⟩
    let s₂ := run (.setKvault 0 exampleVaultKey exampleVaultKey 3) s₁
    let s₃ := run (.deleteKvault 3) s₂
    (picokeysVaultGetLabel exampleVault 64).result s₂ [] = .ok [65] ∧
      (picokeysVaultDeleteKvault exampleVault 3).result s₂ [] = .ok () ∧
      (picokeysVaultGetLabel exampleVault 64).result s₃ [] = .ok [] := by
  decide +kernel

end PicoAll
