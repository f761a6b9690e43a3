import PicoAll.Fido.OtpBankLaw

/-!
# The OTP bank is a map

What the bank is for: four slots, each with a configuration or without one, which are stored,
deleted and swapped. A history of calls on a store with room does to the files what it does to the
map, as long as no more than three slots have ever been stored (`otp_bank_is_map`): a fourth one
does not fit into the manifest, and a slot that is deleted stays stored
(`otp_bank_fourth_slot_and_deletion`).
-/

namespace PicoAll

open FaultProgram BigEndian Option List

/-! ### The active bits -/

theorem otpSlotBit_or : ∀ active : UInt8, ∀ i ∈ otpSlots, ∀ j ∈ otpSlots,
    ((active ||| otpSlotBit i) &&& otpSlotBit j != 0) =
      (j == i || active &&& otpSlotBit j != 0) := by
  have h : ∀ n : Fin 256, ∀ i ∈ otpSlots, ∀ j ∈ otpSlots,
      ((UInt8.ofNat n ||| otpSlotBit i) &&& otpSlotBit j != 0) =
        (j == i || UInt8.ofNat n &&& otpSlotBit j != 0) := by decide +kernel
  intro active
  simpa using h ⟨active.toNat, active.toNat_lt⟩

theorem otpSlotBit_clear : ∀ active : UInt8, ∀ i ∈ otpSlots, ∀ j ∈ otpSlots,
    (active &&& ~~~otpSlotBit i &&& otpSlotBit j != 0) =
      (j != i && active &&& otpSlotBit j != 0) := by
  have h : ∀ n : Fin 256, ∀ i ∈ otpSlots, ∀ j ∈ otpSlots,
      (UInt8.ofNat n &&& ~~~otpSlotBit i &&& otpSlotBit j != 0) =
        (j != i && UInt8.ofNat n &&& otpSlotBit j != 0) := by decide +kernel
  intro active
  simpa using h ⟨active.toNat, active.toNat_lt⟩

theorem otpSlotBit_clear_both (active i j : UInt8) :
    active &&& ~~~(otpSlotBit i ||| otpSlotBit j) =
      active &&& ~~~otpSlotBit i &&& ~~~otpSlotBit j := by
  refine UInt8.toBitVec_inj.mp (BitVec.eq_of_getLsbD_eq fun k hk ↦ ?_)
  simp [hk, Bool.and_assoc]

/-! ### The calls on a bank -/

namespace OtpBank

variable {bank : OtpBank} {slot slot₁ slot₂ i : UInt8}

/-- What the swap command finds in a slot. -/
def swapContent (bank : OtpBank) (slot : UInt8) : Option OtpContainerSlot :=
  (bank.config slot).map fun plain ↦ ⟨plain, otpSlotMetadataBuild plain⟩

/-- What the swap command makes of a bank. -/
def swapped (bank : OtpBank) (slot₁ slot₂ : UInt8) : OtpBank :=
  bank.swap slot₁ (bank.swapContent slot₁) slot₂ (bank.swapContent slot₂)

theorem Ok.config_isSome (h : bank.Ok) (hslot : slot ∈ otpSlots) :
    (bank.config slot).isSome = bank.isActive slot := by
  rw [config]
  split_ifs with hactive
  · rw [isSome_map, h.stored_of_active slot hslot hactive, hactive]
  · simpa using hactive

variable {content : OtpContainerSlot}

theorem isActive_write (hslot : slot ∈ otpSlots) (hi : i ∈ otpSlots) :
    (bank.write slot content).isActive i = (i == slot || bank.isActive i) :=
  otpSlotBit_or bank.active slot hslot i hi

theorem isActive_delete (hslot : slot ∈ otpSlots) (hi : i ∈ otpSlots) :
    (bank.delete slot).isActive i = (i != slot && bank.isActive i) :=
  otpSlotBit_clear bank.active slot hslot i hi

variable {content₁ content₂ : Option OtpContainerSlot}

theorem isActive_swap (h₁ : slot₁ ∈ otpSlots) (h₂ : slot₂ ∈ otpSlots) (hne : slot₁ ≠ slot₂)
    (hi : i ∈ otpSlots) :
    (bank.swap slot₁ content₁ slot₂ content₂).isActive i =
      if i = slot₁ then content₂.isSome else if i = slot₂ then content₁.isSome
      else bank.isActive i := by
  have hcleared : (bank.active &&& ~~~(otpSlotBit slot₁ ||| otpSlotBit slot₂) &&&
      otpSlotBit i != 0) = (i != slot₂ && (i != slot₁ && bank.isActive i)) := by
    rw [otpSlotBit_clear_both, otpSlotBit_clear _ _ h₂ _ hi, otpSlotBit_clear _ _ h₁ _ hi]
    rfl
  rcases content₁ with - | content₁ <;> rcases content₂ with - | content₂
  all_goals
    simp only [swap, isActive, isSome_none, isSome_some, if_true,
      Bool.false_eq_true, if_false, otpSlotBit_or _ _ h₁ _ hi, otpSlotBit_or _ _ h₂ _ hi, hcleared]
    grind

/-- The slots after a swap. -/
theorem slots_swap (hne : slot₁ ≠ slot₂) :
    (bank.swap slot₁ content₁ slot₂ content₂).slots i =
      if i = slot₁ then content₂.or (bank.slots i) else if i = slot₂ then content₁.or (bank.slots i)
      else bank.slots i := by
  rcases content₁ with - | content₁ <;> rcases content₂ with - | content₂
  all_goals
    simp only [swap, store, Option.elim, none_or, some_or]
    grind

theorem config_write (hslot : slot ∈ otpSlots) (hi : i ∈ otpSlots) :
    (bank.write slot content).config i =
      if i = slot then some content.secret else bank.config i := by
  rw [config, isActive_write hslot hi, config]
  by_cases heq : i = slot
  · simp [heq, write, store]
  · simp [heq, write, store]

theorem config_delete (hslot : slot ∈ otpSlots) (hi : i ∈ otpSlots) :
    (bank.delete slot).config i = if i = slot then none else bank.config i := by
  rw [config, isActive_delete hslot hi, config]
  by_cases heq : i = slot
  · simp [heq]
  · simp [heq, delete]

/-- A slot that is given what another one shows shows it too. -/
theorem config_swapContent (stored : Option OtpContainerSlot) :
    (if (bank.swapContent slot).isSome = true then
      ((bank.swapContent slot).or stored).map (·.secret) else none) = bank.config slot := by
  rcases hconfig : bank.config slot with - | plain <;> simp [swapContent, hconfig]

theorem config_swapped (h₁ : slot₁ ∈ otpSlots) (h₂ : slot₂ ∈ otpSlots) (hne : slot₁ ≠ slot₂)
    (hi : i ∈ otpSlots) : (bank.swapped slot₁ slot₂).config i =
      if i = slot₁ then bank.config slot₂ else if i = slot₂ then bank.config slot₁
      else bank.config i := by
  rw [config, swapped, isActive_swap h₁ h₂ hne hi, slots_swap hne]
  by_cases heq₁ : i = slot₁
  · simp only [heq₁, if_true]
    exact config_swapContent _
  · by_cases heq₂ : i = slot₂
    · simp only [heq₂, hne.symm, if_false, if_true]
      exact config_swapContent _
    · simp only [heq₁, heq₂, if_false]
      rfl

/-! ### What the calls keep -/

theorem Ok.write (h : bank.Ok) (hslot : slot ∈ otpSlots)
    (hsecret : content.secret.length ≤ otpSlotPlainMax)
    (hmetadata : content.metadata.length ≤ otpMetadataMaxSize) : (bank.write slot content).Ok where
  stored_of_active i hi hactive := by
    rw [isActive_write hslot hi, Bool.or_eq_true, beq_iff_eq] at hactive
    by_cases heq : i = slot
    · simp [OtpBank.write, store, heq]
    · simpa [OtpBank.write, store, heq] using h.stored_of_active i hi (hactive.resolve_left heq)
  other i hi := by
    have hne : i ≠ slot := fun heq ↦ hi (heq ▸ hslot)
    simpa [OtpBank.write, store, hne] using h.other i hi
  secret_le i c hc := by
    by_cases heq : i = slot
    · obtain rfl : content = c := by simpa [OtpBank.write, store, heq] using hc
      exact hsecret
    · exact h.secret_le i c (by simpa [OtpBank.write, store, heq] using hc)
  metadata_le i c hc := by
    by_cases heq : i = slot
    · obtain rfl : content = c := by simpa [OtpBank.write, store, heq] using hc
      exact hmetadata
    · exact h.metadata_le i c (by simpa [OtpBank.write, store, heq] using hc)

theorem Ok.delete (h : bank.Ok) (hslot : slot ∈ otpSlots) : (bank.delete slot).Ok where
  stored_of_active i hi hactive := by
    rw [isActive_delete hslot hi, Bool.and_eq_true] at hactive
    exact h.stored_of_active i hi hactive.2
  other := h.other
  secret_le := h.secret_le
  metadata_le := h.metadata_le

theorem Ok.config_le (h : bank.Ok) {plain : Bytes} (hplain : bank.config slot = some plain) :
    plain.length ≤ otpSlotPlainMax := by
  rw [config] at hplain
  split_ifs at hplain
  obtain ⟨content, hcontent, rfl⟩ := map_eq_some_iff.mp hplain
  exact h.secret_le slot content hcontent

theorem length_otpSlotMetadataBuild (plain : Bytes) :
    (otpSlotMetadataBuild plain).length ≤ otpMetadataMaxSize := by
  simp only [otpSlotMetadataBuild, length_append, length_take, length_cons,
    length_nil, otpMetadataMaxSize]
  omega

theorem Ok.swapContent (h : bank.Ok) (hcontent : bank.swapContent slot = some content) :
    content.secret.length ≤ otpSlotPlainMax ∧ content.metadata.length ≤ otpMetadataMaxSize := by
  obtain ⟨plain, hplain, rfl⟩ := map_eq_some_iff.mp hcontent
  exact ⟨h.config_le hplain, length_otpSlotMetadataBuild plain⟩

/-- A slot that is stored after a swap was stored before, or holds what the other one showed. -/
theorem slots_swapped (hne : slot₁ ≠ slot₂) (h : (bank.swapped slot₁ slot₂).slots i = some content) :
    bank.slots i = some content ∨ (i = slot₁ ∧ bank.swapContent slot₂ = some content) ∨
      i = slot₂ ∧ bank.swapContent slot₁ = some content := by
  rw [swapped, slots_swap hne] at h
  split_ifs at h with h₁ h₂
  · rcases or_eq_some_iff.mp h with h | ⟨-, h⟩
    · exact .inr (.inl ⟨h₁, h⟩)
    · exact .inl h
  · rcases or_eq_some_iff.mp h with h | ⟨-, h⟩
    · exact .inr (.inr ⟨h₂, h⟩)
    · exact .inl h
  · exact .inl h

theorem Ok.swapped (h : bank.Ok) (h₁ : slot₁ ∈ otpSlots) (h₂ : slot₂ ∈ otpSlots)
    (hne : slot₁ ≠ slot₂) : (bank.swapped slot₁ slot₂).Ok where
  stored_of_active i hi hactive := by
    rw [OtpBank.swapped, isActive_swap h₁ h₂ hne hi] at hactive
    rw [OtpBank.swapped, slots_swap hne]
    split_ifs at hactive ⊢ with heq₁ heq₂
    · rw [isSome_or, hactive, Bool.true_or]
    · rw [isSome_or, hactive, Bool.true_or]
    · exact h.stored_of_active i hi hactive
  other i hi := by
    have hne₁ : i ≠ slot₁ := fun heq ↦ hi (heq ▸ h₁)
    have hne₂ : i ≠ slot₂ := fun heq ↦ hi (heq ▸ h₂)
    rw [OtpBank.swapped, slots_swap hne, if_neg hne₁, if_neg hne₂]
    exact h.other i hi
  secret_le i content hcontent := by
    rcases slots_swapped hne hcontent with hsame | ⟨-, hother⟩ | ⟨-, hother⟩
    · exact h.secret_le i content hsame
    · exact (h.swapContent hother).1
    · exact (h.swapContent hother).1
  metadata_le i content hcontent := by
    rcases slots_swapped hne hcontent with hsame | ⟨-, hother⟩ | ⟨-, hother⟩
    · exact h.metadata_le i content hsame
    · exact (h.swapContent hother).2
    · exact (h.swapContent hother).2

theorem isSome_slots_write :
    ((bank.write slot content).slots i).isSome = (i == slot || (bank.slots i).isSome) := by
  by_cases heq : i = slot <;> simp [write, store, heq]

theorem isSome_slots_swapped (hne : slot₁ ≠ slot₂) :
    ((bank.swapped slot₁ slot₂).slots i).isSome =
      ((bank.slots i).isSome || (i == slot₁ && (bank.config slot₂).isSome) ||
        (i == slot₂ && (bank.config slot₁).isSome)) := by
  have hcontent (slot : UInt8) : (bank.swapContent slot).isSome = (bank.config slot).isSome :=
    isSome_map
  rw [swapped, slots_swap hne]
  by_cases h₁ : i = slot₁
  · simp [h₁, hne, hcontent, Bool.or_comm]
  · by_cases h₂ : i = slot₂
    · have hsymm : (slot₂ == slot₁) = false := by simpa using hne.symm
      simp [h₂, hsymm, hne.symm, hcontent, Bool.or_comm]
    · have hbeq₁ : (i == slot₁) = false := by simpa using h₁
      have hbeq₂ : (i == slot₂) = false := by simpa using h₂
      simp [h₁, h₂, hbeq₁, hbeq₂]

theorem grows_write : bank.Grows (bank.write slot content) := by
  intro i hi
  rw [isSome_slots_write, hi, Bool.or_true]

theorem grows_delete : bank.Grows (bank.delete slot) :=
  fun _ hi ↦ hi

theorem grows_swapped (hne : slot₁ ≠ slot₂) : bank.Grows (bank.swapped slot₁ slot₂) := by
  intro i hi
  rw [isSome_slots_swapped hne, hi, Bool.true_or, Bool.true_or]

end OtpBank

/-! ### The files around the container -/

section Files

variable {sha256 : Bytes → Bytes} {crypto : FileObjectContainerCrypto} {bank bank' : OtpBank}
  {files files' : Files} {slot : UInt8} {s : FsState TxnRam}

/-- The files that the bank has for its container. -/
abbrev OtpFid (fid : ℕ) : Prop :=
  0xb600 ≤ fid ∧ fid < 0xba00

theorem otpMarkerFid_ge (slot : UInt8) : 0xbb00 ≤ otpMarkerFid slot := by
  rw [otpMarkerFid, prefixedFid]
  omega

theorem otpMarkerFid_inj {slot slot' : UInt8} (h : otpMarkerFid slot = otpMarkerFid slot') :
    slot = slot' :=
  (prefixedFid_inj.mp h).2

theorem not_otpFid_marker (slot : UInt8) : ¬OtpFid (otpMarkerFid slot) := by
  have hge := otpMarkerFid_ge slot
  omega

theorem otpFid_manifest (slot : Fin 2) : OtpFid (otpManifestFid slot) := by
  have hrange := otpManifestFid_range slot
  omega

theorem otpFid_of_mem {slot : Fin 2} {fid : ℕ} (h : fid ∈ otpRecordFids slot) : OtpFid fid := by
  obtain ⟨index, -, rfl⟩ := mem_map.mp h
  have hlt := (UInt8.ofNat index).toNat_lt
  rw [OtpFid, prefixedFid, otpRecordPrefix]
  split_ifs <;> omega

theorem otp_containerFid {fid : ℕ} (h : ContainerFid (otpContainerLayout sha256) 0 fid) :
    OtpFid fid := by
  rcases h with ⟨slot, rfl⟩ | ⟨object, -, hfid⟩
  · exact otpFid_manifest slot
  · obtain ⟨-, hvalid, rfl⟩ := otp_recordFid_eq_ok.mp hfid
    have hrange := otpRecordIdValid_range hvalid
    omega

/-- An update of the bank leaves the markers alone. -/
theorem otpLayoutConfined : LayoutConfined (otpContainerLayout sha256) 0 OtpFid where
  manifest := otpFid_manifest
  allocate slot write auth := by
    have hrange := otpRecordFid_range slot write.objectType write.objectTag
    exact .ite (.fail _) (.pure ⟨by omega, hrange.2⟩)
  activate := .pure ()
  retire candidates next currentSlot targetSlot := by
    refine confined_forEach fun fid hfid ↦ .fileDeleteQuietly ?_
    rcases mem_retireFids.mp hfid with rfl | ⟨slot, hmem, -⟩
    · exact otpFid_manifest _
    · exact otpFid_of_mem hmem

/-- What the files hold is held by the files of the container. -/
theorem OtpBankIs.congr (h : OtpBankIs sha256 crypto bank files)
    (hsame : ∀ fid, OtpFid fid → files' fid = files fid) : OtpBankIs sha256 crypto bank files' := by
  obtain ⟨contents, val, current, hat, hcurrent⟩ := h.holds
  refine ⟨h.ok, contents, val, current, hat.congr fun fid hfid ↦ hsame fid (otp_containerFid hfid), ?_⟩
  rcases current with - | ⟨slot, manifest⟩
  · refine ⟨hcurrent.1, fun slot ↦ ⟨?_, fun fid hfid ↦ ?_⟩⟩
    · rw [hsame _ (otpFid_manifest slot), (hcurrent.2 slot).1]
    · rw [hsame _ (otpFid_of_mem hfid), (hcurrent.2 slot).2 _ hfid]
  · exact ⟨hcurrent.1, (hsame _ (otpFid_manifest _)).trans hcurrent.2⟩

/-- The files hold a bank, and markers of some slots. -/
structure OtpMarked (sha256 : Bytes → Bytes) (crypto : FileObjectContainerCrypto)
    (active : UInt8 → Bool) (bank : OtpBank) (files : Files) : Prop where
  bankIs : OtpBankIs sha256 crypto bank files
  marker : ∀ slot ∈ otpSlots,
    files (otpMarkerFid slot) = if active slot then some (otpMarker slot) else none

/-- **The files hold a bank and its markers**: each active slot has one, and no other. -/
abbrev OtpFilesAre (sha256 : Bytes → Bytes) (crypto : FileObjectContainerCrypto) (bank : OtpBank)
    (files : Files) : Prop :=
  OtpMarked sha256 crypto bank.isActive bank files

variable {active active' : UInt8 → Bool}

section

variable (h : OtpMarked sha256 crypto active bank files)
include h

theorem OtpMarked.congr (hactive : ∀ slot ∈ otpSlots, active' slot = active slot) :
    OtpMarked sha256 crypto active' bank files :=
  ⟨h.bankIs, fun slot hslot ↦ by rw [hactive slot hslot, h.marker slot hslot]⟩

theorem OtpMarked.isMarker (hslot : slot ∈ otpSlots) :
    otpContainerIsMarker slot (files (otpMarkerFid slot)) = active slot := by
  rw [otpContainerIsMarker, mem_otpSlots.mp hslot, h.marker slot hslot]
  cases active slot <;> simp

theorem OtpMarked.isSome_marker
    (hslot : slot ∈ otpSlots) : (files (otpMarkerFid slot)).isSome = active slot := by
  rw [h.marker slot hslot]
  cases active slot <;> rfl

end

section

variable (h : OtpMarked sha256 crypto active bank s.files)
include h

/-- **The commit** of a bank of at most three slots. -/
theorem OtpMarked.wp_bankCommit
    (hgrows : bank.Grows bank') (hok : bank'.Ok) (hroom : bank'.stored ≤ 3)
    (hgen : ¬ContainerExhausted (otpContainerLayout sha256) 0 crypto s.files) :
    wp (· = .ok) (otpContainerBankCommit sha256 crypto bank')
      (fun _ s' ↦ OtpMarked sha256 crypto active bank' s'.files) (fun _ _ ↦ False) s := by
  refine wp_get ?_
  rw [h.bankIs.storageAvailable]
  refine wp_ite nofun fun _ ↦ ?_
  have hmarkers := @LayoutConfined.update (otpContainerLayout sha256) 0 _ crypto none
    otpLayoutConfined bank'.writes false (· = .ok) s
  refine wp_mono (wp_and (h.bankIs.wp_update hgrows hok hroom hgen) hmarkers) ?_ fun _ _ h ↦ h.1
  rintro - s' ⟨hbank, hframe⟩
  refine ⟨hbank, fun slot hslot ↦ ?_⟩
  rw [hframe _ (not_otpFid_marker slot), h.marker slot hslot]

/-- A bank of four slots is refused. -/
theorem OtpMarked.wp_bankCommit_full (hfull : 3 < bank'.stored) {Q : Unit → FsState TxnRam → Prop} :
    wp (· = .ok) (otpContainerBankCommit sha256 crypto bank') Q
      (fun e s' ↦ e = .code .nullParam ∧ s' = s) s := by
  refine wp_get ?_
  rw [h.bankIs.storageAvailable]
  have hlong : manifestMaxObjects < bank'.writes.length := by
    rw [OtpBank.length_writes, manifestMaxObjects]
    omega
  refine wp_ite nofun fun _ ↦ wp_guard ⟨rfl, rfl⟩ fun hshort ↦ ?_
  simp [hlong] at hshort

/-- Writing or deleting a marker. -/
theorem OtpMarked.setMarker (present : Bool) :
    OtpMarked sha256 crypto (fun i ↦ if i = slot then present else active i) bank
      (s.setFile (otpMarkerFid slot) (if present then some (otpMarker slot) else none)).files where
  bankIs := by
    refine h.bankIs.congr fun fid hfid ↦ Files.set_of_ne _ _ fun heq ↦ ?_
    exact not_otpFid_marker slot (heq ▸ hfid)
  marker i hi := by
    by_cases heq : i = slot
    · rw [heq, FsState.files_setFile, Files.set_self, if_pos rfl]
    · have hne : otpMarkerFid i ≠ otpMarkerFid slot := fun hfid ↦ heq (otpMarkerFid_inj hfid)
      rw [FsState.files_setFile, Files.set_of_ne _ _ hne, if_neg heq, h.marker i hi]

theorem OtpMarked.wp_markerReplace {E : Exit Status → FsState TxnRam → Prop}
    (hslot : slot ∈ otpSlots) (present : Bool) :
    wp (· = .ok) (otpMarkerReplace slot present)
      (fun _ s' ↦ OtpMarked sha256 crypto (fun i ↦ if i = slot then present else active i) bank
        s'.files) E s := by
  have hset := @OtpMarked.setMarker _ _ _ slot s _ h present
  refine wp_bind (wp_fileSearch ?_)
  rw [h.isMarker hslot, h.isSome_marker hslot]
  rcases present with - | -
  · refine wp_ite (fun _ ↦ wp_ite (fun _ ↦ wp_fileDeleteQuietly hset nofun nofun) fun hnot ↦
      wp_pure ?_) nofun
    -- a slot without a marker has no file
    have hnone := h.marker slot hslot
    rw [if_neg hnot] at hnone
    rwa [if_neg (by decide), ← hnone, FsState.setFile_get] at hset
  · refine wp_ite nofun fun _ ↦ wp_ite (fun hother ↦ ?_) fun _ ↦ ?_
    · cases hactive : active slot <;> simp [hactive] at hother
    · refine wp_bind (wp_fileDeleteQuietly ?_ nofun nofun)
      refine wp_bind (wp_fileNew (fun c hc ↦ ?_) (fun _ ↦ ?_) nofun nofun nofun)
      · simp at hc
      · exact wp_filePutData (by simpa using hset) nofun nofun nofun

end

/-! ### The calls on the files -/

section Calls

variable {E : Exit Status → FsState TxnRam → Prop}

section

variable (h : OtpFilesAre sha256 crypto bank s.files)
include h

/-- Storing a slot does to the files what it does to the bank, as far as the bank can be written. -/
theorem OtpMarked.wp_slotStore
    (hslot : slot ∈ otpSlots) {plain : Bytes} (hlen : plain.length = 52 ∨ plain.length = otpSlotPlainMax)
    (hcommit : wp (· = .ok)
      (otpContainerBankCommit sha256 crypto (bank.write slot ⟨plain, otpSlotMetadataBuild plain⟩))
      (fun _ s' ↦ OtpMarked sha256 crypto bank.isActive
        (bank.write slot ⟨plain, otpSlotMetadataBuild plain⟩) s'.files) E s) :
    wp (· = .ok) (otpSlotStore sha256 crypto slot plain)
      (fun _ s' ↦ OtpFilesAre sha256 crypto
        (bank.write slot ⟨plain, otpSlotMetadataBuild plain⟩) s'.files) E s := by
  have hmetadata := OtpBank.length_otpSlotMetadataBuild plain
  refine wp_ite (fun hbad ↦ absurd hbad (by tauto)) fun _ ↦ ?_
  refine wp_ite (fun hbad ↦ ?_) fun _ ↦ wp_bind (wp_fileSearch ?_)
  · simp only [mem_otpSlots.mp hslot, Bool.not_true, Bool.false_or, Bool.or_eq_true,
      decide_eq_true_eq, otpSecretMaxSize] at hbad
    simp only [otpSlotPlainMax] at hlen
    omega
  refine wp_ite (fun hbad ↦ ?_) fun _ ↦ wp_get ?_
  · rw [h.isMarker hslot, h.marker slot hslot] at hbad
    cases hactive : bank.isActive slot <;> simp [hactive] at hbad
  rw [h.bankIs.bankLoad]
  refine wp_bind (wp_pure (wp_then hcommit fun _ s₁ h₁ ↦ ?_))
  refine wp_mono (h₁.wp_markerReplace hslot true) (fun _ s₂ h₂ ↦ h₂.congr fun i hi ↦ ?_)
    fun _ _ h ↦ h
  rw [OtpBank.isActive_write hslot hi]
  by_cases heq : i = slot <;> simp [heq]

/-- Deleting a slot, likewise. -/
theorem OtpMarked.wp_slotDelete (hslot : slot ∈ otpSlots)
    (hcommit : bank.isActive slot = true → wp (· = .ok)
      (otpContainerBankCommit sha256 crypto (bank.delete slot))
      (fun _ s' ↦ OtpMarked sha256 crypto bank.isActive (bank.delete slot) s'.files) E s) :
    wp (· = .ok) (otpSlotDelete sha256 crypto slot)
      (fun _ s' ↦ OtpFilesAre sha256 crypto
        (if bank.isActive slot then bank.delete slot else bank) s'.files) E s := by
  have hpresent := h.bankIs.hasSlotStatus hslot
  refine wp_get ?_
  rw [hpresent]
  refine wp_bind (wp_pure (wp_bind (wp_fileSearch ?_)))
  rw [h.isMarker hslot, Bool.and_self]
  refine wp_ite (fun hactive ↦ ?_) fun hinactive ↦ ?_
  · refine wp_get ?_
    rw [hpresent]
    refine wp_bind (wp_pure (wp_ite (fun hbad ↦ ?_) fun _ ↦ wp_get ?_))
    · simp [hactive] at hbad
    rw [h.bankIs.bankLoad]
    refine wp_bind (wp_pure (wp_then (hcommit hactive) fun _ s₁ h₁ ↦ ?_))
    refine wp_mono (h₁.wp_markerReplace hslot false) (fun _ s₂ h₂ ↦ ?_) fun _ _ h ↦ h
    rw [if_pos hactive]
    refine h₂.congr fun i hi ↦ ?_
    rw [OtpBank.isActive_delete hslot hi]
    by_cases heq : i = slot <;> simp [heq]
  · -- nothing to be deleted
    have hnone := h.marker slot hslot
    rw [if_neg hinactive] at hnone ⊢
    refine wp_fileDeletePresent ?_ nofun
    rw [← hnone, FsState.setFile_get]
    exact h

/-- What the swap command finds. -/
theorem OtpMarked.wp_swapContent (hslot : slot ∈ otpSlots) :
    wp (· = .ok) (otpSwapContent sha256 crypto slot)
      (fun content s' ↦ content = bank.swapContent slot ∧ s' = s) E s := by
  refine wp_get ?_
  dsimp only
  rw [h.bankIs.hasSlotStatus hslot]
  have hsome := h.bankIs.ok.config_isSome hslot
  refine wp_bind (wp_pure (wp_ite (fun hactive ↦ ?_) fun hinactive ↦ wp_pure ⟨?_, rfl⟩))
  · rw [h.bankIs.readSlot hslot le_rfl]
    rw [hactive] at hsome
    obtain ⟨plain, hplain⟩ := isSome_iff_exists.mp hsome
    rw [hplain]
    exact wp_bind (wp_pure (wp_pure ⟨by rw [OtpBank.swapContent, hplain]; rfl, rfl⟩))
  · have hnone : bank.config slot = none := by simpa [hinactive] using hsome
    rw [OtpBank.swapContent, hnone]
    rfl

end

theorem OtpBank.Ok.swapContentValid (h : bank.Ok) :
    otpSwapContentValid (bank.swapContent slot) = true := by
  rcases hcontent : bank.swapContent slot with - | content
  · rfl
  · have hle := h.swapContent hcontent
    simp only [otpSlotPlainMax] at hle
    simp only [otpSwapContentValid, all_some, Bool.and_eq_true, decide_eq_true_eq,
      otpSecretMaxSize]
    omega

/-- Swapping two slots, likewise. -/
theorem OtpMarked.wp_swapSlots {slot₁ slot₂ : UInt8}
    (h : OtpFilesAre sha256 crypto bank s.files) (h₁ : slot₁ ∈ otpSlots) (h₂ : slot₂ ∈ otpSlots)
    (hne : slot₁ ≠ slot₂)
    (hcommit : (bank.isActive slot₁ || bank.isActive slot₂) = true →
      wp (· = .ok) (otpContainerBankCommit sha256 crypto (bank.swapped slot₁ slot₂))
        (fun _ s' ↦ OtpMarked sha256 crypto bank.isActive (bank.swapped slot₁ slot₂) s'.files) E s) :
    wp (· = .ok) (otpSwapSlots sha256 crypto slot₁ slot₂)
      (fun _ s' ↦ OtpFilesAre sha256 crypto
        (if bank.isActive slot₁ || bank.isActive slot₂ then bank.swapped slot₁ slot₂ else bank)
        s'.files) E s := by
  have hcontent (slot : UInt8) (hslot : slot ∈ otpSlots) :
      (bank.swapContent slot).isSome = bank.isActive slot := by
    rw [OtpBank.swapContent, isSome_map, h.bankIs.ok.config_isSome hslot]
  refine wp_then (h.wp_swapContent h₁) ?_
  rintro content₁ s₁ ⟨rfl, rfl⟩
  refine wp_then (h.wp_swapContent h₂) ?_
  rintro content₂ s₂ ⟨rfl, rfl⟩
  rw [hcontent slot₁ h₁, hcontent slot₂ h₂]
  refine wp_ite (fun hactive ↦ ?_) fun hinactive ↦ wp_pure ?_
  · refine wp_ite (fun hbad ↦ ?_) fun _ ↦ wp_get ?_
    · simp [mem_otpSlots.mp h₁, mem_otpSlots.mp h₂, hne] at hbad
    rw [h.bankIs.hasSlotStatus h₁]
    refine wp_bind (wp_pure (wp_get ?_))
    rw [h.bankIs.hasSlotStatus h₂]
    refine wp_bind (wp_pure (wp_ite (fun hbad ↦ ?_) fun _ ↦ wp_get ?_))
    · simp [hcontent, h₁, h₂, h.bankIs.ok.swapContentValid] at hbad
    rw [h.bankIs.bankLoad]
    refine wp_bind (wp_pure (wp_then (hcommit hactive) fun _ s₁ hs₁ ↦ ?_))
    refine wp_then (hs₁.wp_markerReplace h₁ _) fun _ s₂ hs₂ ↦ ?_
    refine wp_mono (hs₂.wp_markerReplace h₂ _) (fun _ s₃ hs₃ ↦ ?_) fun _ _ h ↦ h
    rw [if_pos hactive]
    refine hs₃.congr fun i hi ↦ ?_
    rw [OtpBank.swapped, OtpBank.isActive_swap h₁ h₂ hne hi]
    by_cases heq₁ : i = slot₁
    · simp [heq₁, hne]
    · simp [heq₁]
  · rw [if_neg hinactive]
    exact h

end Calls

end Files

/-! ### What the bank is for -/

/-- A call on the bank. -/
inductive OtpCall where
  /-- Configure a slot, with or without the counters. -/
  | store (slot : UInt8) (plain : Bytes)
  /-- Delete a slot. -/
  | delete (slot : UInt8)
  /-- Swap two slots. -/
  | swap (slot₁ slot₂ : UInt8)

open OtpCall

/-- The calls the commands make: on one of the four slots or on two of them, with configurations
of the one size or the other. -/
def OtpCall.Valid : OtpCall → Prop
  | store slot plain => slot ∈ otpSlots ∧ (plain.length = 52 ∨ plain.length = otpSlotPlainMax)
  | delete slot => slot ∈ otpSlots
  | swap slot₁ slot₂ => slot₁ ∈ otpSlots ∧ slot₂ ∈ otpSlots ∧ slot₁ ≠ slot₂

def OtpCall.run (sha256 : Bytes → Bytes) (crypto : FileObjectContainerCrypto) :
    OtpCall → FsProg TxnRam Unit
  | store slot plain => otpSlotStore sha256 crypto slot plain
  | delete slot => otpSlotDelete sha256 crypto slot
  | swap slot₁ slot₂ => otpSwapSlots sha256 crypto slot₁ slot₂

/-- The map: the configuration of each slot, and which slots something has been stored in. -/
structure OtpContents where
  /-- The configurations. -/
  config : UInt8 → Option Bytes
  /-- The slots that have been stored. -/
  stored : UInt8 → Bool

/-- Nothing has been stored. -/
def OtpContents.empty : OtpContents :=
  ⟨fun _ ↦ none, fun _ ↦ false⟩

variable (contents : OtpContents)

/-- The map after a call. -/
def OtpContents.after : OtpCall → OtpContents
  | .store slot plain =>
    ⟨fun i ↦ if i = slot then some plain else contents.config i,
      fun i ↦ i == slot || contents.stored i⟩
  | .delete slot => { contents with config := fun i ↦ if i = slot then none else contents.config i }
  | .swap slot₁ slot₂ =>
    ⟨fun i ↦ if i = slot₁ then contents.config slot₂ else if i = slot₂ then contents.config slot₁
        else contents.config i,
      fun i ↦ contents.stored i || (i == slot₁ && (contents.config slot₂).isSome) ||
        (i == slot₂ && (contents.config slot₁).isSome)⟩

/-- There is room for the slots that have been stored. -/
def OtpContents.Fits : Prop :=
  (otpSlots.filter contents.stored).length ≤ 3

instance (contents : OtpContents) : Decidable contents.Fits :=
  inferInstanceAs (Decidable (_ ≤ _))

/-- The map after a call, which is refused if there is no room. -/
def OtpContents.step (call : OtpCall) : OtpContents :=
  if (contents.after call).Fits then contents.after call else contents

/-- The histories of a bank: any calls, on a store that has free space, with the generations not
used up. The rest of the system leaves the bank's files and its markers alone. -/
inductive OtpHistory (sha256 : Bytes → Bytes) (crypto : FileObjectContainerCrypto) :
    OtpContents → FsState TxnRam → Prop
  | fresh {s : FsState TxnRam} (h : OtpFilesFree s.files)
      (hmarkers : ∀ slot ∈ otpSlots, s.files (otpMarkerFid slot) = none) :
      OtpHistory sha256 crypto .empty s
  | call {contents : OtpContents} {s : FsState TxnRam} (h : OtpHistory sha256 crypto contents s)
      (call : OtpCall) (hvalid : call.Valid)
      (hgen : ¬ContainerExhausted (otpContainerLayout sha256) 0 crypto s.files)
      (os : List Outcome) (hos : ∀ o ∈ os, o = .ok) :
      OtpHistory sha256 crypto (contents.step call) ((call.run sha256 crypto).final s os)
  | other {contents : OtpContents} {s s' : FsState TxnRam} (h : OtpHistory sha256 crypto contents s)
      (hsame : ∀ fid, OtpFid fid ∨ (∃ slot ∈ otpSlots, fid = otpMarkerFid slot) →
        s'.files fid = s.files fid) :
      OtpHistory sha256 crypto contents s'

/-- **The refinement**: the files hold a bank that shows what the map has. -/
structure OtpContentsAre (sha256 : Bytes → Bytes) (crypto : FileObjectContainerCrypto)
    (contents : OtpContents) (bank : OtpBank) (files : Files) : Prop where
  filesAre : OtpFilesAre sha256 crypto bank files
  config_eq : ∀ slot ∈ otpSlots, contents.config slot = bank.config slot
  stored_eq : ∀ slot ∈ otpSlots, contents.stored slot = (bank.slots slot).isSome

section Refinement

variable {sha256 : Bytes → Bytes} {crypto : FileObjectContainerCrypto} {contents : OtpContents}
  {bank : OtpBank} {s : FsState TxnRam} {call : OtpCall}

/-- What a call does to the bank, if it is written back. -/
def OtpCall.onBank (bank : OtpBank) : OtpCall → OtpBank
  | store slot plain => bank.write slot ⟨plain, otpSlotMetadataBuild plain⟩
  | delete slot => if bank.isActive slot then bank.delete slot else bank
  | swap slot₁ slot₂ =>
    if bank.isActive slot₁ || bank.isActive slot₂ then bank.swapped slot₁ slot₂ else bank

theorem OtpCall.grows (hvalid : call.Valid) : bank.Grows (call.onBank bank) := by
  cases call with
  | store slot plain => exact OtpBank.grows_write
  | delete slot =>
    rw [onBank]
    split_ifs
    · exact OtpBank.grows_delete
    · exact fun _ hi ↦ hi
  | swap slot₁ slot₂ =>
    rw [onBank]
    split_ifs
    · exact OtpBank.grows_swapped hvalid.2.2
    · exact fun _ hi ↦ hi

theorem OtpCall.ok (hvalid : call.Valid) (hok : bank.Ok) : (call.onBank bank).Ok := by
  cases call with
  | store slot plain =>
    refine hok.write hvalid.1 ?_ (OtpBank.length_otpSlotMetadataBuild plain)
    rcases hvalid.2 with hlen | hlen <;> simp only [hlen, otpSlotPlainMax] <;> decide
  | delete slot =>
    rw [onBank]
    split_ifs
    · exact hok.delete hvalid
    · exact hok
  | swap slot₁ slot₂ =>
    rw [onBank]
    split_ifs
    · exact hok.swapped hvalid.1 hvalid.2.1 hvalid.2.2
    · exact hok

theorem OtpBank.config_of_inactive {slot : UInt8} (h : bank.isActive slot = false) :
    bank.config slot = none := by
  rw [OtpBank.config, h]
  rfl

section

variable (h : OtpContentsAre sha256 crypto contents bank s.files)
include h

/-- The bank shows what the map has after a call. -/
theorem OtpContentsAre.config_after (hvalid : call.Valid) {i : UInt8} (hi : i ∈ otpSlots) :
    (contents.after call).config i = (call.onBank bank).config i := by
  cases call with
  | store slot plain =>
    rw [onBank, OtpBank.config_write hvalid.1 hi, ← h.config_eq i hi]
    rfl
  | delete slot =>
    show (if i = slot then none else contents.config i) = _
    rw [onBank]
    by_cases hactive : bank.isActive slot = true
    · rw [if_pos hactive, OtpBank.config_delete hvalid hi, ← h.config_eq i hi]
    · rw [if_neg hactive]
      by_cases heq : i = slot
      · rw [if_pos heq, heq, OtpBank.config_of_inactive (by simpa using hactive)]
      · rw [if_neg heq, h.config_eq i hi]
  | swap slot₁ slot₂ =>
    obtain ⟨h₁, h₂, hne⟩ := hvalid
    rw [onBank, OtpContents.after]
    split_ifs with hactive
    · rw [OtpBank.config_swapped h₁ h₂ hne hi, ← h.config_eq i hi, ← h.config_eq slot₁ h₁,
        ← h.config_eq slot₂ h₂]
    · -- neither slot shows anything
      simp only [Bool.or_eq_true, not_or, Bool.not_eq_true] at hactive
      have hnone₁ := OtpBank.config_of_inactive hactive.1
      have hnone₂ := OtpBank.config_of_inactive hactive.2
      show (if i = slot₁ then contents.config slot₂ else if i = slot₂ then contents.config slot₁
        else contents.config i) = bank.config i
      rw [h.config_eq slot₁ h₁, h.config_eq slot₂ h₂, h.config_eq i hi, hnone₁, hnone₂]
      split_ifs with heq₁ heq₂
      · rw [heq₁, hnone₁]
      · rw [heq₂, hnone₂]
      · rfl

/-- The bank has stored what the map says after a call. -/
theorem OtpContentsAre.stored_after (hvalid : call.Valid) {i : UInt8} (hi : i ∈ otpSlots) :
    (contents.after call).stored i = ((call.onBank bank).slots i).isSome := by
  cases call with
  | store slot plain =>
    rw [onBank, OtpBank.isSome_slots_write, ← h.stored_eq i hi]
    rfl
  | delete slot =>
    rw [onBank, OtpContents.after]
    split_ifs <;> exact h.stored_eq i hi
  | swap slot₁ slot₂ =>
    obtain ⟨h₁, h₂, hne⟩ := hvalid
    show (contents.stored i || (i == slot₁ && (contents.config slot₂).isSome) ||
        (i == slot₂ && (contents.config slot₁).isSome)) = _
    rw [h.stored_eq i hi, h.config_eq slot₁ h₁, h.config_eq slot₂ h₂, onBank]
    split_ifs with hactive
    · rw [OtpBank.isSome_slots_swapped hne]
    · simp only [Bool.or_eq_true, not_or, Bool.not_eq_true] at hactive
      simp [OtpBank.config_of_inactive hactive.1, OtpBank.config_of_inactive hactive.2]

/-- There is room for a bank if there is for the map. -/
theorem OtpContentsAre.fits_iff
    (hvalid : call.Valid) : (contents.after call).Fits ↔ (call.onBank bank).stored ≤ 3 := by
  rw [OtpContents.Fits, OtpBank.stored, filter_congr fun i hi ↦ h.stored_after hvalid hi]

end

/-- A call does to the files what it does to the bank, as far as the bank can be written. -/
theorem OtpMarked.wp_call {E : Exit Status → FsState TxnRam → Prop}
    (h : OtpFilesAre sha256 crypto bank s.files) (hvalid : call.Valid)
    (hcommit : wp (· = .ok) (otpContainerBankCommit sha256 crypto (call.onBank bank))
      (fun _ s' ↦ OtpMarked sha256 crypto bank.isActive (call.onBank bank) s'.files) E s) :
    wp (· = .ok) (call.run sha256 crypto)
      (fun _ s' ↦ OtpFilesAre sha256 crypto (call.onBank bank) s'.files) E s := by
  cases call with
  | store slot plain => exact h.wp_slotStore hvalid.1 hvalid.2 hcommit
  | delete slot =>
    refine h.wp_slotDelete hvalid fun hactive ↦ ?_
    rwa [onBank, if_pos hactive] at hcommit
  | swap slot₁ slot₂ =>
    refine h.wp_swapSlots hvalid.1 hvalid.2.1 hvalid.2.2 fun hactive ↦ ?_
    rwa [onBank, if_pos hactive] at hcommit

/-- **A call with room** takes place. -/
theorem OtpContentsAre.wp_call (h : OtpContentsAre sha256 crypto contents bank s.files)
    (hvalid : call.Valid) (hgen : ¬ContainerExhausted (otpContainerLayout sha256) 0 crypto s.files)
    (hfits : (contents.after call).Fits) :
    wp (· = .ok) (call.run sha256 crypto)
      (fun _ s' ↦ OtpContentsAre sha256 crypto (contents.after call) (call.onBank bank) s'.files)
      (fun _ _ ↦ False) s := by
  have hcommit := h.filesAre.wp_bankCommit (grows hvalid)
    (ok hvalid h.filesAre.bankIs.ok) ((h.fits_iff hvalid).mp hfits) hgen
  refine wp_mono (h.filesAre.wp_call hvalid hcommit) (fun _ s' hs' ↦ ?_) fun _ _ h ↦ h
  exact ⟨hs', fun i hi ↦ h.config_after hvalid hi, fun i hi ↦ h.stored_after hvalid hi⟩

/-- **A call without room** is refused, and changes nothing. -/
theorem OtpContentsAre.wp_call_refused (h : OtpContentsAre sha256 crypto contents bank s.files)
    (hvalid : call.Valid) (hfits : ¬(contents.after call).Fits) :
    wp (· = .ok) (call.run sha256 crypto) (fun _ _ ↦ False)
      (fun e s' ↦ e = .code .nullParam ∧ s' = s) s := by
  have hfull := Nat.lt_of_not_le fun hroom ↦ hfits ((h.fits_iff hvalid).mpr hroom)
  refine wp_mono (h.filesAre.wp_call hvalid (h.filesAre.wp_bankCommit_full hfull)) (fun _ s' hs' ↦ ?_)
    fun _ _ h ↦ h
  exact absurd hs'.bankIs.stored_le (Nat.not_le.mpr hfull)

/-- Every history keeps the refinement. -/
theorem OtpHistory.contentsAre (h : OtpHistory sha256 crypto contents s) :
    ∃ bank, OtpContentsAre sha256 crypto contents bank s.files := by
  induction h with
  | fresh h hmarkers =>
    refine ⟨.empty, ⟨h.bankIs, fun slot hslot ↦ ?_⟩, fun slot _ ↦ ?_, fun _ _ ↦ rfl⟩
    · rw [hmarkers slot hslot]
      simp [OtpBank.isActive, OtpBank.empty]
    · rw [OtpBank.config_of_inactive (by simp [OtpBank.isActive, OtpBank.empty])]
      rfl
  | @call contents s h call hvalid hgen os hos ih =>
    obtain ⟨bank, hat⟩ := ih
    rw [OtpContents.step]
    split_ifs with hfits
    · rcases run_of_wp (hat.wp_call hvalid hgen hfits) hos with ⟨-, -, hat'⟩ | ⟨-, -, h⟩
      · exact ⟨_, hat'⟩
      · exact h.elim
    · rcases run_of_wp (hat.wp_call_refused hvalid hfits) hos with ⟨-, -, h⟩ | ⟨-, -, -, hsame⟩
      · exact h.elim
      · exact ⟨bank, by rwa [hsame]⟩
  | other h hsame ih =>
    obtain ⟨bank, hat⟩ := ih
    refine ⟨bank, ⟨hat.filesAre.bankIs.congr fun fid hfid ↦ hsame fid (.inl hfid), fun slot hslot ↦ ?_⟩,
      hat.config_eq, hat.stored_eq⟩
    rw [hsame _ (.inr ⟨slot, hslot, rfl⟩), hat.filesAre.marker slot hslot]

/-- **The OTP bank is a map.** After any history of stores, deletions and swaps, a call succeeds if and
only if no more than three slots are stored after it; reading a slot gives the configuration last
written to it, moved by the swaps since; and a secret of the slot is in the files if and only if
something has ever been stored there, whether it was deleted since or not. -/
theorem otp_bank_is_map (h : OtpHistory sha256 crypto contents s) :
    (∀ call : OtpCall, call.Valid →
      ¬ContainerExhausted (otpContainerLayout sha256) 0 crypto s.files → ∀ os,
      (∀ o ∈ os, o = .ok) →
        ((call.run sha256 crypto).result s os = .ok () ↔ (contents.after call).Fits)) ∧
    (∀ slot ∈ otpSlots, otpContainerReadSlot sha256 crypto s.files slot otpSecretMaxSize =
      readResult (contents.config slot)) ∧
    ∀ slot ∈ otpSlots, (∀ i, s.files (otpRecordFid i otpObjectSecret slot.toUInt16) = none) ↔
      contents.stored slot = false := by
  obtain ⟨bank, hat⟩ := h.contentsAre
  refine ⟨fun call hvalid hgen os hos ↦ ⟨fun hok ↦ ?_, fun hfits ↦ ?_⟩, fun slot hslot ↦ ?_,
    fun slot hslot ↦ ?_⟩
  · by_contra hfits
    rcases run_of_wp (hat.wp_call_refused hvalid hfits) hos with ⟨-, -, h⟩ | ⟨e, he, -⟩
    · exact h
    · rw [hok] at he
      cases he
  · rcases run_of_wp (hat.wp_call hvalid hgen hfits) hos with ⟨⟨⟩, hok, -⟩ | ⟨-, -, h⟩
    · exact hok
    · exact h.elim
  · rw [hat.filesAre.bankIs.readSlot hslot (by decide), hat.config_eq slot hslot]
  · rw [hat.filesAre.bankIs.secret_absent hslot, hat.stored_eq slot hslot]
    simp

end Refinement

/-- An undisturbed call on the example bank. -/
def otpCall (call : OtpCall) (s : FsState TxnRam) : FsState TxnRam :=
  (call.run exampleSha256 exampleCrypto).final s []

/-- Two slots are stored and swapped, and one of them is deleted. -/
theorem otp_bank_is_map_swap :
    let stored := otpCall (.store 0 (replicate 52 9)) (otpCall (.store 2 (replicate 52 7))
      ⟨fun _ ↦ none, .boot⟩)
    let s := otpCall (.delete 0) (otpCall (.swap 0 2) stored)
    (∀ slot ∈ otpSlots, otpContainerReadSlot exampleSha256 exampleCrypto s.files slot 128 =
      readResult (if slot = 2 then some (replicate 52 9) else none)) ∧
    ∀ slot ∈ otpSlots, (∀ i, s.files (otpRecordFid i otpObjectSecret slot.toUInt16) = none) ↔
      slot ≠ 0 ∧ slot ≠ 2 := by
  intro stored s
  have hfresh : OtpHistory exampleSha256 exampleCrypto .empty ⟨fun _ ↦ none, .boot⟩ :=
    .fresh (fun _ ↦ ⟨rfl, fun _ _ ↦ rfl⟩) fun _ _ ↦ rfl
  have hfirst := hfresh.call (.store 2 (replicate 52 7)) ⟨by decide, .inl rfl⟩ (by decide +kernel) []
    nofun
  have hstored : OtpHistory _ _ _ stored :=
    hfirst.call (.store 0 (replicate 52 9)) ⟨by decide, .inl rfl⟩ (by decide +kernel) [] nofun
  have hswapped := hstored.call (.swap 0 2) ⟨by decide, by decide, by decide⟩ (by decide +kernel) []
    nofun
  have hdeleted : OtpHistory _ _ _ s :=
    hswapped.call (.delete 0) (show (0 : UInt8) ∈ otpSlots by decide) (by decide +kernel) [] nofun
  obtain ⟨-, hread, hsecret⟩ := otp_bank_is_map hdeleted
  refine ⟨fun slot hslot ↦ (hread slot hslot).trans ?_, fun slot hslot ↦ (hsecret slot hslot).trans ?_⟩
  · revert slot
    decide +kernel
  · revert slot
    decide +kernel

/-- Three slots are stored: a fourth one is refused. And after one of them is deleted its old
configuration is still in its record. -/
theorem otp_bank_fourth_slot_and_deletion :
    let plain : Bytes := List.replicate 52 7
    let run (call : OtpCall) := call.run exampleSha256 exampleCrypto
    let s₁ := (run (.store 0 plain)).final ⟨fun _ ↦ none, .boot⟩ []
    let s₂ := (run (.store 1 plain)).final s₁ []
    let s₃ := (run (.store 2 plain)).final s₂ []
    let s₄ := (run (.delete 0)).final s₃ []
    (run (.store 3 plain)).result s₃ [] = .error (.code .nullParam) ∧
      (run (.delete 0)).result s₃ [] = .ok () ∧
      otpContainerReadSlot exampleSha256 exampleCrypto s₄.files 0 128 = .error .fileNotFound ∧
      otpContainerReadObject exampleSha256 exampleCrypto s₄.files 0 otpObjectSecret 128 =
        .ok plain := by
  decide +kernel

end PicoAll
