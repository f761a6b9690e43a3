import PicoAll.Apps.ContainerMap
import PicoAll.Fido.OtpBank

/-!
# The law of the OTP bank

As long as no more than three slots have ever been stored, the bank is a map from slots to
configurations, and storing and swapping do what they say.
-/

namespace PicoAll

open FaultProgram BigEndian List

/-! ### The writes of a bank -/

namespace OtpBank

variable {bank bank' : OtpBank} {write : FileObjectContainerWrite} {slot : UInt8}
  {key : UInt16 × UInt16}

theorem mem_slotWrites :
    write ∈ bank.slotWrites slot ↔ ∃ content, bank.slots slot = some content ∧
      (write = otpWrite otpObjectSecret slot.toUInt16 content.secret ∨
        write = otpWrite otpObjectMetadata slot.toUInt16 content.metadata) := by
  rw [slotWrites]
  rcases bank.slots slot with - | content <;> simp

theorem mem_writes : write ∈ bank.writes ↔
    (∃ slot ∈ otpSlots, ∃ content, bank.slots slot = some content ∧
      (write = otpWrite otpObjectSecret slot.toUInt16 content.secret ∨
        write = otpWrite otpObjectMetadata slot.toUInt16 content.metadata)) ∨
      write = otpWrite otpObjectIndex 0 [bank.active] := by
  rw [writes, mem_append, mem_flatMap, mem_singleton]
  simp only [mem_slotWrites]

/-- The number of stored slots. -/
def stored (bank : OtpBank) : ℕ :=
  (otpSlots.filter fun slot ↦ (bank.slots slot).isSome).length

theorem length_writes : bank.writes.length = 2 * bank.stored + 1 := by
  have hlen (slots : List UInt8) : (slots.flatMap bank.slotWrites).length =
      2 * (slots.filter fun slot ↦ (bank.slots slot).isSome).length := by
    induction slots with
    | nil => rfl
    | cons slot slots ih =>
      rw [flatMap_cons, length_append, ih, filter_cons, slotWrites]
      rcases bank.slots slot with - | content
      · simp
      · simp only [length_cons, length_nil, Option.isSome_some, if_true]
        omega
  rw [writes, length_append, hlen, stored]
  rfl

theorem nodup_key_writes : (bank.writes.map (·.key)).Nodup := by
  have hsublist : (bank.writes.map (·.key)).Sublist
      (otpSlots.flatMap (fun slot ↦ [(otpObjectSecret, slot.toUInt16),
        (otpObjectMetadata, slot.toUInt16)]) ++ [(otpObjectIndex, 0)]) := by
    rw [writes, map_append, map_flatMap]
    refine List.Sublist.append ?_ (List.Sublist.refl _)
    generalize otpSlots = slots
    induction slots with
    | nil => exact List.Sublist.refl _
    | cons slot slots ih =>
      rw [flatMap_cons, flatMap_cons]
      refine List.Sublist.append ?_ ih
      rw [slotWrites]
      rcases bank.slots slot with - | content
      · exact nil_sublist _
      · exact List.Sublist.refl _
  exact hsublist.nodup (by decide)

theorem find_writes (h : write ∈ bank.writes) :
    bank.writes.find? (·.key == write.key) = some write := by
  rcases hfind : bank.writes.find? (·.key == write.key) with - | found
  · rw [find?_eq_none] at hfind
    exact absurd (beq_self_eq_true write.key) (hfind write h)
  · have hkey : found.key = write.key := by simpa using find?_some hfind
    have heq := inj_on_of_nodup_map nodup_key_writes (mem_of_find?_eq_some hfind) h hkey
    rw [hfind, heq]

/-- The data of the objects of a bank. -/
def objects (bank : OtpBank) (key : UInt16 × UInt16) : Option Bytes :=
  (bank.writes.find? (·.key == key)).map (·.data)

theorem objects_isSome :
    (bank.objects key).isSome = true ↔ key ∈ bank.writes.map (·.key) := by
  rw [objects, Option.isSome_map, find?_isSome, mem_map]
  simp

theorem objects_of_mem (h : write ∈ bank.writes) : bank.objects write.key = some write.data := by
  rw [objects, find_writes h]
  rfl

theorem objects_index : bank.objects (otpObjectIndex, 0) = some [bank.active] :=
  objects_of_mem (mem_writes.mpr (.inr rfl))

theorem objects_secret (hslot : slot ∈ otpSlots) :
    bank.objects (otpObjectSecret, slot.toUInt16) = (bank.slots slot).map (·.secret) := by
  rcases hcontent : bank.slots slot with - | content
  · have hnone : ¬(bank.objects (otpObjectSecret, slot.toUInt16)).isSome = true := by
      rw [objects_isSome, mem_map]
      rintro ⟨write, hwrite, hkey⟩
      rcases mem_writes.mp hwrite with ⟨slot', -, content, hcontent', rfl | rfl⟩ | rfl
      · have heq : slot' = slot := UInt8.toUInt16_inj.mp (congrArg Prod.snd hkey)
        rw [heq, hcontent] at hcontent'
        cases hcontent'
      · have htype : otpObjectMetadata = otpObjectSecret := congrArg Prod.fst hkey
        exact absurd htype (by decide)
      · have htype : otpObjectIndex = otpObjectSecret := congrArg Prod.fst hkey
        exact absurd htype (by decide)
    simpa using hnone
  · exact objects_of_mem (mem_writes.mpr (.inl ⟨slot, hslot, content, hcontent, .inl rfl⟩))

theorem objects_metadata (hslot : slot ∈ otpSlots) {content : OtpContainerSlot}
    (hcontent : bank.slots slot = some content) :
    bank.objects (otpObjectMetadata, slot.toUInt16) = some content.metadata :=
  objects_of_mem (mem_writes.mpr (.inl ⟨slot, hslot, content, hcontent, .inr rfl⟩))

/-- Every slot that is stored in a bank is stored in the other one. -/
def Grows (bank bank' : OtpBank) : Prop :=
  ∀ slot, (bank.slots slot).isSome → (bank'.slots slot).isSome

theorem Grows.keys_subset (h : Grows bank bank') :
    bank.writes.map (·.key) ⊆ bank'.writes.map (·.key) := by
  intro key hkey
  obtain ⟨write, hwrite, rfl⟩ := mem_map.mp hkey
  rcases mem_writes.mp hwrite with ⟨slot, hslot, content, hcontent, hwrite⟩ | rfl
  · obtain ⟨content', hcontent'⟩ := Option.isSome_iff_exists.mp (h slot (by rw [hcontent]; rfl))
    rcases hwrite with rfl | rfl
    · exact mem_map_of_mem (f := (·.key))
        (mem_writes.mpr (.inl ⟨slot, hslot, content', hcontent', .inl rfl⟩))
    · exact mem_map_of_mem (f := (·.key))
        (mem_writes.mpr (.inl ⟨slot, hslot, content', hcontent', .inr rfl⟩))
  · exact mem_map_of_mem (f := (·.key)) (mem_writes.mpr (.inr rfl))

/-- Writing all of a bank over a smaller one makes it that bank. -/
theorem Grows.effect {objects : UInt16 × UInt16 → Option Bytes}
    (h : ∀ key, (objects key).isSome → key ∈ bank'.writes.map (·.key)) (key : UInt16 × UInt16) :
    (ContainerCall.update bank'.writes false).effect objects key = bank'.objects key := by
  rw [ContainerCall.effect, OtpBank.objects]
  rcases hfind : bank'.writes.find? (·.key == key) with - | write
  · have hnone : ¬(objects key).isSome = true := by
      intro hsome
      obtain ⟨write, hwrite, hkey⟩ := mem_map.mp (h key hsome)
      rw [find?_eq_none] at hfind
      exact hfind write hwrite (by simpa using hkey)
    rw [hfind]
    simpa using hnone
  · rw [hfind]
    rfl

/-! ### Banks as the calls leave them -/

/-- What a slot shows: its configuration if it is active. -/
def config (bank : OtpBank) (slot : UInt8) : Option Bytes :=
  if bank.isActive slot then (bank.slots slot).map (·.secret) else none

/-- A bank as the calls leave it. -/
structure Ok (bank : OtpBank) : Prop where
  stored_of_active : ∀ slot ∈ otpSlots, bank.isActive slot = true → (bank.slots slot).isSome = true
  other : ∀ slot, slot ∉ otpSlots → bank.slots slot = none
  secret_le : ∀ slot content, bank.slots slot = some content →
    content.secret.length ≤ otpSlotPlainMax
  metadata_le : ∀ slot content, bank.slots slot = some content →
    content.metadata.length ≤ otpMetadataMaxSize

theorem Ok.empty : OtpBank.empty.Ok where
  stored_of_active slot _ h := by simp [isActive, OtpBank.empty] at h
  other _ _ := rfl
  secret_le _ _ h := nomatch h
  metadata_le _ _ h := nomatch h

theorem Ok.length_le (h : bank.Ok) {data : Bytes} (hdata : bank.objects key = some data) :
    data.length ≤ otpMetadataMaxSize := by
  obtain ⟨write, hfind, rfl⟩ := Option.map_eq_some_iff.mp hdata
  rcases mem_writes.mp (mem_of_find?_eq_some hfind) with
    ⟨slot, -, content, hcontent, rfl | rfl⟩ | rfl
  · exact (h.secret_le slot content hcontent).trans (by decide)
  · exact h.metadata_le slot content hcontent
  · show 1 ≤ 64
    decide

end OtpBank

section Files

variable {sha256 : Bytes → Bytes} {crypto : FileObjectContainerCrypto} {bank bank' : OtpBank}
  {files files' : Files}

/-! ### What the files hold -/

/-- No file of the bank is there. -/
def OtpFilesFree (files : Files) : Prop :=
  ∀ slot, files (otpManifestFid slot) = none ∧ ∀ fid ∈ otpRecordFids slot, files fid = none

/-- **The files hold a bank**: an empty one that has not been written, or one whose objects are
those of the container. -/
structure OtpBankIs (sha256 : Bytes → Bytes) (crypto : FileObjectContainerCrypto) (bank : OtpBank)
    (files : Files) : Prop where
  ok : bank.Ok
  holds : ∃ contents val current,
    ContentsAre (otpContainerLayout sha256) 0 crypto True contents files val current ∧
      match current with
      | none => bank = .empty ∧ OtpFilesFree files
      | some (slot, _) => contents.objects = bank.objects ∧ files (otpManifestFid slot.rev) = none

theorem OtpFilesFree.bankIs (h : OtpFilesFree files) : OtpBankIs sha256 crypto .empty files := by
  refine ⟨.empty, .empty, fun _ ↦ [], none, ⟨fun slot ↦ ?_, rfl, nofun, fun _ ↦ rfl,
    fun _ fid hfid hpresent ↦ ?_⟩, rfl, h⟩
  · have hmanifest := (h slot).1
    show fileHasData (files (otpManifestFid slot)) = false
    rw [hmanifest]
    rfl
  · obtain ⟨object, -, hrecord⟩ := hfid
    obtain ⟨hkey, hvalid, rfl⟩ := otp_recordFid_eq_ok.mp hrecord
    have hmem (slot : Fin 2) (hid : object.recordId.toNat =
        otpRecordFid slot object.objectType object.objectTag) :
        object.recordId.toNat ∈ otpRecordFids slot :=
      hid ▸ (@otpNumbering sha256 0).number_mem slot object.key hkey
    rw [otpRecordIdValid, Bool.or_eq_true, beq_iff_eq, beq_iff_eq] at hvalid
    rcases hvalid with hid | hid
    · exact absurd ((h 0).2 _ (hmem 0 hid)) hpresent
    · exact absurd ((h 1).2 _ (hmem 1 hid)) hpresent

/-- The container reads nothing if there is none yet. -/
def OtpReadsNothing (sha256 : Bytes → Bytes) (crypto : FileObjectContainerCrypto)
    (files : Files) : Prop :=
  ∀ (key : UInt16 × UInt16) (capacity : ℕ), fileObjectContainerRead (otpContainerLayout sha256) 0
    files key.1 key.2 crypto none capacity = .error .fileNotFound

/-- The container reads the objects of a bank, into buffers with room for them. -/
def OtpReads (sha256 : Bytes → Bytes) (crypto : FileObjectContainerCrypto) (bank : OtpBank)
    (files : Files) : Prop :=
  ∀ (key : UInt16 × UInt16) (capacity : ℕ),
    (∀ data, bank.objects key = some data → data.length ≤ capacity) →
    fileObjectContainerRead (otpContainerLayout sha256) 0 files key.1 key.2 crypto none capacity =
      readResult (bank.objects key)

theorem OtpBankIs.reads (h : OtpBankIs sha256 crypto bank files) :
    bank = .empty ∧ OtpReadsNothing sha256 crypto files ∨ OtpReads sha256 crypto bank files := by
  obtain ⟨contents, val, current, hat, hcurrent⟩ := h.holds
  rcases current with - | ⟨slot, manifest⟩
  · exact .inl ⟨hcurrent.1, fun key capacity ↦ hat.is.read_eq none rfl key nofun⟩
  · refine .inr fun key capacity hcap ↦ ?_
    have hdata : currentData (some (slot, manifest)) val key = bank.objects key := by
      rw [hat.data_eq, hcurrent.1]
    rw [← hdata] at hcap ⊢
    exact hat.is.read_eq none rfl key hcap

theorem OtpReadsNothing.activeSlotsRead (h : OtpReadsNothing sha256 crypto files) :
    otpActiveSlotsRead sha256 crypto files = .error .fileNotFound := by
  rw [otpActiveSlotsRead, h (otpObjectIndex, 0)]
  rfl

theorem OtpReads.activeSlotsRead (h : OtpReads sha256 crypto bank files) :
    otpActiveSlotsRead sha256 crypto files = .ok bank.active := by
  have hindex : ∀ data, bank.objects (otpObjectIndex, 0) = some data → data.length ≤ 1 := by
    rw [OtpBank.objects_index]
    rintro _ ⟨⟩
    exact le_rfl
  rw [otpActiveSlotsRead, h (otpObjectIndex, 0) 1 hindex, OtpBank.objects_index]
  rfl

variable {slot : UInt8}

theorem mem_otpSlots : slot ∈ otpSlots ↔ otpSlotValid slot = true := by
  have hlt : otpSlotValid slot = true ↔ slot.toNat < 4 := by
    rw [otpSlotValid, decide_eq_true_eq, UInt8.lt_iff_toNat_lt]
    rfl
  rw [hlt, otpSlots]
  simp only [mem_cons, not_mem_nil, or_false, ← UInt8.toNat_inj]
  have h1 : (1 : UInt8).toNat = 1 := rfl
  have h2 : (2 : UInt8).toNat = 2 := rfl
  have h3 : (3 : UInt8).toNat = 3 := rfl
  have h0 : (0 : UInt8).toNat = 0 := rfl
  omega

theorem OtpBankIs.hasSlotStatus (h : OtpBankIs sha256 crypto bank files) (hslot : slot ∈ otpSlots) :
    otpContainerHasSlotStatus sha256 crypto files slot = .ok (bank.isActive slot) := by
  simp only [otpContainerHasSlotStatus, mem_otpSlots.mp hslot]
  rcases h.reads with ⟨rfl, hnothing⟩ | hreads
  · rw [hnothing.activeSlotsRead]
    simp [OtpBank.isActive, OtpBank.empty]
  · rw [hreads.activeSlotsRead]
    rfl

/-- **A slot reads as what it shows.** -/
theorem OtpBankIs.readSlot (h : OtpBankIs sha256 crypto bank files) (hslot : slot ∈ otpSlots)
    {capacity : ℕ} (hcap : otpSlotPlainMax ≤ capacity) :
    otpContainerReadSlot sha256 crypto files slot capacity = readResult (bank.config slot) := by
  rw [otpContainerReadSlot, h.hasSlotStatus hslot, OtpBank.config]
  rcases hactive : bank.isActive slot with - | -
  · rfl
  · have hstored := h.ok.stored_of_active slot hslot hactive
    show fileObjectContainerRead (otpContainerLayout sha256) 0 files otpObjectSecret
      slot.toUInt16 crypto none capacity = _
    rcases h.reads with ⟨rfl, -⟩ | hreads
    · cases hstored
    · rw [hreads (otpObjectSecret, slot.toUInt16), OtpBank.objects_secret hslot, if_pos rfl]
      rw [OtpBank.objects_secret hslot]
      intro data hdata
      obtain ⟨content, hcontent, rfl⟩ := Option.map_eq_some_iff.mp hdata
      exact (h.ok.secret_le slot content hcontent).trans hcap

theorem OtpReads.bankLoadSlot (hreads : OtpReads sha256 crypto bank files) (hok : bank.Ok)
    (hslot : slot ∈ otpSlots) :
    otpBankLoadSlot sha256 crypto files bank.active slot = .ok (bank.slots slot) := by
  have hsecret := hreads (otpObjectSecret, slot.toUInt16) otpSecretMaxSize
    fun data hdata ↦ (hok.length_le hdata).trans (by decide)
  have hmetadata := hreads (otpObjectMetadata, slot.toUInt16) otpMetadataMaxSize
    fun data hdata ↦ hok.length_le hdata
  rw [OtpBank.objects_secret hslot] at hsecret
  rw [otpBankLoadSlot, otpContainerReadObject, hsecret]
  rcases hcontent : bank.slots slot with - | content
  · -- a slot that is not stored is not active
    have hinactive : ¬bank.isActive slot = true := by
      intro hactive
      have hstored := hok.stored_of_active slot hslot hactive
      rw [hcontent] at hstored
      cases hstored
    exact if_neg hinactive
  · rw [OtpBank.objects_metadata hslot hcontent] at hmetadata
    simp only [Option.map_some, readResult, otpContainerReadObject, hmetadata]

/-- **What the files hold is what is loaded.** -/
theorem OtpBankIs.bankLoad (h : OtpBankIs sha256 crypto bank files) :
    otpContainerBankLoad sha256 crypto files = .ok bank := by
  rcases h.reads with ⟨rfl, hnothing⟩ | hreads
  · rw [otpContainerBankLoad, hnothing.activeSlotsRead]
  · have hslot {slot : UInt8} (hmem : slot ∈ otpSlots) := hreads.bankLoadSlot h.ok hmem
    simp only [otpContainerBankLoad, hreads.activeSlotsRead, hslot (show 0 ∈ otpSlots by decide),
      hslot (show 1 ∈ otpSlots by decide), hslot (show 2 ∈ otpSlots by decide),
      hslot (show 3 ∈ otpSlots by decide), ok_bind, pure_eq_ok]
    refine congrArg (fun slots ↦ Except.ok (OtpBank.mk bank.active slots)) (funext fun slot ↦ ?_)
    by_cases hmem : slot ∈ otpSlots
    · simp only [otpSlots, mem_cons, not_mem_nil, or_false] at hmem
      rcases hmem with rfl | rfl | rfl | rfl <;> rfl
    · rw [h.ok.other slot hmem]
      simp only [otpSlots, mem_cons, not_mem_nil, or_false, not_or] at hmem
      simp only [hmem, if_false]

theorem OtpBankIs.storageAvailable (h : OtpBankIs sha256 crypto bank files) :
    otpContainerStorageAvailable files = true := by
  obtain ⟨contents, val, current, hat, hcurrent⟩ := h.holds
  rw [otpContainerStorageAvailable]
  rcases current with - | ⟨slot, manifest⟩
  · have hfree := hcurrent.2
    simp only [(hfree 0).1, (hfree 1).1, Option.isSome_none, Bool.false_and, Bool.or_self,
      Bool.false_eq_true, if_false]
    rw [all_eq_true]
    intro fid hfid
    rcases mem_append.mp hfid with hfid | hfid
    · rw [(hfree 0).2 fid hfid]
    · rw [(hfree 1).2 fid hfid]
  · have hfile : files (otpManifestFid slot) = some (manifest.bytes crypto.auth) :=
      (ContainerHolds.manifestFile hat.is).file
    have hother : files (otpManifestFid slot.rev) = none := hcurrent.2
    have hdata : fileHasData (some (manifest.bytes crypto.auth)) = true :=
      fileHasData_some.mpr (bytes_ne_nil manifest crypto.auth)
    have hslot : slot = 0 ∨ slot = 1 := by omega
    rcases hslot with rfl | rfl
    · rw [show Fin.rev 0 = (1 : Fin 2) from rfl] at hother
      simp [hfile, hother, hdata]
    · rw [show Fin.rev 1 = (0 : Fin 2) from rfl] at hother
      simp [hfile, hother, hdata]

/-- The layout accepts what is written for a key of the bank. -/
theorem otpWrite_valid : ∀ key ∈ otpKeys, ∀ data,
    otpLayoutWriteValid (otpWrite key.1 key.2 data) = true := by
  have hnil : ∀ key ∈ otpKeys, otpLayoutWriteValid (otpWrite key.1 key.2 []) = true := by decide
  exact fun key hkey _ ↦ hnil key hkey

/-- A bank that the files hold has three slots at the most: a manifest has no more objects. -/
theorem OtpBankIs.stored_le (h : OtpBankIs sha256 crypto bank files) : bank.stored ≤ 3 := by
  obtain ⟨contents, val, current, hat, hcurrent⟩ := h.holds
  rcases current with - | ⟨slot, manifest⟩
  · rw [hcurrent.1]
    decide
  · have hsubset : bank.writes.map (·.key) ⊆ manifest.objects.map (·.key) := by
      intro key hkey
      have hsome := OtpBank.objects_isSome.mpr hkey
      rw [← hcurrent.1, ← hat.data_eq, currentData] at hsome
      split_ifs at hsome with hmem
      · exact hmem
      · cases hsome
    have hle := (subperm_of_subset OtpBank.nodup_key_writes hsubset).length_le
    have hmax := hat.is.length_le
    rw [length_map, length_map, OtpBank.length_writes] at hle
    simp only [currentObjects, manifestMaxObjects] at hmax
    omega

/-- The files have a record of a slot's secret as long as the slot is stored. -/
theorem OtpBankIs.secret_absent (h : OtpBankIs sha256 crypto bank files) (hslot : slot ∈ otpSlots) :
    (∀ i, files (otpRecordFid i otpObjectSecret slot.toUInt16) = none) ↔
      ¬(bank.slots slot).isSome = true := by
  have hnumbering := @otpNumbering sha256 0
  have hkey : ∀ slot ∈ otpSlots, otpObjectIdentityValid otpObjectSecret slot.toUInt16 = true := by
    decide
  obtain ⟨contents, val, current, hat, hcurrent⟩ := h.holds
  rcases current with - | ⟨manifestSlot, manifest⟩
  · obtain ⟨rfl, hfree⟩ := hcurrent
    refine ⟨fun _ ↦ by simp [OtpBank.empty], fun _ i ↦ (hfree i).2 _ ?_⟩
    exact hnumbering.number_mem i (otpObjectSecret, slot.toUInt16) (hkey slot hslot)
  · have hstored : (bank.slots slot).isSome = true ↔
        (otpObjectSecret, slot.toUInt16) ∈ manifest.objects.map (·.key) := by
      rw [← Option.isSome_map (f := (·.secret)), ← OtpBank.objects_secret hslot, ← hcurrent.1,
        ← hat.data_eq, currentData, currentObjects]
      split_ifs with hmem <;> simp [hmem]
    rw [hstored, mem_map]
    constructor
    · rintro habsent ⟨object, hobject, hobjectKey⟩
      have hrecord := ContainerHolds.records hat.is object hobject
      obtain ⟨-, i, hnumber⟩ := hnumbering.recordId_of_allocated hrecord.allocated
      obtain ⟨-, fid, -, hfid, -⟩ := hrecord.stored
      rw [hobjectKey] at hnumber
      rw [hnumbering.recordFid object fid hrecord.valid hfid, hnumber] at hfid
      exact hrecord.present hfid (habsent i)
    · intro habsent i
      by_contra hpresent
      have hvalid := otpWrite_valid _ (@mem_otpKeys (otpObjectSecret, slot.toUInt16)
        (hkey slot hslot)) []
      -- a record that is there is named, and its number gives its key away
      obtain ⟨object, hobject, hfid⟩ := hat.noOrphans trivial _
        ⟨_, hnumbering.accepts i _ 1 trivial hvalid⟩ hpresent
      have hrecord := ContainerHolds.records hat.is object hobject
      obtain ⟨hobjectKey, i', hnumber⟩ := hnumbering.recordId_of_allocated hrecord.allocated
      rw [← hnumbering.recordFid object _ hrecord.valid hfid] at hnumber
      exact habsent ⟨object, hobject, hnumbering.number_inj i' i _
        (otpObjectSecret, slot.toUInt16) hobjectKey (hkey slot hslot) hnumber.symm⟩

/-! ### Writing a bank back -/

theorem otpWrite_fields : ∀ key ∈ otpKeys, ∀ data,
    ((otpWrite key.1 key.2 data).objectType == 0 ||
      (otpWrite key.1 key.2 data).objectType == 0xffff ||
      ((otpWrite key.1 key.2 data).flags &&& flagInline) != 0) = false := by
  have hnil : ∀ key ∈ otpKeys, ((otpWrite key.1 key.2 []).objectType == 0 ||
      (otpWrite key.1 key.2 []).objectType == 0xffff ||
      ((otpWrite key.1 key.2 []).flags &&& flagInline) != 0) = false := by decide
  exact fun key hkey _ ↦ hnil key hkey

theorem otpWrite_coreValid : ∀ key ∈ otpKeys, ∀ data, ∀ generation recordId, generation ≠ 0 →
    recordId ≠ 0 → ((otpWrite key.1 key.2 data).descriptor generation recordId).coreValid = true := by
  have hone : ∀ key ∈ otpKeys, ((otpWrite key.1 key.2 []).descriptor 1 1).coreValid = true := by
    decide
  intro key hkey data generation recordId hgeneration hrecordId
  have hkeyOne := hone key hkey
  simp only [FileObjectDescriptor.coreValid, FileObjectContainerWrite.descriptor, Bool.and_eq_true,
    bne_iff_ne] at hkeyOne ⊢
  obtain ⟨⟨⟨⟨⟨⟨⟨⟨htype, -⟩, -⟩, hlow⟩, hhigh⟩, hmask⟩, hinline⟩, hgroup⟩, hext⟩ := hkeyOne
  exact ⟨⟨⟨⟨⟨⟨⟨⟨htype, hgeneration⟩, hrecordId⟩, hlow⟩, hhigh⟩, hmask⟩, hinline⟩, hgroup⟩, hext⟩

namespace OtpBank

variable {write : FileObjectContainerWrite}

theorem mem_writes_key (h : write ∈ bank.writes) :
    ∃ key ∈ otpKeys, write = otpWrite key.1 key.2 write.data := by
  have htag : ∀ slot ∈ otpSlots, (otpObjectSecret, slot.toUInt16) ∈ otpKeys ∧
      (otpObjectMetadata, slot.toUInt16) ∈ otpKeys := by decide
  rcases mem_writes.mp h with ⟨slot, hslot, content, -, rfl | rfl⟩ | rfl
  · exact ⟨_, (htag slot hslot).1, rfl⟩
  · exact ⟨_, (htag slot hslot).2, rfl⟩
  · exact ⟨(otpObjectIndex, 0), by decide, rfl⟩

theorem Ok.data_le (h : bank.Ok) (hwrite : write ∈ bank.writes) :
    write.data.length ≤ otpMetadataMaxSize :=
  h.length_le (objects_of_mem hwrite)

end OtpBank

/-- The generations of a container's manifest or of one of its objects are used up. -/
def ContainerExhausted (layout : FileObjectContainerLayout) (containerId : UInt32)
    (crypto : FileObjectContainerCrypto) (files : Files) : Prop :=
  ∃ slot manifest, containerManifest layout containerId crypto none files = some (slot, manifest) ∧
    (manifest.generation = 0xffffffff ∨
      ∃ object ∈ manifest.objects, object.generation = 0xffffffff)

instance (layout : FileObjectContainerLayout) (containerId : UInt32)
    (crypto : FileObjectContainerCrypto) (files : Files) :
    Decidable (ContainerExhausted layout containerId crypto files) :=
  decidable_of_iff (∃ current ∈ containerManifest layout containerId crypto none files,
    current.2.generation = 0xffffffff ∨
      ∃ object ∈ current.2.objects, object.generation = 0xffffffff)
    ⟨fun ⟨current, h⟩ ↦ ⟨current.1, current.2, h⟩, fun ⟨slot, manifest, h⟩ ↦ ⟨(slot, manifest), h⟩⟩

/-- The writes of a bank of at most three slots are in order. -/
theorem OtpBankIs.updateOk {current : Option (Fin 2 × FileObjectManifest)}
    {val : UInt16 × UInt16 → Bytes}
    (his : ContainerIs (otpContainerLayout sha256) 0 crypto files val current)
    (hkeys : (currentObjects current).map (·.key) ⊆ bank'.writes.map (·.key)) (hok : bank'.Ok)
    (hroom : bank'.stored ≤ 3)
    (hgen : ¬ContainerExhausted (otpContainerLayout sha256) 0 crypto files) :
    UpdateOk (otpContainerLayout sha256) 0 crypto (fun _ ↦ True) (· = .ok) False (fun _ ↦ False)
      current files bank'.writes where
  each write hwrite := by
    obtain ⟨key, hkey, heq⟩ := OtpBank.mem_writes_key hwrite
    refine ⟨trivial, fun _ _ _ _ _ _ ↦ id, fun hvalid s ↦ ?_, fun r hr ↦ ?_, fun hlen ↦ ?_,
      fun generation recordId hg hid hcore ↦ ?_, fun hvalid ↦ ?_⟩
    · have hnumbering := @otpNumbering sha256 0
      rw [hnumbering.allocate _ _ _ (hnumbering.key_of_writeValid write hvalid)]
      exact wp_pure trivial
    · have hhash : otpPolicyHash sha256 write.policyId = .ok ((sha256 internalPolicy).take 16) := by
        rw [heq]
        exact internalPolicy_hash sha256
      rw [show otpPolicyHash sha256 write.policyId = .error r from hr] at hhash
      cases hhash
    · have hle := hok.data_le hwrite
      simp only [UINT32_MAX, recordHeaderSize, authTagSize, otpMetadataMaxSize] at hlen hle
      omega
    · rw [heq, otpWrite_coreValid key hkey _ _ _ hg hid] at hcore
      cases hcore
    · rw [heq] at hvalid
      exact absurd ((otpWrite_valid key hkey _).symm.trans hvalid) (by decide)
  batch := by
    refine ⟨fun write hwrite hfields ↦ ?_, fun h ↦ h OtpBank.nodup_key_writes,
      fun object hobject _ hmax ↦ ?_, fun hlong ↦ ?_⟩
    · obtain ⟨key, hkey, heq⟩ := OtpBank.mem_writes_key hwrite
      rw [heq, otpWrite_fields key hkey] at hfields
      cases hfields
    · rcases current with - | ⟨slot, manifest⟩
      · cases hobject
      · exact hgen ⟨slot, manifest, his.manifest_eq none rfl, .inr ⟨object, hobject, hmax⟩⟩
    · -- every object there is is written again
      have hsubset : ((currentObjects current).map (·.key) ++ bank'.writes.map (·.key)).dedup ⊆
          bank'.writes.map (·.key) := by
        intro key hkey
        rcases mem_append.mp (mem_dedup.mp hkey) with hkey | hkey
        · exact hkeys hkey
        · exact hkey
      have hle := (subperm_of_subset (nodup_dedup _) hsubset).length_le
      rw [length_map, OtpBank.length_writes] at hle
      simp only [manifestMaxObjects] at hlong
      omega
  count h := by
    rcases h with hnil | hlong
    · have hlen := @OtpBank.length_writes bank'
      rw [hnil] at hlen
      cases hlen
    · rw [OtpBank.length_writes] at hlong
      simp only [manifestMaxObjects] at hlong
      omega
  exhausted h := by
    rcases current with - | ⟨slot, manifest⟩
    · exact absurd h (by decide)
    · exact hgen ⟨slot, manifest, his.manifest_eq none rfl, .inl h⟩

/-- The clean-up of an undisturbed update deletes the other manifest, and every record that is not
named. -/
theorem otp_cleanupOk : CleanupOk (otpContainerLayout sha256) 0 (· = .ok) False
    fun candidates next targetSlot s s' ↦
      RetiresUnreferenced (otpContainerLayout sha256) 0 candidates next s s' ∧
        s'.files (otpManifestFid targetSlot.rev) = none where
  activate _ := wp_pure trivial
  retire candidates next currentSlot targetSlot s hcandidates := by
    have hswept := wp_sweep (· = .ok) (retireFids otpManifestFid otpRecordFids next targetSlot) s
    refine wp_mono (wp_and (otpLayoutSweeps candidates next currentSlot targetSlot s hcandidates)
      hswept) ?_ ?_
    · rintro - s' ⟨hretires, hswept⟩
      exact ⟨hretires, hswept.gone (by decide) _ (mem_retireFids.mpr (.inl rfl))⟩
    · rintro e s' ⟨-, -, -, hcut⟩
      cases hcut

/-- **Writing back a bank** of at most three slots makes it the one the files hold. -/
theorem OtpBankIs.wp_update {s : FsState TxnRam} (h : OtpBankIs sha256 crypto bank s.files)
    (hgrows : bank.Grows bank') (hok : bank'.Ok) (hroom : bank'.stored ≤ 3)
    (hgen : ¬ContainerExhausted (otpContainerLayout sha256) 0 crypto s.files) :
    wp (· = .ok) (fileObjectContainerUpdateWithoutRecordValidation (otpContainerLayout sha256) 0
        bank'.writes crypto none)
      (fun _ s' ↦ OtpBankIs sha256 crypto bank' s'.files) (fun _ _ ↦ False) s := by
  obtain ⟨contents, val, current, hat, hcurrent⟩ := h.holds
  have hobjects : ∀ key, (contents.objects key).isSome → key ∈ bank'.writes.map (·.key) := by
    intro key hkey
    rcases current with - | ⟨slot, manifest⟩
    · rw [← hat.data_eq] at hkey
      cases hkey
    · rw [hcurrent.1] at hkey
      exact hgrows.keys_subset (OtpBank.objects_isSome.mp hkey)
  have hkeys : (currentObjects current).map (·.key) ⊆ bank'.writes.map (·.key) := by
    intro key hkey
    refine hobjects key ?_
    rw [← hat.data_eq, currentData, if_pos hkey]
    rfl
  have hupdate := @wp_fileObjectContainerUpdateInternal _ _ crypto none _ otpLayoutSpec (· = .ok)
    False (fun _ ↦ False) current val s _ bank'.writes (fun _ ↦ False.elim) hat.is
    (OtpBankIs.updateOk hat.is hkeys hok hroom hgen) otp_cleanupOk false
  refine wp_mono hupdate ?_ ?_
  · rintro - s' ⟨next, hupdated, candidates, s₁, hbefore, hretires, hother⟩
    have hcommitted : CallCommitted (otpContainerLayout sha256) 0 crypto current val
        (.update bank'.writes false) s'.files (valAfter val bank'.writes) next :=
      hupdated.callCommitted
    refine ⟨hok, _, _, _, hat.call otpLayoutSpec hcommitted hbefore fun _ ↦ hretires, ?_, hother⟩
    exact funext (OtpBank.Grows.effect hobjects)
  · rintro e s' ⟨-, h | h | h | h⟩ <;> cases h

end Files

end PicoAll
