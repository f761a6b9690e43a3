import PicoAll.Fido.ResidentStatusCalls

/-!
# What the operations do to a slot

A credential that is revoked, or whose expiry is recorded, is not usable (`ResidentBarred`), and what
an operation does to its slot keeps it so: the status is not changed any more, and the slot is not
given to another credential. What an operation keeps of one slot is a `SlotLaw`; to the files of
another slot no operation comes.

No file has metadata here, and no operation takes effect and reports an error all the same.
-/

namespace PicoAll

open FaultProgram BigEndian

/-! ### What the state says -/

/-- The state has the size of one. -/
def StateSound (state : Option Bytes) : Prop :=
  ∀ data, state = some data → data.length = residentMetadataSize

/-- The state of a credential that is no longer active. -/
def StateBarred (state : Option Bytes) : Prop :=
  ∃ data, state = some data ∧ data.length = residentMetadataSize ∧
    (residentMetadataDecode data).status ≠ residentStatusActive

theorem StateBarred.sound {state : Option Bytes} (h : StateBarred state) : StateSound state := by
  rintro data rfl
  obtain ⟨data', heq, hlength, -⟩ := h
  cases heq
  exact hlength

theorem residentMetadataEncode_length (metadata : FidoResidentMetadata) :
    (residentMetadataEncode metadata).length = residentMetadataSize := by
  simp [residentMetadataEncode]

theorem residentMetadataDecode_encode (metadata : FidoResidentMetadata) :
    residentMetadataDecode (residentMetadataEncode metadata) = metadata := by
  have hfield : beField (residentMetadataEncode metadata) 2 4 = metadata.expiration.toNat := by
    have happend : residentMetadataEncode metadata =
        [metadata.status, metadata.properties] ++ (beBytes 4 metadata.expiration.toNat ++ []) := by
      rw [List.append_nil, residentMetadataEncode]
    exact beField_append rfl metadata.expiration.toNat_lt
  rw [residentMetadataDecode, hfield, UInt32.ofNat_toNat]
  rfl

section Read

variable {sha256 : Bytes → Bytes} {crypto : FileObjectContainerCrypto}
  {primary legacy : Option FileObjectContainerCrypto} {slot : UInt8} {files : Files}

/-- A container reads its objects, into a buffer with room for them. -/
theorem ResidentLinked.read {val : UInt16 × UInt16 → Bytes}
    {current : Option (Fin 2 × FileObjectManifest)}
    (h : ResidentLinked sha256 crypto slot files val current) {objectType : UInt16}
    (htype : residentObjectTypeValid objectType = true) {capacity : ℕ}
    (hcap : ∀ data, currentData current val (objectType, 0) = some data → data.length ≤ capacity) :
    residentContainerRead sha256 (some crypto) legacy slot files objectType capacity =
      readResult (currentData current val (objectType, 0)) := by
  rw [residentContainerRead, htype]
  exact h.is.read_eq legacy (residentLayoutSpec slot).valid (objectType, 0) hcap

theorem residentContainerRead_dead
    (h : ContainerDead (residentContainerLayout sha256) slot.toUInt32 crypto files)
    {objectType : UInt16} (htype : residentObjectTypeValid objectType = true) (capacity : ℕ) :
    residentContainerRead sha256 (some crypto) legacy slot files objectType capacity =
      .error .wrongData := by
  rw [residentContainerRead, htype]
  exact h.read (residentLayoutSpec slot).valid legacy objectType 0 capacity

/-- What `resident_container_read_metadata` makes of a state. -/
def stateMetadata (state : Option Bytes) : Except Status FidoResidentMetadata :=
  match state with
  | none => .ok ⟨residentStatusActive, residentPropertyNative, 0⟩
  | some data =>
    if residentMetadataValid (residentMetadataDecode data) then .ok (residentMetadataDecode data)
    else .error .wrongData

variable (legacy) in
/-- **The metadata are those of the state**, or cannot be read. -/
theorem SlotHolds.readMetadata {P : Option Bytes → Prop} (hkeys : KeysAre crypto primary)
    (h : SlotHolds sha256 crypto slot P files) (hP : ∀ state, P state → StateSound state) :
    (residentContainerReadMetadata sha256 primary legacy slot files = .error .execError ∨
      residentContainerReadMetadata sha256 primary legacy slot files = .error .wrongData) ∨
    ∃ val current, ResidentLinked sha256 crypto slot files val current ∧
      P (currentData current val residentStateKey) ∧
      residentContainerReadMetadata sha256 primary legacy slot files =
        stateMetadata (currentData current val residentStateKey) := by
  have htype : residentObjectTypeValid residentObjectState = true := by decide
  rcases hkeys with rfl | rfl
  · refine .inl (.inl ?_)
    rfl
  rcases h with hdead | ⟨val, current, hlinked, hstate⟩
  · refine .inl (.inr ?_)
    rw [residentContainerReadMetadata, residentContainerRead_dead hdead htype]
  · refine .inr ⟨val, current, hlinked, hstate, ?_⟩
    have hsound := hP _ hstate
    rw [residentContainerReadMetadata, hlinked.read htype fun data hdata ↦ (hsound data hdata).le]
    rcases hdata : currentData current val residentStateKey with - | data
    · rfl
    · simp [readResult, stateMetadata, hsound data hdata]

variable (legacy) in
/-- The metadata of a credential that is no longer active. -/
theorem SlotHolds.readMetadata_barred (hkeys : KeysAre crypto primary)
    (h : SlotHolds sha256 crypto slot StateBarred files) :
    (∃ r, residentContainerReadMetadata sha256 primary legacy slot files = .error r ∧
      r ≠ .fileNotFound) ∨
    ∃ metadata, residentContainerReadMetadata sha256 primary legacy slot files = .ok metadata ∧
      (metadata.status = residentStatusExpired ∨ metadata.status = residentStatusRevoked) := by
  obtain (herror | herror) | ⟨val, current, hlinked, ⟨data, hdata, hlength, hstatus⟩, hmetadata⟩ :=
    h.readMetadata legacy hkeys fun _ hstate ↦ hstate.sound
  · exact .inl ⟨_, herror, by decide⟩
  · exact .inl ⟨_, herror, by decide⟩
  rw [hmetadata, hdata, stateMetadata]
  by_cases hvalid : residentMetadataValid (residentMetadataDecode data) = true
  · refine .inr ⟨_, if_pos hvalid, ?_⟩
    rw [residentMetadataValid, decide_eq_true_eq, UInt8.le_iff_toNat_le] at hvalid
    rw [ne_eq, ← UInt8.toNat_inj] at hstatus
    rw [← UInt8.toNat_inj, ← UInt8.toNat_inj]
    have hexpired : residentStatusExpired.toNat = 1 := rfl
    have hrevoked : residentStatusRevoked.toNat = 2 := rfl
    have hactive : residentStatusActive.toNat = 0 := rfl
    omega
  · exact .inl ⟨_, if_neg hvalid, by decide⟩

end Read

/-! ### A credential that is not usable -/

/-- What an operation goes by fits the slot. -/
structure ContextFits (sha256 : Bytes → Bytes) (crypto : FileObjectContainerCrypto)
    (C : CredentialContext) : Prop where
  sha256_eq : C.sha256 = sha256
  keys : KeysAre crypto C.primary

/-- **The credential of the slot is not usable**: there is one, and it is not active, or lost. -/
structure ResidentBarred (sha256 : Bytes → Bytes) (crypto : FileObjectContainerCrypto) (slot : UInt8)
    (files : Files) : Prop where
  marker : residentContainerIsMarker slot (residentEntry files slot) = true
  state : SlotHolds sha256 crypto slot StateBarred files

namespace ResidentBarred

variable {sha256 : Bytes → Bytes} {crypto : FileObjectContainerCrypto} {C : CredentialContext}
  {slot : UInt8} {files : Files} {rpIdHash : Vector UInt8 32}

section

variable (h : ResidentBarred sha256 crypto slot files)
include h

theorem hasData : fileHasData (residentEntry files slot) = true :=
  fileHasData_marker h.marker

section

variable (hC : ContextFits sha256 crypto C)
include hC

/-- **It is not usable.** -/
theorem usable :
    credentialResidentUsable C files slot = false := by
  rw [credentialResidentUsable, credentialResidentReadMetadata, h.hasData, h.marker, hC.sha256_eq]
  rcases h.state.readMetadata_barred C.legacy hC.keys with
    ⟨r, herror, -⟩ | ⟨metadata, hread, hstatus⟩
  · simp [herror]
  · have hne : metadata.status ≠ residentStatusActive := by
      rcases hstatus with hstatus | hstatus <;> rw [hstatus] <;> decide
    simp only [Bool.not_true, Bool.false_eq_true, if_false, hread, ok_bind, hne, false_and,
      pure_eq_ok]
    rcases hstatus with hstatus | hstatus <;> simp [hstatus]

/-- **It does not load.** -/
theorem loadResident :
    credentialLoadResident C files slot rpIdHash = .error .noCredentials := by
  simp [credentialLoadResident, h.hasData, h.marker, h.usable hC]

/-- **It is not verified.** -/
theorem verify (silent : Bool) :
    credentialResidentVerify C files slot rpIdHash silent = .error .noCredentials := by
  simp [credentialResidentVerify, h.hasData, h.marker, h.usable hC]

theorem assertionCredential : assertionCredential C files rpIdHash slot = none := by
  rw [PicoAll.assertionCredential, h.loadResident hC]

end

end

section

variable (h : ResidentBarred sha256 crypto slot files)
include h

section

variable (hC : ContextFits sha256 crypto C)
include hC

end

end

end ResidentBarred

/-! ### What an operation does to a slot -/

/-- From `s` the program keeps `I`, wherever it stops. -/
def StaysIn {α : Type} (A : Outcome → Prop) (I : Files → Prop) (m : FsProg TxnRam α)
    (s : FsState TxnRam) : Prop :=
  wp A m (fun _ s' ↦ I s'.files) (fun _ s' ↦ I s'.files) s

/-- The slot may be given to another credential: it is free, or its credential loads. -/
def Replaceable (C : CredentialContext) (files : Files) (slot : UInt8) : Prop :=
  fileHasData (residentEntry files slot) = false ∨
    ∃ rpIdHash cred, credentialLoadResident C files slot rpIdHash = .ok cred

/-- **A law of a slot**: it is about the files of the slot, and what an operation does to the slot
keeps it. -/
structure SlotLaw (sha256 : Bytes → Bytes) (crypto : FileObjectContainerCrypto) (slot : UInt8)
    (A : Outcome → Prop) (I : Files → Prop) : Prop where
  congr : ∀ {files files'}, (∀ fid ∈ residentFids slot, files' fid = files fid) → I files → I files'
  create : ∀ {C s} c, ContextFits sha256 crypto C → Replaceable C s.files slot → I s.files →
    StaysIn A I (residentContainerCreate C.sha256 C.primary C.legacy slot c) s
  createImported : ∀ {C s} c privateKey metadata, ContextFits sha256 crypto C →
    Replaceable C s.files slot → I s.files → StaysIn A I
      (residentContainerCreateImported C.sha256 C.primary C.legacy slot c privateKey metadata) s
  updateMetadata : ∀ {C s} metadata, ContextFits sha256 crypto C → I s.files →
    StaysIn A I (residentContainerUpdateMetadata C.sha256 C.primary C.legacy slot metadata) s
  updateCredential : ∀ {C s} credential, ContextFits sha256 crypto C → I s.files →
    StaysIn A I (residentContainerUpdateCredential C.sha256 C.primary C.legacy slot credential) s
  record : ∀ {s} {m : FsProg TxnRam Unit},
    residentContainerIsMarker slot (residentEntry s.files slot) = false →
    Confined (· = residentMarkerFid slot) m → I s.files → StaysIn A I m s

section Confined

variable {C : CredentialContext} {slot : UInt8}

theorem residentContainerCreate_confined (c : ResidentCredential) :
    Confined (· ∈ residentFids slot)
      (residentContainerCreate C.sha256 C.primary C.legacy slot c) := by
  exact .ite (.fail _) (residentContainerUpdate_confined _)

theorem residentContainerCreateImported_confined (c : ResidentCredential)
    (privateKey metadata : Bytes) :
    Confined (· ∈ residentFids slot) (residentContainerCreateImported C.sha256 C.primary C.legacy slot
      c privateKey metadata) := by
  exact .ite (.fail _) (residentContainerUpdate_confined _)

theorem residentContainerUpdateMetadata_confined (metadata : FidoResidentMetadata) :
    Confined (· ∈ residentFids slot)
      (residentContainerUpdateMetadata C.sha256 C.primary C.legacy slot metadata) := by
  exact .ite (.fail _) (.bind .getState fun _ ↦ .bind (.liftExcept _) fun _ ↦
    residentContainerUpdate_confined _)

theorem residentContainerUpdateCredential_confined (credential : Bytes) :
    Confined (· ∈ residentFids slot)
      (residentContainerUpdateCredential C.sha256 C.primary C.legacy slot credential) := by
  exact .ite (.fail _) (residentContainerUpdate_confined _)

theorem confined_marker {m : FsProg TxnRam Unit} (hm : Confined (· = residentMarkerFid slot) m) :
    Confined (· ∈ residentFids slot) m := by
  have hmarker (fid : ℕ) (hfid : fid ∉ residentFids slot) : ¬fid = residentMarkerFid slot := by
    rintro rfl
    exact hfid marker_mem_residentFids
  exact fun A s ↦ wp_mono (hm A s) (fun _ _ h fid hfid ↦ h fid (hmarker fid hfid))
    fun _ _ h fid hfid ↦ h fid (hmarker fid hfid)

theorem credentialResidentDelete_confined :
    Confined (· ∈ residentFids slot) (credentialResidentDelete C slot) := by
  refine .bind (.fileSearch _) fun _ ↦ .ite (.fail _) (.ite residentContainerDelete_confined ?_)
  exact .perform marker_mem_residentFids _

end Confined

/-- A new credential goes to a slot that is free, or whose credential loads; it becomes a container
in a free slot and in that of a container. -/
theorem credentialStoreSlot_eq_some {C : CredentialContext} {files : Files} {userId : Bytes}
    {rpIdHash : Vector UInt8 32} {slot : UInt8} {useContainer : Bool} {slots : List UInt8} :
    ∀ {free : Option UInt8}, (∀ slot ∈ free, fileHasData (residentEntry files slot) = false) →
    credentialStoreSlot C files userId rpIdHash slots free = some (slot, useContainer) →
    Replaceable C files slot ∧
      (useContainer = false → residentContainerIsMarker slot (residentEntry files slot) = false) := by
  induction slots with
  | nil =>
    rintro (- | free) hfree h
    · cases h
    · cases h
      exact ⟨.inl (hfree _ rfl), fun h ↦ by cases h⟩
  | cons candidate slots ih =>
    intro free hfree h
    rw [credentialStoreSlot] at h
    by_cases hdata : fileHasData (residentEntry files candidate) = false
    · rw [hdata, Bool.not_false, if_pos rfl] at h
      refine ih (fun slot' hslot' ↦ ?_) h
      split_ifs at hslot'
      · cases hslot'
        exact hdata
      · exact hfree slot' hslot'
    rw [Bool.not_eq_false] at hdata
    rw [hdata, Bool.not_true, if_neg Bool.false_ne_true] at h
    by_cases hmatches : credentialResidentMatchesRp C files candidate rpIdHash = false
    · rw [hmatches, Bool.not_false, if_pos rfl] at h
      exact ih hfree h
    rw [Bool.not_eq_false] at hmatches
    rw [hmatches, Bool.not_true, if_neg Bool.false_ne_true] at h
    rcases hload : credentialLoadResident C files candidate rpIdHash with e | rcred
    · rw [hload] at h
      exact ih hfree h
    · simp only [hload] at h
      split_ifs at h
      · cases h
        exact ⟨.inr ⟨rpIdHash, rcred, hload⟩, id⟩
      · exact ih hfree h

namespace SlotLaw

variable {sha256 : Bytes → Bytes} {crypto : FileObjectContainerCrypto} {C : CredentialContext}
  {slot slot' : UInt8} {A : Outcome → Prop} {I : Files → Prop} {s : FsState TxnRam} {α β : Type}
  {m : FsProg TxnRam α} {f : α → FsProg TxnRam β}

theorem StaysIn.bind (hm : StaysIn A I m s) (hf : ∀ a s', I s'.files → StaysIn A I (f a) s') :
    StaysIn A I (m >>= f) s :=
  wp_then hm fun a s' hs' ↦ hf a s' hs'

theorem StaysIn.bind_assoc {γ : Type} {g : β → FsProg TxnRam γ} (h : StaysIn A I (m >>= f >>= g) s) :
    StaysIn A I (m >>= fun a ↦ f a >>= g) s := by
  rwa [← LawfulMonad.bind_assoc]

theorem StaysIn.pure {a : α} (hI : I s.files) : StaysIn A I (Pure.pure a) s :=
  wp_pure hI

section

variable (h : SlotLaw sha256 crypto slot A I)
include h

/-- What is confined to another slot keeps the law. -/
theorem onSlot (hI : I s.files) {m : FsProg TxnRam Unit} (hm : Confined (· ∈ residentFids slot') m)
    (hself : slot' = slot → StaysIn A I m s) : StaysIn A I m s := by
  by_cases heq : slot' = slot
  · exact hself heq
  · have hkept {s' : FsState TxnRam} (hs' : ∀ fid, fid ∉ residentFids slot' →
        s'.files fid = s.files fid) : I s'.files :=
      h.congr (fun fid hfid ↦ hs' fid (residentFids_disjoint (Ne.symm heq) hfid)) hI
    exact wp_mono (hm A s) (fun _ _ hs' ↦ hkept hs') fun _ _ hs' ↦ hkept hs'

section

variable (hC : ContextFits sha256 crypto C)
include hC

theorem store (hI : I s.files) (credId : Bytes) (rpIdHash : Vector UInt8 32) (publicKey : Bytes) :
    StaysIn A I (credentialStore C credId rpIdHash publicKey) s := by
  refine wp_get ?_
  rcases hload : C.codec.credentialLoad credId rpIdHash with e | cred
  · exact StaysIn.pure hI
  rcases hfound : credentialStoreSlot C s.files (cred.userId.getD []) rpIdHash residentSlots none with
    - | ⟨slot', useContainer⟩
  · simp only [hfound]
    exact StaysIn.pure hI
  obtain ⟨hreplaceable, hrecord⟩ := credentialStoreSlot_eq_some (by simp) hfound
  simp only [hfound]
  rcases C.codec.credentialDeriveResident credId with e | residentId
  · exact StaysIn.pure hI
  refine wp_ite (fun _ ↦ ?_) fun hcontainer ↦ ?_
  · rcases residentClientRecord C residentId rpIdHash with e | clientRecord
    · exact StaysIn.pure hI
    · refine StaysIn.bind (h.onSlot hI (residentContainerCreate_confined _) ?_) fun _ _ hs' ↦
        StaysIn.pure hs'
      rintro rfl
      exact h.create _ hC hreplaceable hI
  · have hput {data : Bytes} : Confined (· = residentMarkerFid slot') (do
        fileNew (residentMarkerFid slot')
        filePutData (residentMarkerFid slot') data : FsProg TxnRam Unit) :=
      .bind (.fileNew rfl) fun _ ↦ .perform (F := (· = residentMarkerFid slot')) rfl _
    refine StaysIn.bind_assoc (StaysIn.bind (h.onSlot hI (confined_marker hput) ?_) fun _ _ hs' ↦
      StaysIn.pure hs')
    rintro rfl
    exact h.record (hrecord (by simpa using hcontainer)) hput hI

theorem importRecord (hI : I s.files) (record : CredentialImportRecord) :
    StaysIn A I (credentialImport C record) s := by
  refine wp_get ?_
  rcases C.codec.credentialImportCheck record with e | imported
  · exact StaysIn.pure hI
  rcases hfound : residentSlots.find? fun slot ↦ !fileHasData (residentEntry s.files slot) &&
      residentContainerCanCreate C.sha256 C.primary C.legacy slot s.files with - | slot'
  · simp only [hfound]
    exact StaysIn.pure hI
  simp only [hfound]
  have hfree := List.find?_some hfound
  rw [Bool.and_eq_true, Bool.not_eq_true'] at hfree
  refine StaysIn.bind (h.onSlot hI (residentContainerCreateImported_confined _ _ _) ?_)
    fun _ _ hs' ↦ StaysIn.pure hs'
  rintro rfl
  exact h.createImported _ _ _ hC (.inl hfree.1) hI

theorem updateMetadata' (hI : I s.files) (slot' : UInt8) (metadata : FidoResidentMetadata) :
    StaysIn A I (credentialResidentUpdateMetadata C slot' metadata) s := by
  refine wp_bind (wp_fileSearch (wp_refuse hI fun _ ↦ wp_ite (fun _ ↦ ?_) fun _ ↦
    wp_fail hI))
  refine h.onSlot hI (residentContainerUpdateMetadata_confined _) ?_
  rintro rfl
  exact h.updateMetadata _ hC hI

theorem configUpdateMetadata (hI : I s.files) (slot' : UInt8) (metadata : FidoResidentMetadata) :
    StaysIn A I (PicoAll.configUpdateMetadata C slot' metadata) s := by
  refine wp_onError (wp_mono (StaysIn.bind (h.updateMetadata' hC hI slot' metadata) fun _ _ hs' ↦
    StaysIn.pure hs') (fun _ _ hs' ↦ hs') fun e s' hs' ↦ ?_)
  rcases e with r | -
  · exact wp_pure hs'
  · exact hs'

theorem update (hI : I s.files) (slot' : UInt8) (credential : Bytes) :
    StaysIn A I (credentialResidentUpdate C slot' credential) s := by
  refine wp_bind (wp_fileSearch (wp_return hI fun _ ↦ wp_ite (fun _ ↦ ?_)
    fun hmarker ↦ wp_return hI fun _ ↦ ?_))
  · refine StaysIn.bind (h.onSlot hI (residentContainerUpdateCredential_confined _) ?_)
      fun _ _ hs' ↦ StaysIn.pure hs'
    rintro rfl
    exact h.updateCredential _ hC hI
  · split
    · exact wp_pure hI
    · have hput {data : Bytes} : Confined (· = residentMarkerFid slot')
          (filePutData (residentMarkerFid slot') data : FsProg TxnRam Unit) :=
        .perform (F := (· = residentMarkerFid slot')) rfl _
      refine StaysIn.bind (h.onSlot hI (confined_marker hput) ?_) fun _ _ hs' ↦ StaysIn.pure hs'
      rintro rfl
      rw [Bool.not_eq_true] at hmarker
      exact h.record hmarker hput hI

/-- **Every operation but the deletion of the slot keeps a law of the slot.** -/
theorem run (hI : I s.files) {operation : ResidentOperation} (hne : operation ≠ .delete slot) :
    StaysIn A I (operation.run C) s := by
  cases operation with
  | store credId rpIdHash publicKey => exact h.store hC hI credId rpIdHash publicKey
  | importRecord record => exact h.importRecord hC hI record
  | updateMetadata slot' metadata =>
    exact StaysIn.bind (h.updateMetadata' hC hI slot' metadata) fun _ _ hs' ↦ StaysIn.pure hs'
  | update slot' credential => exact h.update hC hI slot' credential
  | revoke target =>
    refine wp_get ?_
    rcases hfound : configResidentCredential C s.files target with - | slot'
    · simp only [hfound]
      exact StaysIn.pure hI
    rcases hread : credentialResidentReadMetadata C s.files slot' with r | metadata
    · simp only [hfound, hread]
      exact StaysIn.pure hI
    · simp only [hfound, hread]
      exact h.configUpdateMetadata hC hI _ _
  | expire target timestamp =>
    refine wp_get (wp_return hI fun _ ↦ ?_)
    rcases hfound : configResidentCredential C s.files target with - | slot'
    · simp only
      exact StaysIn.pure hI
    rcases hread : credentialResidentReadMetadata C s.files slot' with r | metadata
    · simp only [hread]
      exact StaysIn.pure hI
    · simp only [hread]
      exact wp_return hI fun _ ↦ h.configUpdateMetadata hC hI _ _
  | button target button =>
    refine wp_get ?_
    rcases hfound : configResidentCredential C s.files target with - | slot'
    · simp only [hfound]
      exact StaysIn.pure hI
    rcases hread : credentialResidentReadMetadata C s.files slot' with r | metadata
    · simp only [hfound, hread]
      exact StaysIn.pure hI
    · simp only [hfound, hread]
      exact h.configUpdateMetadata hC hI _ _
  | delete slot' =>
    refine StaysIn.bind (h.onSlot hI credentialResidentDelete_confined ?_) fun _ _ hs' ↦
      StaysIn.pure hs'
    rintro rfl
    exact absurd rfl hne

end

end

end SlotLaw

/-! ### The laws -/

section Laws

variable {sha256 : Bytes → Bytes} {crypto : FileObjectContainerCrypto} {C : CredentialContext}
  {slot : UInt8} {A : Outcome → Prop} {s : FsState TxnRam} {P : Option Bytes → Prop}

/-- What is known of a slot is about its files. -/
theorem SlotHolds.congr_fids {files files' : Files}
    (hsame : ∀ fid ∈ residentFids slot, files' fid = files fid)
    (h : SlotHolds sha256 crypto slot P files) : SlotHolds sha256 crypto slot P files' :=
  h.congr fun fid hfid ↦ hsame fid (containerFid_mem_residentFids hfid)

variable {writes : List FileObjectContainerWrite}

theorem SlotHolds.staysIn (hlate : ¬A .late) (hC : ContextFits sha256 crypto C)
    (h : SlotHolds sha256 crypto slot P s.files)
    (hwrites : ∀ state, P state → P (stateAfter writes state)) :
    StaysIn A (SlotHolds sha256 crypto slot P)
      (residentContainerUpdate C.sha256 C.primary C.legacy slot writes) s := by
  rw [hC.sha256_eq]
  exact wp_mono (wp_residentContainerUpdate_holds hC.keys h hwrites) (fun _ _ h ↦ h) fun _ _ h ↦ h hlate

theorem StateSound.of_length {data : Bytes} (h : data.length = residentMetadataSize) :
    StateSound (some data) := by
  rintro data' ⟨⟩
  exact h

/-- **The state of a slot has the size of one.** -/
theorem slotLaw_sound (hlate : ¬A .late) :
    SlotLaw sha256 crypto slot A (SlotHolds sha256 crypto slot StateSound) where
  congr := SlotHolds.congr_fids
  create c hC _ h := by
    refine wp_refuse h fun _ ↦ h.staysIn hlate hC fun _ _ ↦ ?_
    exact StateSound.of_length rfl
  createImported c privateKey metadata hC _ h := by
    refine wp_refuse h fun _ ↦ h.staysIn hlate hC fun _ _ ↦ ?_
    exact StateSound.of_length rfl
  updateMetadata metadata hC h := by
    refine wp_refuse h fun _ ↦ wp_get (wp_bind (wp_liftExcept
      (fun _ _ ↦ h.staysIn hlate hC fun _ _ ↦ ?_) fun _ _ ↦ h))
    exact StateSound.of_length (residentMetadataEncode_length metadata)
  updateCredential credential hC h :=
    wp_refuse h fun _ ↦ h.staysIn hlate hC fun _ hstate ↦ hstate
  record _ hm h := by
    have hkept {s s' : FsState TxnRam} (h : SlotHolds sha256 crypto slot StateSound s.files)
        (hs' : ∀ fid, ¬fid = residentMarkerFid slot → s'.files fid = s.files fid) :
        SlotHolds sha256 crypto slot StateSound s'.files := by
      refine h.congr fun fid hfid ↦ hs' fid ?_
      rintro rfl
      exact marker_not_containerFid hfid
    exact wp_mono (hm A _) (fun _ _ hs' ↦ hkept h hs') fun _ _ hs' ↦ hkept h hs'

/-- A credential that is not usable is not replaced. -/
theorem ResidentBarred.not_replaceable (h : ResidentBarred sha256 crypto slot s.files)
    (hC : ContextFits sha256 crypto C) : ¬Replaceable C s.files slot := by
  rintro (hfree | ⟨rpIdHash, cred, hload⟩)
  · rw [h.hasData] at hfree
    cases hfree
  · rw [h.loadResident hC] at hload
    cases hload

theorem ResidentBarred.staysIn (hlate : ¬A .late) (hC : ContextFits sha256 crypto C)
    (h : ResidentBarred sha256 crypto slot s.files)
    (hwrites : ∀ state, StateBarred state → StateBarred (stateAfter writes state)) :
    StaysIn A (ResidentBarred sha256 crypto slot)
      (residentContainerUpdate C.sha256 C.primary C.legacy slot writes) s := by
  have hkept {s' : FsState TxnRam}
      (hs' : residentEntry s'.files slot = residentEntry s.files slot ∧
        SlotHolds sha256 crypto slot StateBarred s'.files) :
      ResidentBarred sha256 crypto slot s'.files := ⟨hs'.1 ▸ h.marker, hs'.2⟩
  exact wp_mono (wp_and (wp_residentContainerUpdate_marker h.marker writes)
    (h.state.staysIn hlate hC hwrites)) (fun _ _ hs' ↦ hkept hs') fun _ _ hs' ↦ hkept hs'

/-- **A credential that is not usable stays so.** Its status is not changed any more. -/
theorem slotLaw_barred (hlate : ¬A .late) :
    SlotLaw sha256 crypto slot A (ResidentBarred sha256 crypto slot) where
  congr hsame h := by
    refine ⟨?_, h.state.congr_fids hsame⟩
    rw [residentEntry, hsame _ marker_mem_residentFids]
    exact h.marker
  create _ hC hreplaceable h := absurd hreplaceable (h.not_replaceable hC)
  createImported _ _ _ hC hreplaceable h := absurd hreplaceable (h.not_replaceable hC)
  updateMetadata metadata hC h := by
    refine wp_refuse h fun _ ↦ wp_get (wp_bind (wp_liftExcept
      (fun _ hcheck ↦ h.staysIn hlate hC fun _ _ ↦ ?_) fun _ _ ↦ h))
    refine ⟨_, rfl, residentMetadataEncode_length metadata, ?_⟩
    show (residentMetadataDecode (residentMetadataEncode metadata)).status ≠ _
    rw [residentMetadataDecode_encode]
    rw [hC.sha256_eq] at hcheck
    rcases h.state.readMetadata_barred _ hC.keys with
      ⟨r, hread, hr⟩ | ⟨current, hread, hstatus⟩
    · rw [hread, residentStatusCheck] at hcheck
      · cases hcheck
      · exact hr
    · have hne : current.status ≠ residentStatusActive := by
        rcases hstatus with hstatus | hstatus <;> rw [hstatus] <;> decide
      rw [hread, residentStatusCheck] at hcheck
      split_ifs at hcheck with hchange
      rw [not_and, not_not] at hchange
      rw [hchange hne]
      exact hne
  updateCredential credential hC h :=
    wp_refuse h fun _ ↦ h.staysIn hlate hC fun _ hstate ↦ hstate
  record hmarker _ h := by
    rw [h.marker] at hmarker
    cases hmarker

/-- **A deletion** that succeeds leaves a slot as if it had never been used. -/
theorem wp_credentialResidentDelete (hlate : ¬A .late) (hC : ContextFits sha256 crypto C)
    (h : SlotHolds sha256 crypto slot StateSound s.files) :
    wp A (credentialResidentDelete C slot)
      (fun _ s' ↦ SlotHolds sha256 crypto slot StateSound s'.files) (fun _ _ ↦ True) s := by
  refine wp_bind (wp_fileSearch (wp_refuse trivial fun _ ↦ wp_ite (fun _ ↦ ?_) fun hmarker ↦ ?_))
  · refine wp_bind (wp_fileSearch (wp_refuse trivial fun _ ↦ ?_))
    rcases hC.keys with hnone | hsome
    · rw [hnone]
      exact wp_fail trivial
    rw [hsome, hC.sha256_eq]
    rcases h with hdead | ⟨val, current, hlinked, -⟩
    · unfold fileObjectContainerDelete
      refine wp_ite (fun hlayout ↦ ?_) fun _ ↦ wp_get ?_
      · simp [(residentLayoutSpec slot).valid] at hlayout
      rw [hdead.load (residentLayoutSpec slot).valid]
      exact wp_bind (wp_fail trivial)
    · refine wp_mono (wp_fileObjectContainerDelete (residentLayoutSpec slot) hlinked.is)
        (fun _ s' hs' ↦ ?_) fun _ _ _ ↦ trivial
      refine .inr ⟨val, none, ⟨hs'.absent, fun _ _ _ hnone ↦ ?_⟩, fun _ hdata ↦ ?_⟩
      · cases hnone
      · cases hdata
  · rw [Bool.not_eq_true] at hmarker
    exact wp_mono ((slotLaw_sound hlate).record hmarker
      (.perform (F := (· = residentMarkerFid slot)) rfl _) h) (fun _ _ hs' ↦ hs')
      fun _ _ _ ↦ trivial

end Laws

end PicoAll
