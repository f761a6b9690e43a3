import PicoAll.Fido.OathContainer
import PicoAll.Fido.OtpContainer
import PicoAll.Fido.ResidentContainer
import PicoAll.Fs.VaultContainer
import PicoAll.Hsm.KeyContainer
import PicoAll.Openpgp.KeyContainer

/-!
# The containers of the applications

The six kinds of containers there are, each with its layout and its id, and the calls made on them.
What a container shows is what its calls report: the manifest it loads and the data it reads.
-/

namespace PicoAll

open FaultProgram List

/-- A container of an application. -/
inductive ContainerApplication where
  /-- The vault, with the file it was kept in before, which is none of its own. -/
  | vault (legacyFile : Option {fid : ℕ // fid < 0xc400 ∨ 0xca00 ≤ fid})
  /-- A FIDO resident credential, by slot. -/
  | resident (slot : UInt8)
  /-- The bank of OTP slots. -/
  | otp
  /-- An OATH credential, by slot. -/
  | oath (slot : UInt8)
  /-- An OpenPGP or PIV key, by its file. -/
  | openpgpKey (fid : {fid : UInt16 // openpgpKeyContainerSupported fid = true})
  /-- An HSM key, by its id. -/
  | hsmKey (keyId : UInt8)

namespace ContainerApplication

variable (sha256 : Bytes → Bytes)

/-- The layout of a container. -/
def layout : ContainerApplication → FileObjectContainerLayout
  | vault legacyFile => vaultLayout sha256 (legacyFile.map (·.1))
  | resident _ => residentContainerLayout sha256
  | otp => otpContainerLayout sha256
  | oath _ => oathContainerLayout sha256
  | openpgpKey _ => openpgpKeyContainerLayout sha256
  | hsmKey _ => hsmKeyContainerLayout sha256

def containerId : ContainerApplication → UInt32
  | vault _ => 0
  | resident slot => slot.toUInt32
  | otp => 0
  | oath slot => slot.toUInt32
  | openpgpKey fid => fid.1.toUInt32
  | hsmKey keyId => keyId.toUInt32

/-- The writes an application makes: those to a key are in the key's domain. -/
def Writes : ContainerApplication → FileObjectContainerWrite → Prop
  | openpgpKey fid => OpenpgpKeyWrite fid.1
  | _ => fun _ ↦ True

/-- Whether the clean-up of a container goes over all of its records. -/
def sweeps : ContainerApplication → Bool
  | openpgpKey _ => false
  | hsmKey _ => false
  | _ => true

/-- **Every application keeps to the rules for layouts.** -/
theorem spec (app : ContainerApplication) :
    ContainerLayoutSpec (app.layout sha256) app.containerId app.Writes := by
  cases app with
  | vault legacyFile =>
    refine vaultLayoutSpec fun fid hfid ↦ ?_
    obtain ⟨file, -, rfl⟩ := Option.map_eq_some_iff.mp hfid
    exact file.2
  | resident slot => exact residentLayoutSpec slot
  | otp => exact otpLayoutSpec
  | oath slot => exact oathLayoutSpec slot
  | openpgpKey fid => exact openpgpKeyLayoutSpec fid.1 fid.2
  | hsmKey keyId => exact hsmKeyLayoutSpec

theorem layoutSweeps {app : ContainerApplication} (h : app.sweeps = true) :
    LayoutSweeps (app.layout sha256) app.containerId := by
  cases app with
  | vault legacyFile => exact vaultLayoutSweeps
  | resident slot => exact residentLayoutSweeps slot
  | otp => exact otpLayoutSweeps
  | oath slot => exact oathLayoutSweeps slot
  | openpgpKey fid => cases h
  | hsmKey keyId => cases h

end ContainerApplication

/-! ### Calls -/

/-- A call that changes the objects of a container. -/
inductive ContainerCall where
  /-- `file_object_container_update`, or without the validation of the records. -/
  | update (writes : List FileObjectContainerWrite) (validateRecords : Bool)
  /-- `file_object_container_remove`. -/
  | remove (objectType objectTag : UInt16)

def ContainerCall.writes : ContainerCall → List FileObjectContainerWrite
  | update writes _ => writes
  | remove _ _ => []

/-- The data of the objects after a call. -/
def ContainerCall.effect (objects : UInt16 × UInt16 → Option Bytes) :
    ContainerCall → UInt16 × UInt16 → Option Bytes
  | update writes _, key =>
    match writes.find? (·.key == key) with
    | some write => some write.data
    | none => objects key
  | remove objectType objectTag, key =>
    if key = (objectType, objectTag) then none else objects key

section Shown

variable (layout : FileObjectContainerLayout) (containerId : UInt32)
  (crypto : FileObjectContainerCrypto) (legacy : Option FileObjectContainerCrypto)

def ContainerCall.run : ContainerCall → FsProg TxnRam Unit
  | update writes validateRecords =>
    fileObjectContainerUpdateInternal layout containerId writes crypto legacy validateRecords
  | remove objectType objectTag =>
    fileObjectContainerRemove layout containerId objectType objectTag crypto legacy

/-- The manifest a container loads, with its slot. -/
def containerManifest (files : Files) : Option (Fin 2 × FileObjectManifest) :=
  match fileObjectContainerLoad layout containerId files crypto legacy with
  | .ok state => some state.current
  | .error _ => none

/-- `file_object_container_read`, into a buffer with room for every object. -/
def containerData (files : Files) (key : UInt16 × UInt16) : Except Status Bytes :=
  fileObjectContainerRead layout containerId files key.1 key.2 crypto legacy UINT32_MAX

/-- What a reader gets for the data of an object. -/
def readResult : Option Bytes → Except Status Bytes
  | some data => .ok data
  | none => .error .fileNotFound

end Shown

section Shown

variable {layout : FileObjectContainerLayout} {containerId : UInt32}
  {crypto : FileObjectContainerCrypto} {legacy : Option FileObjectContainerCrypto}
  {files : Files} {val : UInt16 × UInt16 → Bytes} {current : Option (Fin 2 × FileObjectManifest)}

/-- The data of the objects of what a container is at. -/
def currentData (current : Option (Fin 2 × FileObjectManifest)) (val : UInt16 × UInt16 → Bytes)
    (key : UInt16 × UInt16) : Option Bytes :=
  if key ∈ (currentObjects current).map (·.key) then some (val key) else none

variable (legacy) in
/-- A container loads what it is at. -/
theorem ContainerIs.manifest_eq (hlayout : fileObjectContainerLayoutValid layout = true)
    (h : ContainerIs layout containerId crypto files val current) :
    containerManifest layout containerId crypto legacy files = current := by
  rcases current with - | ⟨slot, manifest⟩
  · rw [containerManifest, ContainerAbsent.load hlayout h]
  · obtain ⟨state, hload, hstate⟩ := @ContainerHolds.load _ _ _ legacy _ _ _ _ hlayout h
    rw [containerManifest, hload]
    exact congrArg some hstate.current_eq

variable (legacy) in
/-- A container reads the data of what it is at, into a buffer with room for it. -/
theorem ContainerIs.read_eq (hlayout : fileObjectContainerLayoutValid layout = true)
    (h : ContainerIs layout containerId crypto files val current) (key : UInt16 × UInt16)
    {capacity : ℕ}
    (hcap : ∀ data, currentData current val key = some data → data.length ≤ capacity) :
    fileObjectContainerRead layout containerId files key.1 key.2 crypto legacy capacity =
      readResult (currentData current val key) := by
  rcases current with - | ⟨slot, manifest⟩
  · exact ContainerAbsent.read hlayout h key.1 key.2 capacity
  · have hmem {object : FileObjectDescriptor} (hobject : object ∈ manifest.objects)
        (hkey : object.key = key) :
        currentData (some (slot, manifest)) val key = some (val key) :=
      if_pos (mem_map.mpr ⟨object, hobject, hkey⟩)
    have hroom : ∀ object ∈ manifest.objects, object.key = (key.1, key.2) →
        object.logicalSize.toNat ≤ capacity := by
      intro object hobject hkey
      have hlen := (ContainerHolds.records h object hobject).sizes.length_eq
      rw [hkey] at hlen
      rw [← hlen]
      exact hcap _ (hmem hobject hkey)
    rw [ContainerHolds.read hlayout h key.1 key.2 hroom, currentData]
    have hany : (manifest.objects.any (·.key == (key.1, key.2))) = true ↔
        key ∈ (currentObjects (some (slot, manifest))).map (·.key) := by
      simp [currentObjects, any_eq_true, mem_map]
    by_cases hkey : key ∈ (currentObjects (some (slot, manifest))).map (·.key)
    · rw [if_pos (hany.mpr hkey), if_pos hkey]
      rfl
    · rw [if_neg fun h ↦ hkey (hany.mp h), if_neg hkey]
      rfl

variable (legacy) in
theorem ContainerIs.data_eq (hlayout : fileObjectContainerLayoutValid layout = true)
    (h : ContainerIs layout containerId crypto files val current) (key : UInt16 × UInt16) :
    containerData layout containerId crypto legacy files key =
      readResult (currentData current val key) := by
  refine h.read_eq legacy hlayout key fun data hdata ↦ ?_
  rw [currentData] at hdata
  split_ifs at hdata with hkey
  cases hdata
  obtain ⟨object, hobject, rfl⟩ := mem_map.mp hkey
  rcases current with - | ⟨slot, manifest⟩
  · cases hobject
  · rw [(ContainerHolds.records h object hobject).sizes.length_eq]
    exact Nat.le_of_lt_succ object.logicalSize.toNat_lt

variable {writes : List FileObjectContainerWrite} {validateRecords : Bool}
  {next : FileObjectManifest}

/-- The data after an update. -/
theorem currentData_update {slot : Fin 2}
    (hkeys : ∀ key, key ∈ next.objects.map (·.key) ↔ keysAfter current writes key)
    (key : UInt16 × UInt16) :
    currentData (some (slot, next)) (valAfter val writes) key =
      (ContainerCall.update writes validateRecords).effect (currentData current val) key := by
  have hmem : key ∈ (currentObjects (some (slot, next))).map (·.key) ↔ keysAfter current writes key :=
    hkeys key
  rw [currentData, ContainerCall.effect, valAfter]
  rcases hfind : writes.find? (·.key == key) with - | write
  · have hnone : ¬∃ write ∈ writes, write.key = key := by
      rintro ⟨write, hwrite, hkey⟩
      rw [find?_eq_none] at hfind
      exact hfind write hwrite (by simpa using hkey)
    simp only [hmem, keysAfter, hnone, or_false, currentData, hfind]
  · have hwrite := find?_some hfind
    have hafter : keysAfter current writes key :=
      .inr ⟨write, mem_of_find?_eq_some hfind, by simpa using hwrite⟩
    rw [if_pos (hmem.mpr hafter), hfind]

/-- The data after a removal. -/
theorem currentData_remove {objectType objectTag : UInt16} {slot : Fin 2}
    (hkeys : ∀ key, key ∈ next.objects.map (·.key) ↔ keysWithout current (objectType, objectTag) key)
    (key : UInt16 × UInt16) :
    currentData (some (slot, next)) val key =
      (ContainerCall.remove objectType objectTag).effect (currentData current val) key := by
  have hmem : key ∈ (currentObjects (some (slot, next))).map (·.key) ↔
      keysWithout current (objectType, objectTag) key := hkeys key
  rw [currentData, ContainerCall.effect]
  by_cases hkey : key = (objectType, objectTag)
  · rw [if_neg fun h ↦ (hmem.mp h).2 hkey, if_pos hkey]
  · simp only [hmem, keysWithout, hkey, ne_eq, not_false_eq_true, and_true, if_false, currentData]

/-- A call took place: the container is at the next manifest, with the data of the call. -/
structure CallCommitted (layout : FileObjectContainerLayout) (containerId : UInt32)
    (crypto : FileObjectContainerCrypto) (current : Option (Fin 2 × FileObjectManifest))
    (val : UInt16 × UInt16 → Bytes) (call : ContainerCall) (files : Files)
    (val' : UInt16 × UInt16 → Bytes) (next : FileObjectManifest) : Prop where
  holds : ContainerIs layout containerId crypto files val' (some (targetSlot current, next))
  generation_eq : next.generation.toNat = (currentGeneration current).toNat + 1
  previous_eq : next.previousGeneration = currentGeneration current
  data_eq : ∀ key, currentData (some (targetSlot current, next)) val' key =
    call.effect (currentData current val) key

theorem Updated.callCommitted
    (h : Updated layout containerId crypto current (keysAfter current writes) (valAfter val writes)
      files next) :
    CallCommitted layout containerId crypto current val (.update writes validateRecords) files
      (valAfter val writes) next :=
  ⟨h.holds, h.generation_eq, h.previous_eq, currentData_update h.keys⟩

/-- Where a call may not write: on no protected file. -/
def CallFresh (layout : FileObjectContainerLayout) (containerId : UInt32)
    (crypto : FileObjectContainerCrypto) (keep : ℕ → Prop)
    (current : Option (Fin 2 × FileObjectManifest)) (files : Files) (call : ContainerCall) : Prop :=
  ∀ write ∈ call.writes, layout.writeValid write = true → ∀ s : FsState TxnRam,
    (∀ fid, keep fid → s.files fid = files fid) → ∀ os r,
    (layout.recordAllocate containerId (targetSlot current) write crypto.auth).result s os = .ok r →
      ¬keep r.2

/-- **A call** either takes place or leaves what is protected as it was. -/
theorem wp_containerCall {Allowed : FileObjectContainerWrite → Prop}
    (spec : ContainerLayoutSpec layout containerId Allowed) {A : Outcome → Prop}
    {keep : ℕ → Prop} {s : FsState TxnRam}
    {Clean : (Fin 2 → Option FileObjectManifest) → FileObjectManifest → Fin 2 →
      FsState TxnRam → FsState TxnRam → Prop}
    (hkeep : ∀ fid, keep fid → ContainerFid layout containerId fid)
    (hcurrent : ContainerIs layout containerId crypto s.files val current) {call : ContainerCall}
    (hwrites : ∀ write ∈ call.writes, Allowed write)
    (hfresh : CallFresh layout containerId crypto keep current s.files call)
    (hclean : CleanupOk layout containerId A True Clean) :
    wp A (call.run layout containerId crypto legacy)
      (fun _ s' ↦ ∃ val' next,
        CallCommitted layout containerId crypto current val call s'.files val' next ∧
        ∃ candidates s₁, BeforeRetire layout containerId current s s₁ next candidates ∧
          Clean candidates next (targetSlot current) s₁ s')
      (fun _ s' ↦ ¬A .late → UpdateStopped layout containerId keep current s s' ∨
        ∃ val' next,
          CallCommitted layout containerId crypto current val call s'.files val' next) s := by
  cases call with
  | update writes validateRecords =>
    have hok : UpdateOk layout containerId crypto Allowed A True keep current s.files writes := by
      refine ⟨fun write hwrite ↦ ?_, ⟨by simp, by simp, by simp, by simp⟩, by simp, by simp⟩
      refine ⟨hwrites write hwrite, hfresh write hwrite, fun hvalid s₁ ↦ ?_, by simp, by simp,
        by simp, by simp⟩
      exact wp_mono (spec.allocate A _ write crypto.auth s₁ (hwrites write hwrite) hvalid)
        (fun _ _ _ ↦ trivial) fun _ _ _ ↦ .of_prop trivial
    refine wp_mono (wp_fileObjectContainerUpdateInternal spec hkeep hcurrent hok hclean
      validateRecords) ?_ ?_
    · rintro - s' ⟨next, hupdated, hcleaned⟩
      exact ⟨_, next, hupdated.callCommitted, hcleaned⟩
    · rintro e s' ⟨h, -⟩ hlate
      refine (h hlate).imp_right ?_
      rintro ⟨next, hupdated⟩
      exact ⟨_, next, hupdated.callCommitted⟩
  | remove objectType objectTag =>
    have hcommitted {next : FileObjectManifest} {files : Files} (h : Updated layout containerId
        crypto current (keysWithout current (objectType, objectTag)) val files next) :
        CallCommitted layout containerId crypto current val (.remove objectType objectTag) files
          val next :=
      ⟨h.holds, h.generation_eq, h.previous_eq, currentData_remove h.keys⟩
    refine wp_mono (E := fun _ s' ↦ (¬A .late → UpdateStopped layout containerId keep current s s' ∨
        ∃ next, Updated layout containerId crypto current
          (keysWithout current (objectType, objectTag)) val s'.files next) ∧ Faulty A True)
      (wp_fileObjectContainerRemove spec hcurrent ⟨by simp, by simp, by simp⟩ hclean) ?_ ?_
    · rintro - s' ⟨next, hupdated, hcleaned⟩
      exact ⟨_, next, hcommitted hupdated, hcleaned⟩
    · rintro e s' ⟨h, -⟩ hlate
      refine (h hlate).imp_right ?_
      rintro ⟨next, hupdated⟩
      exact ⟨_, next, hcommitted hupdated⟩

end Shown

end PicoAll
